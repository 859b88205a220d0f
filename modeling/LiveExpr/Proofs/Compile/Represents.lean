import LiveExpr.Proofs.Compile.Visited
import LiveExpr.Proofs.Live.Settled
import LiveExpr.Expr.Meaning

/-!
Every sub-expression has a node that stands for it, so that settled results are the meanings of the
expressions. What an identity names has to be one expression, as sharing goes by identity alone.
-/

namespace LiveExpr

/-! ## Sub-expressions -/

namespace Expr

/-- The first expression occurs in the second, which includes itself. -/
inductive Part : Expr → Expr → Prop
  | self (e : Expr) : Part e e
  | target {e target : Expr} (i : Nat) (t : ValueType) (name reads : String) :
      Part e target → Part e (.member i t target name reads)
  | operand {e operand : Expr} (i : Nat) (t : ValueType) (op : UnaryOp) :
      Part e operand → Part e (.unary i t op operand)
  | left {e left : Expr} (i : Nat) (t : ValueType) (op : BinaryOp) (right : Expr) :
      Part e left → Part e (.binary i t op left right)
  | right {e right : Expr} (i : Nat) (t : ValueType) (op : BinaryOp) (left : Expr) :
      Part e right → Part e (.binary i t op left right)
  | test {e test : Expr} (i : Nat) (t : ValueType) (ifTrue ifFalse : Expr) :
      Part e test → Part e (.conditional i t test ifTrue ifFalse)
  | ifTrue {e ifTrue : Expr} (i : Nat) (t : ValueType) (test ifFalse : Expr) :
      Part e ifTrue → Part e (.conditional i t test ifTrue ifFalse)
  | ifFalse {e ifFalse : Expr} (i : Nat) (t : ValueType) (test ifTrue : Expr) :
      Part e ifFalse → Part e (.conditional i t test ifTrue ifFalse)
  | receiver {e target : Expr} (i : Nat) (t : ValueType) (method : String) (args : List Expr) :
      Part e target → Part e (.call i t (some target) method args)
  | argument {e arg : Expr} (i : Nat) (t : ValueType) (target : Option Expr) (method : String)
      {args : List Expr} : arg ∈ args → Part e arg → Part e (.call i t target method args)

theorem Part.trans {e f g : Expr} (a : Part e f) (b : Part f g) : Part e g := by
  induction b with
  | self => exact a
  | target i t name reads _ ih => exact .target i t name reads ih
  | operand i t op _ ih => exact .operand i t op ih
  | left i t op right _ ih => exact .left i t op right ih
  | right i t op left _ ih => exact .right i t op left ih
  | test i t x y _ ih => exact .test i t x y ih
  | ifTrue i t x y _ ih => exact .ifTrue i t x y ih
  | ifFalse i t x y _ ih => exact .ifFalse i t x y ih
  | receiver i t method args _ ih => exact .receiver i t method args ih
  | argument i t target method harg _ ih => exact .argument i t target method harg ih

@[simp] theorem part_parameter {e : Expr} {i : Nat} {t : ValueType} {name : String} :
    e.Part (.parameter i t name) ↔ e = .parameter i t name := by
  constructor
  · intro h; cases h; rfl
  · rintro rfl; exact .self _

@[simp] theorem part_constant {e : Expr} {i : Nat} {t : ValueType} {v : Value} :
    e.Part (.constant i t v) ↔ e = .constant i t v := by
  constructor
  · intro h; cases h; rfl
  · rintro rfl; exact .self _

@[simp] theorem part_member {e target : Expr} {i : Nat} {t : ValueType} {name reads : String} :
    e.Part (.member i t target name reads) ↔ e = .member i t target name reads ∨ e.Part target := by
  constructor
  · intro h
    cases h with
    | self => exact .inl rfl
    | target _ _ _ _ h => exact .inr h
  · rintro (rfl | h)
    · exact .self _
    · exact .target _ _ _ _ h

@[simp] theorem part_unary {e operand : Expr} {i : Nat} {t : ValueType} {op : UnaryOp} :
    e.Part (.unary i t op operand) ↔ e = .unary i t op operand ∨ e.Part operand := by
  constructor
  · intro h
    cases h with
    | self => exact .inl rfl
    | operand _ _ _ h => exact .inr h
  · rintro (rfl | h)
    · exact .self _
    · exact .operand _ _ _ h

@[simp] theorem part_binary {e left right : Expr} {i : Nat} {t : ValueType} {op : BinaryOp} :
    e.Part (.binary i t op left right) ↔
      e = .binary i t op left right ∨ e.Part left ∨ e.Part right := by
  constructor
  · intro h
    cases h with
    | self => exact .inl rfl
    | left _ _ _ _ h => exact .inr (.inl h)
    | right _ _ _ _ h => exact .inr (.inr h)
  · rintro (rfl | h | h)
    · exact .self _
    · exact .left _ _ _ _ h
    · exact .right _ _ _ _ h

end Expr

def Lambda.Mentions (l : Lambda) (e : Expr) : Prop :=
  e = l.parameter ∨ e.Part l.body

/-- An identity stands for one expression. -/
def Lambda.Identified (l : Lambda) : Prop :=
  ∀ e f, l.Mentions e → l.Mentions f → e.id = f.id → e = f

/-- How many operands a node of this kind has. -/
def NodeKind.operands : NodeKind → Nat
  | .parameter | .constant _ => 0
  | .memberAccess .. | .unaryOp .. => 1
  | _ => 2

namespace Compile

theorem NodeFor.part {e : Expr} {operands : List (Expr × Nat)} {n : Node} (hn : NodeFor e operands n) :
    ∀ x ∈ operands, x.1.Part e := by
  intro x hx
  cases hn with
  | constant => cases hx
  | member =>
      obtain rfl := List.mem_singleton.mp hx
      exact .target _ _ _ _ (.self _)
  | unary =>
      obtain rfl := List.mem_singleton.mp hx
      exact .operand _ _ _ (.self _)
  | binary =>
      rcases List.mem_cons.mp hx with rfl | hx
      · exact .left _ _ _ _ (.self _)
      · obtain rfl := List.mem_singleton.mp hx
        exact .right _ _ _ _ (.self _)

theorem NodeFor.mentions {l : Lambda} {i : Nat} {t : ValueType} {name : String}
    (hparam : l.parameter = .parameter i t name) {e : Expr} {operands : List (Expr × Nat)} {n : Node}
    (hn : NodeFor e operands n) (he : l.Mentions e) : ∀ x ∈ operands, l.Mentions x.1 := by
  intro x hx
  rcases he with rfl | he
  · rw [hparam] at hn
    cases hn
  · exact .inr ((hn.part x hx).trans he)

/-! ## The node that stands for an expression -/

/-- The node has been placed for the expression, and so have its operands. -/
inductive Represents (g : Graph) : Expr → Nat → Prop
  | parameter {i id : Nat} {t : ValueType} {name : String} :
      g.nodes[id]? = some (parameterNode (.parameter i t name) t name) →
      Represents g (.parameter i t name) id
  | operator {e : Expr} {id : Nat} {operands : List (Expr × Nat)} {n : Node} :
      g.nodes[id]? = some n → NodeFor e operands n → (∀ x ∈ operands, Represents g x.1 x.2) →
      Represents g e id

theorem Represents.extend {g g' : Graph} {e : Expr} {id : Nat} (h : Represents g e id)
    (hg : g.Extends g') : Represents g' e id := by
  induction h with
  | parameter hnode => exact .parameter (hg _ _ hnode)
  | operator hnode hn _ ih => exact .operator (hg _ _ hnode) hn ih

/-- Whatever the lambda mentions and has been placed, has been placed as a node that stands for it. -/
def Progress.Sound (l : Lambda) (s : Progress) : Prop :=
  ∀ e id, l.Mentions e → s.placed.lookup e.id = some id → Represents s.graph e id

theorem Progress.Sound.push {l : Lambda} (hl : l.Identified) {s : Progress} (hs : s.Sound l) {e : Expr}
    (he : l.Mentions e) (n : Node) (hnew : Represents (s.push e n).graph e s.graph.size) :
    (s.push e n).Sound l := by
  intro f id hf hid
  rw [lookup_push] at hid
  split at hid
  · cases hid
    obtain rfl := hl f e hf he ‹_›
    exact hnew
  · exact (hs f id hf hid).extend (Graph.extends_add _ _)

variable {l : Lambda}

mutual

theorem Visited.represents (hl : l.Identified) {i : Nat} {t : ValueType} {name : String}
    (hparam : l.parameter = .parameter i t name) {e : Expr} {s s' : Progress} {id : Nat}
    (h : Visited e s id s') (he : l.Mentions e) (hr : s.Ranged) (hs : s.Sound l) :
    s'.Sound l ∧ Represents s'.graph e id := by
  match h with
  | .placed hid => exact ⟨hs, hs _ _ he hid⟩
  | @Visited.new _ _ s₁ _ n _ hall hn =>
      obtain ⟨hs₁, hoperands⟩ := hall.represents hl hparam (hn.mentions hparam he) hr hs
      have hnode := Graph.nodes_add_size (hn.inputs_lt hall hr)
      have hnew : Represents (s₁.push e n).graph e s₁.graph.size :=
        .operator hnode hn fun x hx => (hoperands x hx).extend (Graph.extends_add _ _)
      exact ⟨hs₁.push hl he n hnew, hnew⟩

theorem VisitedAll.represents (hl : l.Identified) {i : Nat} {t : ValueType} {name : String}
    (hparam : l.parameter = .parameter i t name) {es : List (Expr × Nat)} {s s' : Progress}
    (h : VisitedAll es s s') (hes : ∀ x ∈ es, l.Mentions x.1) (hr : s.Ranged) (hs : s.Sound l) :
    s'.Sound l ∧ ∀ x ∈ es, Represents s'.graph x.1 x.2 := by
  match h with
  | .nil => exact ⟨hs, by simp⟩
  | @VisitedAll.cons _ _ rest _ _ _ hv hall =>
      obtain ⟨hs₁, hid⟩ := hv.represents hl hparam (hes _ List.mem_cons_self) hr hs
      obtain ⟨hs', hrest⟩ := hall.represents hl hparam (fun x hx => hes x (by simp [hx]))
        (hv.ranged hr).1 hs₁
      refine ⟨hs', fun x hx => ?_⟩
      rcases List.mem_cons.mp hx with rfl | hx
      · exact hid.extend hall.extends
      · exact hrest x hx

end

/-! ## Compiled prototypes -/

theorem represents_of_compile (hl : l.Identified) {p : Prototype} (h : l.compile = .ok p) :
    Represents p.graph l.body p.body := by
  obtain ⟨i, t, name, s, hparam, hbody, hp⟩ := compile_spec h
  have hnode : (startWith l.parameter t name).graph.nodes[0]? =
      some (parameterNode l.parameter t name) :=
    Graph.nodes_add_size (g := .empty) (by simp [parameterNode, nodeOf])
  have hstart : (startWith l.parameter t name).Sound l := by
    refine Progress.Sound.push hl (fun e id _ hid => by cases hid) (.inl rfl) _ ?_
    rw [hparam] at hnode ⊢
    exact .parameter hnode
  have hgraph : p.graph = s.graph := by rw [hp]
  rw [hgraph]
  exact (hbody.represents hl hparam (.inr (.self _)) (startWith_ranged _ _ _) hstart).2

mutual

theorem Visited.node {e : Expr} {s s' : Progress} {id i : Nat} {n : Node} (h : Visited e s id s')
    (hr : s.Ranged) (hi : s'.graph.nodes[i]? = some n) :
    s.graph.nodes[i]? = some n ∨ ∃ f operands, f.Part e ∧ NodeFor f operands n := by
  match h with
  | .placed _ => exact .inl hi
  | @Visited.new _ _ _ operands m _ hall hn =>
      rw [nodes_push e (hn.inputs_lt hall hr), Array.getElem?_push] at hi
      split at hi
      · cases hi; exact .inr ⟨e, operands, .self e, hn⟩
      · rcases hall.node hr hi with hi | ⟨x, hx, f, operands, hf, hnode⟩
        · exact .inl hi
        · exact .inr ⟨f, operands, hf.trans (hn.part x hx), hnode⟩

theorem VisitedAll.node {es : List (Expr × Nat)} {s s' : Progress} {i : Nat} {n : Node}
    (h : VisitedAll es s s') (hr : s.Ranged) (hi : s'.graph.nodes[i]? = some n) :
    s.graph.nodes[i]? = some n ∨ ∃ x ∈ es, ∃ f operands, f.Part x.1 ∧ NodeFor f operands n := by
  match h with
  | .nil => exact .inl hi
  | .cons hv hall =>
      rcases hall.node (hv.ranged hr).1 hi with hi | ⟨x, hx, hnode⟩
      · rcases hv.node hr hi with hi | hnode
        · exact .inl hi
        · exact .inr ⟨_, List.mem_cons_self, hnode⟩
      · exact .inr ⟨x, List.mem_cons_of_mem _ hx, hnode⟩

end

theorem NodeFor.inputs_length {e : Expr} {operands : List (Expr × Nat)} {n : Node}
    (hn : NodeFor e operands n) : n.inputs.length = n.kind.operands := by
  cases hn with
  | binary =>
      simp only [nodeOf, NodeConstructor.instantiate]
      split <;> rfl
  | _ => rfl

theorem NodeFor.kind_ne_parameter {e : Expr} {operands : List (Expr × Nat)} {n : Node}
    (hn : NodeFor e operands n) : n.kind ≠ .parameter := by
  cases hn with
  | binary =>
      simp only [nodeOf, NodeConstructor.instantiate]
      split <;> simp
  | _ => simp [nodeOf, NodeConstructor.instantiate]

/-- A node is the parameter's, or it was placed for a part of the body. -/
theorem node_of_compile {p : Prototype} (h : l.compile = .ok p) {id : Nat} {n : Node}
    (hn : p.graph.nodes[id]? = some n) :
    (id = 0 ∧ ∃ t name, n = parameterNode l.parameter t name) ∨
      ∃ f operands, f.Part l.body ∧ NodeFor f operands n := by
  obtain ⟨i, t, name, s, -, hbody, hp⟩ := compile_spec h
  have hstart : (startWith l.parameter t name).graph.nodes = #[parameterNode l.parameter t name] :=
    nodes_push _ (by simp [parameterNode, nodeOf])
  rw [hp] at hn
  rcases hbody.node (startWith_ranged _ _ _) hn with hn | hnode
  · rw [hstart] at hn
    obtain rfl : id = 0 := by simpa using (Array.getElem?_eq_some_iff.mp hn).1
    cases hn
    exact .inl ⟨rfl, t, name, rfl⟩
  · exact .inr hnode

theorem parameter_iff_of_compile {p : Prototype} (h : l.compile = .ok p) (id : Nat) :
    (p.graph.nodes[id]?).map (·.kind) = some .parameter ↔ id = p.parameter := by
  obtain ⟨i, t, name, s, -, hbody, hp⟩ := compile_spec h
  have hzero : p.parameter = 0 := by rw [hp]
  rw [hzero]
  constructor
  · intro hk
    obtain ⟨n, hn, hkind⟩ := Option.map_eq_some_iff.mp hk
    rcases node_of_compile h hn with ⟨hid, -⟩ | ⟨f, operands, -, hnode⟩
    · exact hid
    · exact absurd hkind hnode.kind_ne_parameter
  · rintro rfl
    have hstart : (startWith l.parameter t name).graph.nodes[0]? =
        some (parameterNode l.parameter t name) :=
      Graph.nodes_add_size (g := .empty) (by simp [parameterNode, nodeOf])
    have hgraph : p.graph = s.graph := by rw [hp]
    rw [hgraph, hbody.extends 0 _ hstart]
    rfl

theorem inputs_length_of_compile {p : Prototype} (h : l.compile = .ok p) {id : Nat} {n : Node}
    (hn : p.graph.nodes[id]? = some n) : n.inputs.length = n.kind.operands := by
  rcases node_of_compile h hn with ⟨-, t, name, rfl⟩ | ⟨f, operands, -, hnode⟩
  · rfl
  · exact hnode.inputs_length

end Compile

end LiveExpr
