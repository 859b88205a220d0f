import LiveExpr.Proofs.Compile.Represents
import LiveExpr.Proofs.Typing.Inferred

/-!
Compiling numbers the expressions of a lambda: every one of them has one node, every node stands for
one of them, and the inputs of a node are the nodes of the operands. The table of what has been placed
is the numbering while it is made.
-/

namespace LiveExpr

namespace Expr

/-! ## What the node of an expression has to be -/

def operands : Expr → List Expr
  | member _ _ target .. => [target]
  | unary _ _ _ operand => [operand]
  | binary _ _ _ left right => [left, right]
  | _ => []

/-- Members are followed on objects that announce their changes, and on nothing else. -/
def followed (target : Expr) : Bool :=
  match target.type with
  | .object _ observable => observable
  | _ => false

/-- The variant of node for a binary operator: the conjunction and the disjunction have one of their
own on booleans. -/
def binaryKind (op : BinaryOp) (booleans : Bool) (kernel : BinaryKernel) : NodeKind :=
  match op with
  | .equal => .binaryEqual kernel
  | .notEqual => .binaryNotEqual kernel
  | .lessThan | .lessThanOrEqual | .greaterThan | .greaterThanOrEqual => .binaryRelational op kernel
  | .and => if booleans then .binaryLogicalAnd kernel else .binaryDefault op kernel
  | .or => if booleans then .binaryLogicalOr kernel else .binaryDefault op kernel
  | _ => .binaryDefault op kernel

/-- The variant of node for an expression, where there is one. -/
def nodeKind? : Expr → Option NodeKind
  | parameter .. => some .parameter
  | constant _ _ v => some (.constant v)
  | member _ _ target name reads => some (.memberAccess name reads target.followed)
  | unary _ t op operand =>
    (UnaryKernel.build op operand.type t).toOption.map (.unaryOp op)
  | binary _ _ op left right =>
    (BinaryKernel.build op left.type right.type).toOption.map
      (binaryKind op (left.type.isBoolean && right.type.isBoolean))
  | staticMember .. | conditional .. | call .. => none

/-- `n` is the node for the expression, when `node` numbers the nodes of it and of its operands. -/
structure NodeAt (node : Expr → Nat) (g : Graph) (e : Expr) (n : Node) : Prop where
  here : g.nodes[node e]? = some n
  inputs : n.inputs = e.operands.map node
  arity : n.inputs.length = n.kind.operands
  inputs_lt : ∀ i ∈ n.inputs, i < node e
  type : n.type = e.type
  policy : n.policy = .ofType e.type
  kind : e.nodeKind? = some n.kind

theorem Part.sizeOf_le {e f : Expr} (h : e.Part f) : sizeOf e ≤ sizeOf f := by
  induction h with
  | self => exact Nat.le_refl _
  | argument i t target method harg _ ih =>
      have := List.sizeOf_lt_of_mem harg
      simp only [call.sizeOf_spec]
      omega
  | _ =>
      simp only [member.sizeOf_spec, unary.sizeOf_spec, binary.sizeOf_spec, conditional.sizeOf_spec,
        call.sizeOf_spec, Option.some.sizeOf_spec]
      omega

theorem part_of_operand {e f : Expr} (h : e ∈ f.operands) : e.Part f := by
  cases f <;> simp only [operands, List.mem_cons, List.not_mem_nil, or_false] at h
  case member =>
    subst h
    exact .target _ _ _ _ (.self _)
  case unary =>
    subst h
    exact .operand _ _ _ (.self _)
  case binary =>
    rcases h with rfl | rfl
    · exact .left _ _ _ _ (.self _)
    · exact .right _ _ _ _ (.self _)

theorem sizeOf_lt_of_operand {e f : Expr} (h : e ∈ f.operands) : sizeOf e < sizeOf f := by
  cases f <;> simp only [operands, List.mem_cons, List.not_mem_nil, or_false] at h
  case member => subst h; simp only [member.sizeOf_spec]; omega
  case unary => subst h; simp only [unary.sizeOf_spec]; omega
  case binary => rcases h with rfl | rfl <;> simp only [binary.sizeOf_spec] <;> omega

end Expr

namespace Compile

/-! ## The nodes of the rules -/

theorem NodeFor.operands {e : Expr} {operands : List (Expr × Nat)} {n : Node}
    (hn : NodeFor e operands n) : operands.map (·.1) = e.operands := by
  cases hn <;> rfl

theorem NodeFor.sizeOf_lt {e : Expr} {operands : List (Expr × Nat)} {n : Node}
    (hn : NodeFor e operands n) {x : Expr × Nat} (hx : x ∈ operands) : sizeOf x.1 < sizeOf e := by
  apply Expr.sizeOf_lt_of_operand
  rw [← hn.operands]
  exact List.mem_map_of_mem hx

theorem NodeFor.type {e : Expr} {operands : List (Expr × Nat)} {n : Node}
    (hn : NodeFor e operands n) : n.type = e.type := by
  cases hn <;> rfl

/-- A comparison is specialised on the types of its operands alone, and yields a boolean whatever they
are, as its inferred type says. -/
theorem NodeFor.policy {e : Expr} {operands : List (Expr × Nat)} {n : Node}
    (hn : NodeFor e operands n) (he : e.TypeInferred) : n.policy = .ofType e.type := by
  cases hn with
  | constant | member | unary => rfl
  | @binary i j k t op left right tag kernel htag hk =>
      obtain ⟨result, hresult⟩ := BinaryOp.resultType_of_build hk
      have ht : t = result := by
        rw [Expr.TypeInferred, hresult] at he
        exact he
      have hbool : op = .equal ∨ op = .notEqual ∨ op.isRelational = true → t = .bool :=
        fun hop => ht.trans (BinaryOp.resultType_of_comparison hop hresult)
      cases op <;> simp only [binaryTag, Except.ok.injEq, reduceCtorEq] at htag <;> subst htag
      case exclusiveOr | arrayIndex => rfl
      case and | or => cases left.type.isBoolean && right.type.isBoolean <;> rfl
      all_goals
        rw [hbool (by simp [BinaryOp.isRelational])]
        rfl

theorem NodeFor.kind {e : Expr} {operands : List (Expr × Nat)} {n : Node}
    (hn : NodeFor e operands n) : e.nodeKind? = some n.kind := by
  cases hn with
  | constant => rfl
  | @member i k t target =>
      simp only [Expr.nodeKind?, Expr.followed, nodeOf, NodeConstructor.instantiate,
        NodeConstructor.build, NodeConstructor.observesOn]
      cases target.type <;> rfl
  | unary _ hk =>
      rw [Expr.nodeKind?, hk]
      rfl
  | @binary i j k t op left right tag kernel htag hk =>
      rw [Expr.nodeKind?, hk]
      cases op <;> simp only [binaryTag, Except.ok.injEq, reduceCtorEq] at htag <;> subst htag
      case and | or => cases left.type.isBoolean && right.type.isBoolean <;> rfl
      all_goals rfl

/-! ## The table while it is made -/

/-- The node `id` has been placed for the expression, after those of its operands. -/
inductive Progress.Stands (l : Lambda) (s : Progress) : Expr → Nat → Prop
  | parameter {i : Nat} {t : ValueType} {name : String} :
      l.parameter = .parameter i t name →
      s.graph.nodes[0]? = some (parameterNode l.parameter t name) → Stands l s l.parameter 0
  | operator {e : Expr} {id : Nat} {operands : List (Expr × Nat)} {n : Node} :
      s.graph.nodes[id]? = some n → NodeFor e operands n →
      (∀ x ∈ operands, s.placed.lookup x.1.id = some x.2) → Stands l s e id

/-- The table numbers the expressions that have been placed, each with a node of its own. -/
structure Progress.Numbers (l : Lambda) (s : Progress) : Prop where
  ranged : s.Ranged
  stands : ∀ e id, l.Mentions e → s.placed.lookup e.id = some id → s.Stands l e id
  injective : ∀ i j id, s.placed.lookup i = some id → s.placed.lookup j = some id → i = j
  surjective : ∀ id < s.graph.size, ∃ e, l.Mentions e ∧ s.placed.lookup e.id = some id

/-- What has been placed keeps its number. -/
def Progress.Keeps (s s' : Progress) : Prop :=
  ∀ i id, s.placed.lookup i = some id → s'.placed.lookup i = some id

variable {l : Lambda}

theorem Progress.Keeps.push {s : Progress} {e : Expr} (hnew : s.placed.lookup e.id = none) (n : Node) :
    s.Keeps (s.push e n) := by
  intro i id hi
  rw [lookup_push, if_neg, hi]
  rintro rfl
  cases hnew.symm.trans hi

theorem Progress.Stands.push {s : Progress} {e f : Expr} {id : Nat}
    (hf : s.Stands l f id) (hnew : s.placed.lookup e.id = none) (n : Node) :
    (s.push e n).Stands l f id := by
  cases hf with
  | parameter hparam hnode => exact .parameter hparam (Graph.extends_add _ _ _ _ hnode)
  | operator hnode hn hoperands =>
      exact .operator (Graph.extends_add _ _ _ _ hnode) hn
        fun x hx => Keeps.push hnew n _ _ (hoperands x hx)

theorem Progress.Numbers.push (hl : l.Identified) {s : Progress} (hs : s.Numbers l) {e : Expr}
    (he : l.Mentions e) (hnew : s.placed.lookup e.id = none) {n : Node}
    (hstands : (s.push e n).Stands l e s.graph.size) : (s.push e n).Numbers l where
  ranged := hs.ranged.push e n
  stands := by
    intro f id hf hid
    rw [lookup_push] at hid
    split at hid
    · cases hid
      obtain rfl := hl f e hf he ‹_›
      exact hstands
    · exact (hs.stands f id hf hid).push hnew n
  injective := by
    intro i j id hi hj
    rw [lookup_push] at hi hj
    split at hi <;> split at hj
    · rw [‹i = e.id›, ‹j = e.id›]
    · cases hi
      exact absurd (hs.ranged j _ hj) (Nat.lt_irrefl _)
    · cases hj
      exact absurd (hs.ranged i _ hi) (Nat.lt_irrefl _)
    · exact hs.injective i j id hi hj
  surjective := by
    intro id hid
    rw [size_push] at hid
    by_cases hlast : id = s.graph.size
    · exact ⟨e, he, by rw [lookup_push, if_pos rfl, hlast]⟩
    · obtain ⟨f, hf, hlookup⟩ := hs.surjective id (by omega)
      exact ⟨f, hf, Keeps.push hnew n _ _ hlookup⟩

mutual

/-- A visit places nothing but parts of the expression it visits. -/
theorem Visited.places {e : Expr} {s s' : Progress} {id i k : Nat} (h : Visited e s id s')
    (hk : s'.placed.lookup i = some k) : s.placed.lookup i = some k ∨ ∃ f : Expr, f.Part e ∧ f.id = i := by
  match h with
  | .placed _ => exact .inl hk
  | .new _ hall hn =>
      rw [Progress.lookup_push] at hk
      split at hk
      · exact .inr ⟨e, .self _, Eq.symm ‹_›⟩
      · rcases hall.places hk with hk | ⟨x, hx, f, hf, hfid⟩
        · exact .inl hk
        · exact .inr ⟨f, hf.trans (hn.part x hx), hfid⟩

theorem VisitedAll.places {es : List (Expr × Nat)} {s s' : Progress} {i k : Nat}
    (h : VisitedAll es s s') (hk : s'.placed.lookup i = some k) :
    s.placed.lookup i = some k ∨ ∃ x ∈ es, ∃ f : Expr, f.Part x.1 ∧ f.id = i := by
  match h with
  | .nil => exact .inl hk
  | .cons hv hall =>
      rcases hall.places hk with hk | ⟨x, hx, hpart⟩
      · rcases hv.places hk with hk | hpart
        · exact .inl hk
        · exact .inr ⟨_, List.mem_cons_self, hpart⟩
      · exact .inr ⟨x, List.mem_cons_of_mem _ hx, hpart⟩

end

/-- An expression is not part of its operands, so that it is still new when they have been placed. -/
theorem NodeFor.new_of_operands (hl : l.Identified) {i : Nat} {t : ValueType} {name : String}
    (hparam : l.parameter = .parameter i t name) {e : Expr} {operands : List (Expr × Nat)} {n : Node}
    (hn : NodeFor e operands n) (he : l.Mentions e) {s s' : Progress}
    (hnew : s.placed.lookup e.id = none) (hall : VisitedAll operands s s') :
    s'.placed.lookup e.id = none := by
  cases hk : s'.placed.lookup e.id with
  | none => rfl
  | some k =>
      rcases hall.places hk with hk | ⟨x, hx, f, hf, hfid⟩
      · cases hnew.symm.trans hk
      · have hmentions : l.Mentions f := by
          rcases hn.mentions hparam he x hx with heq | hpart
          · rw [heq, hparam, Expr.part_parameter] at hf
            exact .inl (by rw [hf, hparam])
          · exact .inr (hf.trans hpart)
        obtain rfl := hl f e hmentions he hfid
        exact absurd (hn.sizeOf_lt hx) (Nat.not_lt_of_le hf.sizeOf_le)

mutual

theorem Visited.numbers (hl : l.Identified) {i : Nat} {t : ValueType} {name : String}
    (hparam : l.parameter = .parameter i t name) {e : Expr} {s s' : Progress} {id : Nat}
    (h : Visited e s id s') (he : l.Mentions e) (hs : s.Numbers l) :
    s'.Numbers l ∧ s.Keeps s' ∧ s'.placed.lookup e.id = some id := by
  match h with
  | .placed hid => exact ⟨hs, fun _ _ hi => hi, hid⟩
  | @Visited.new _ _ s₁ _ n hnew hall hn =>
      obtain ⟨hs₁, hkeeps, hoperands⟩ := hall.numbers hl hparam (hn.mentions hparam he) hs
      have hnew₁ := hn.new_of_operands hl hparam he hnew hall
      have hpush := Progress.Keeps.push hnew₁ n
      have hstands : (s₁.push e n).Stands l e s₁.graph.size :=
        .operator (Graph.nodes_add_size (hn.inputs_lt hall hs.ranged)) hn
          fun x hx => hpush _ _ (hoperands x hx)
      refine ⟨hs₁.push hl he hnew₁ hstands, fun i k hi => hpush i k (hkeeps i k hi), ?_⟩
      rw [Progress.lookup_push, if_pos rfl]

theorem VisitedAll.numbers (hl : l.Identified) {i : Nat} {t : ValueType} {name : String}
    (hparam : l.parameter = .parameter i t name) {es : List (Expr × Nat)} {s s' : Progress}
    (h : VisitedAll es s s') (hes : ∀ x ∈ es, l.Mentions x.1) (hs : s.Numbers l) :
    s'.Numbers l ∧ s.Keeps s' ∧ ∀ x ∈ es, s'.placed.lookup x.1.id = some x.2 := by
  match h with
  | .nil => exact ⟨hs, fun _ _ hi => hi, by simp⟩
  | .cons hv hall =>
      obtain ⟨hs₁, hkeeps, hid⟩ := hv.numbers hl hparam (hes _ List.mem_cons_self) hs
      obtain ⟨hs', hkeeps', hrest⟩ := hall.numbers hl hparam (fun x hx => hes x (by simp [hx])) hs₁
      refine ⟨hs', fun i k hi => hkeeps' i k (hkeeps i k hi), fun x hx => ?_⟩
      rcases List.mem_cons.mp hx with rfl | hx
      · exact hkeeps' _ _ hid
      · exact hrest x hx

end

/-! ## The numbering of a compiled lambda -/

def Progress.numberOf (s : Progress) (e : Expr) : Nat :=
  (s.placed.lookup e.id).getD 0

theorem Progress.numberOf_of_placed {s : Progress} {e : Expr} {id : Nat}
    (h : s.placed.lookup e.id = some id) : s.numberOf e = id := by
  rw [numberOf, h, Option.getD_some]

theorem Progress.Stands.of_part {s : Progress} {e f : Expr} {id : Nat} (hf : s.Stands l f id)
    (he : e.Part f) : e = f ∨ ∃ g ∈ f.operands, e.Part g := by
  cases hf with
  | parameter hparam =>
      rw [hparam, Expr.part_parameter] at he
      exact .inl (he.trans hparam.symm)
  | operator _ hn => cases hn <;> simpa [Expr.operands] using he

theorem Progress.Stands.operand {s : Progress} {e f : Expr} {id : Nat} (hf : s.Stands l f id)
    (he : e ∈ f.operands) : ∃ k, s.placed.lookup e.id = some k ∧ k ∈ s.graph.inputs id := by
  cases hf with
  | parameter hparam =>
      rw [hparam] at he
      cases he
  | operator hnode hn hoperands =>
      rw [← hn.operands, List.mem_map] at he
      obtain ⟨x, hx, rfl⟩ := he
      refine ⟨x.2, hoperands x hx, ?_⟩
      rw [Graph.inputs_of_node hnode, hn.inputs]
      exact List.mem_map_of_mem hx

theorem Progress.Stands.nodeAt {s : Progress} {e : Expr} {id : Nat} (h : s.Stands l e id)
    (he : e.TypeInferred) (hid : s.numberOf e = id) : ∃ n, e.NodeAt s.numberOf s.graph n := by
  cases h with
  | @parameter i t name hparam hnode =>
      refine ⟨parameterNode l.parameter t name, ?_, ?_, rfl, by simp [parameterNode, nodeOf], rfl, ?_,
        ?_⟩
      · rw [hid]
        exact hnode
      all_goals
        rw [hparam]
        rfl
  | operator hnode hn hoperands =>
      refine ⟨_, by rw [hid]; exact hnode, ?_, hn.inputs_length, ?_, hn.type, hn.policy he, hn.kind⟩
      · rw [hn.inputs, ← hn.operands, List.map_map]
        exact List.map_congr_left fun x hx => (numberOf_of_placed (hoperands x hx)).symm
      · intro i hi
        rw [hid]
        rw [← Graph.inputs_of_node hnode] at hi
        exact Graph.lt_of_mem_inputs hi

/-- The parts of what has been placed have been placed too, and are read from there. -/
theorem Progress.Numbers.reaches {s : Progress} (hs : s.Numbers l) {e f : Expr} {id : Nat}
    (hf : f.Part l.body) (hid : s.placed.lookup f.id = some id) (he : e.Part f) :
    ∃ k, s.placed.lookup e.id = some k ∧
      Relation.ReflTransGen (fun i j => j ∈ s.graph.inputs i) id k := by
  have hstands := hs.stands f id (.inr hf) hid
  rcases hstands.of_part he with rfl | ⟨g, hg, he⟩
  · exact ⟨id, hid, .refl⟩
  · obtain ⟨j, hj, hinput⟩ := hstands.operand hg
    have hlt := Expr.sizeOf_lt_of_operand hg
    obtain ⟨k, hk, hpath⟩ := hs.reaches ((Expr.part_of_operand hg).trans hf) hj he
    exact ⟨k, hk, hpath.head hinput⟩
termination_by sizeOf f

theorem startWith_numbers {i : Nat} {t : ValueType} {name : String}
    (hparam : l.parameter = .parameter i t name) (hl : l.Identified) :
    (startWith l.parameter t name).Numbers l := by
  have hnone : (⟨.empty, []⟩ : Progress).Numbers l := by
    refine ⟨?_, ?_, ?_, ?_⟩ <;> simp [Progress.Ranged]
  refine hnone.push hl (.inl rfl) rfl (.parameter hparam ?_)
  exact Graph.nodes_add_size (g := .empty) (by simp [parameterNode, nodeOf])

/-- A visit of the body ends with a table that numbers all expressions of the lambda. -/
theorem Visited.numbers_body (hl : l.Identified) {i : Nat} {t : ValueType} {name : String}
    (hparam : l.parameter = .parameter i t name) {s : Progress} {body : Nat}
    (h : Visited l.body (startWith l.parameter t name) body s) :
    s.Numbers l ∧ (∀ e, l.Mentions e → s.placed.lookup e.id = some (s.numberOf e)) ∧
      s.numberOf l.parameter = 0 ∧ s.numberOf l.body = body := by
  obtain ⟨hs, hkeeps, hid⟩ := h.numbers hl hparam (.inr (.self _)) (startWith_numbers hparam hl)
  have hzero : s.placed.lookup l.parameter.id = some 0 :=
    hkeeps _ _ (by rw [startWith, Progress.lookup_push, if_pos rfl]; rfl)
  refine ⟨hs, fun e he => ?_, Progress.numberOf_of_placed hzero, Progress.numberOf_of_placed hid⟩
  rcases he with rfl | he
  · rw [hzero, Progress.numberOf_of_placed hzero]
  · obtain ⟨k, hk, -⟩ := hs.reaches (.self _) hid he
    rw [hk, Progress.numberOf_of_placed hk]

theorem numbers_of_compile (hl : l.Identified) {p : Prototype} (hp : l.compile = .ok p) :
    ∃ s : Progress, s.graph = p.graph ∧ s.Numbers l ∧
      (∀ e, l.Mentions e → s.placed.lookup e.id = some (s.numberOf e)) ∧
      s.numberOf l.parameter = 0 ∧ p.parameter = 0 ∧ s.numberOf l.body = p.body := by
  obtain ⟨i, t, name, s, hparam, hbody, hp⟩ := compile_spec hp
  obtain ⟨hs, hplaced, hzero, hnumber⟩ := hbody.numbers_body hl hparam
  exact ⟨s, by rw [hp], hs, hplaced, hzero, by rw [hp], hnumber⟩

theorem Progress.Stands.type {s : Progress} {e : Expr} {id : Nat} (h : s.Stands l e id) :
    ∃ n, s.graph.nodes[id]? = some n ∧ n.type = e.type := by
  cases h with
  | parameter hparam hnode => exact ⟨_, hnode, rfl⟩
  | operator hnode hn => exact ⟨_, hnode, hn.type⟩

/-- Where a node comes from: it is the parameter's, or it was placed for an expression, and reads nodes
of the types of its operands. -/
theorem origin_of_compile (hl : l.Identified) {p : Prototype} (hp : l.compile = .ok p) {id : Nat}
    {n : Node} (hn : p.graph.nodes[id]? = some n) :
    (n.kind = .parameter ∧ n.type = l.parameter.type) ∨
      ∃ e operands, l.Mentions e ∧ NodeFor e operands n ∧
        ∀ x ∈ operands, l.Mentions x.1 ∧ ∃ m, p.graph.nodes[x.2]? = some m ∧ m.type = x.1.type := by
  obtain ⟨i, t, name, _, hparam, -⟩ := compile_spec hp
  obtain ⟨s, hgraph, hs, -⟩ := numbers_of_compile hl hp
  rw [← hgraph] at hn ⊢
  obtain ⟨e, he, hid⟩ := hs.surjective id (Graph.lt_size_of_node hn)
  cases hs.stands e id he hid with
  | parameter _ hnode =>
      cases hn.symm.trans hnode
      exact .inl ⟨rfl, rfl⟩
  | @operator _ _ operands m hnode hfor hoperands =>
      cases hn.symm.trans hnode
      refine .inr ⟨e, operands, he, hfor, fun x hx => ?_⟩
      have hmentions := hfor.mentions hparam he x hx
      exact ⟨hmentions, (hs.stands x.1 x.2 hmentions (hoperands x hx)).type⟩

theorem body_of_compile (hl : l.Identified) {p : Prototype} (hp : l.compile = .ok p) :
    ∃ n, p.graph.nodes[p.body]? = some n ∧ n.type = l.body.type := by
  obtain ⟨s, hgraph, hs, hplaced, -, -, hbody⟩ := numbers_of_compile hl hp
  have hbody' := hplaced l.body (.inr (.self _))
  rw [hbody] at hbody'
  rw [← hgraph]
  exact (hs.stands _ _ (.inr (.self _)) hbody').type

end Compile

open Compile in
/-- The graph of a lambda is its expression with shared parts drawn once: its nodes are the distinct
expressions, each computing what the expression says from the nodes of the operands. -/
theorem Lambda.nodes_biject_expressions {l : Lambda} (hl : l.Identified) (ht : l.Inferred)
    {p : Prototype} (hp : l.compile = .ok p) :
    ∃ node : Expr → Nat,
      Set.BijOn node {e | l.Mentions e} (Set.Iio p.graph.size) ∧
      (node l.parameter = 0 ∧ p.parameter = 0 ∧ node l.body = p.body) ∧
      (∀ e, l.Mentions e → ∃ n, e.NodeAt node p.graph n) ∧
      ∀ id < p.graph.size, id = p.parameter ∨
        Relation.ReflTransGen (fun i j => j ∈ p.graph.inputs i) p.body id := by
  obtain ⟨s, hgraph, hs, hplaced, hparam, hzero, hbody⟩ := numbers_of_compile hl hp
  rw [← hgraph]
  have hnumber : ∀ id < s.graph.size, ∃ e, l.Mentions e ∧ s.numberOf e = id := by
    intro id hid
    obtain ⟨e, he, hlookup⟩ := hs.surjective id hid
    exact ⟨e, he, Progress.numberOf_of_placed hlookup⟩
  refine ⟨s.numberOf, ⟨fun e he => ?_, fun e he f hf heq => ?_, hnumber⟩, ⟨hparam, hzero, hbody⟩,
    fun e he => (hs.stands e _ he (hplaced e he)).nodeAt (ht e he) rfl, fun id hid => ?_⟩
  · exact hs.ranged _ _ (hplaced e he)
  · have hsame := hplaced f hf
    rw [← heq] at hsame
    exact hl e f he hf (hs.injective _ _ _ (hplaced e he) hsame)
  · obtain ⟨e, he, rfl⟩ := hnumber id hid
    rcases he with rfl | he
    · exact .inl (hparam.trans hzero.symm)
    · obtain ⟨k, hk, hpath⟩ := hs.reaches (.self _) (hplaced _ (.inr (.self _))) he
      rw [hbody, ← Progress.numberOf_of_placed hk] at hpath
      exact .inr hpath

/-- `p => x & !x` for the comparison `x` of `p.age` and `p.boss.age`, which is one expression. -/
def Lambda.ageParadox : Lambda :=
  let person : ValueType := .object "Person" true
  let p : Expr := .parameter 0 person "p"
  let same : Expr := .binary 4 .bool .equal (.member 1 .i32 p "age" "age")
    (.member 3 .i32 (.member 2 person p "boss" "boss") "age" "age")
  ⟨p, .binary 6 .bool .and same (.unary 5 .bool .not same)⟩

theorem Lambda.ageParadox_identified : ageParadox.Identified := by
  intro e f he hf hid
  simp only [Mentions, ageParadox, Expr.part_parameter, Expr.part_member, Expr.part_unary,
    Expr.part_binary, or_assoc] at he hf
  rcases he with rfl | rfl | rfl | rfl | rfl | rfl | rfl | rfl | rfl | rfl | rfl |
      rfl | rfl | rfl | rfl <;>
    rcases hf with rfl | rfl | rfl | rfl | rfl | rfl | rfl | rfl | rfl | rfl | rfl |
      rfl | rfl | rfl | rfl <;>
    first | rfl | cases hid

theorem Lambda.ageParadox_inferred : ageParadox.Inferred := by
  intro e he
  simp only [Mentions, ageParadox, Expr.part_parameter, Expr.part_member, Expr.part_unary,
    Expr.part_binary, or_assoc] at he
  rcases he with rfl | rfl | rfl | rfl | rfl | rfl | rfl | rfl | rfl | rfl | rfl |
      rfl | rfl | rfl | rfl <;>
    simp [Expr.TypeInferred] <;> rfl

/-- Seven expressions make seven nodes, although the comparison occurs twice. -/
theorem Lambda.nodes_of_ageParadox :
    ∃ p : Prototype, ageParadox.compile = .ok p ∧ p.graph.size = 7 ∧
      ∃ node : Expr → Nat, Set.BijOn node {e | ageParadox.Mentions e} (Set.Iio p.graph.size) ∧
        node ageParadox.body = p.body :=
  have hp : ageParadox.compile = .ok (ageParadox.compile.toOption.get rfl) := rfl
  have ⟨node, hnode, ⟨_, _, hbody⟩, _⟩ :=
    nodes_biject_expressions ageParadox_identified ageParadox_inferred hp
  ⟨_, hp, rfl, node, hnode, hbody⟩

end LiveExpr
