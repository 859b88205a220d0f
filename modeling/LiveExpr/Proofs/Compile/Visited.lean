import LiveExpr.Compile
import Mathlib.Tactic

/-!
How an expression comes into a graph: by a rule for every kind of expression that can be compiled, and
by the node it has already. Nodes are only added, so that what has been placed stays where it is.
-/

namespace LiveExpr

/-! ## Adding nodes -/

namespace Graph

/-- The nodes of `g` are the first nodes of `g'`. -/
def Extends (g g' : Graph) : Prop :=
  ∀ (id : Nat) (n : Node), g.nodes[id]? = some n → g'.nodes[id]? = some n

theorem Extends.refl (g : Graph) : Extends g g :=
  fun _ _ hn => hn

theorem Extends.trans {g g' g'' : Graph} (a : Extends g g') (b : Extends g' g'') : Extends g g'' :=
  fun id n hn => b id n (a id n hn)

theorem lt_size_of_node {g : Graph} {id : Nat} {n : Node} (hn : g.nodes[id]? = some n) :
    id < g.size :=
  (Array.getElem?_eq_some_iff.mp hn).1

theorem Extends.size_le {g g' : Graph} (h : Extends g g') : g.size ≤ g'.size := by
  by_contra hlt
  have hg : g'.size < g.size := by omega
  have := lt_size_of_node (h g'.size _ (Array.getElem?_eq_getElem hg))
  omega

theorem nodes_add (g : Graph) (n : Node) :
    (g.add n).nodes = g.nodes.push { n with inputs := n.inputs.filter (· < g.size) } := rfl

theorem nodes_add_of_lt {g : Graph} {id : Nat} (n : Node) (hid : id < g.size) :
    (g.add n).nodes[id]? = g.nodes[id]? := by
  rw [nodes_add, Array.getElem?_push]
  exact if_neg (Nat.ne_of_lt hid)

theorem nodes_add_of_inputs {g : Graph} {n : Node} (hn : ∀ i ∈ n.inputs, i < g.size) :
    (g.add n).nodes = g.nodes.push n := by
  have hinputs : n.inputs.filter (· < g.size) = n.inputs :=
    List.filter_eq_self.mpr fun i hi => decide_eq_true (hn i hi)
  rw [nodes_add, hinputs]

theorem nodes_add_size {g : Graph} {n : Node} (hn : ∀ i ∈ n.inputs, i < g.size) :
    (g.add n).nodes[g.size]? = some n := by
  rw [nodes_add_of_inputs hn]
  exact Array.getElem?_push_size

theorem extends_add (g : Graph) (n : Node) : Extends g (g.add n) := by
  intro id m hm
  rw [nodes_add_of_lt n (lt_size_of_node hm), hm]

theorem inputs_of_node {g : Graph} {id : Nat} {n : Node} (hn : g.nodes[id]? = some n) :
    g.inputs id = n.inputs := by
  rw [inputs, hn, Option.elim_some]

end Graph

namespace Compile

/-! ## The rules of placement -/

def nodeOf (e : Expr) (tag : NodeTag) (typeArgs : List ValueType) (payload : NodePayload)
    (inputs : List Nat) (label : String) : Node :=
  let c := NodeConstructor.build tag typeArgs
  ⟨c.instantiate payload, e.type, c.policy, inputs, label, e.render⟩

def Progress.push (s : Progress) (e : Expr) (n : Node) : Progress :=
  ⟨s.graph.add n, (e.id, s.graph.size) :: s.placed⟩

theorem place_eq (s : Progress) (e : Expr) (tag : NodeTag) (typeArgs : List ValueType)
    (payload : NodePayload) (inputs : List Nat) (label : String) :
    s.place e tag typeArgs payload inputs label =
      (s.graph.size, s.push e (nodeOf e tag typeArgs payload inputs label)) := rfl

inductive NodeFor : Expr → List (Expr × Nat) → Node → Prop
  | constant {i : Nat} {t : ValueType} {v : Value} :
      NodeFor (.constant i t v) [] (nodeOf (.constant i t v) .constant [t] (.constant v) [] v.quoted)
  | member {i k : Nat} {t : ValueType} {target : Expr} {name reads : String} :
      NodeFor (.member i t target name reads) [(target, k)]
        (nodeOf (.member i t target name reads) .memberAccess [target.type, t] (.member name reads)
          [k] ("." ++ name))
  | unary {i k : Nat} {t : ValueType} {op : UnaryOp} {operand : Expr} {kernel : UnaryKernel} :
      supportsUnary op = true → UnaryKernel.build op operand.type t = .ok kernel →
      NodeFor (.unary i t op operand) [(operand, k)]
        (nodeOf (.unary i t op operand) .unaryOp [operand.type, t] (.unary op kernel) [k]
          (unaryLabel op t))
  | binary {i j k : Nat} {t : ValueType} {op : BinaryOp} {left right : Expr} {tag : NodeTag}
      {kernel : BinaryKernel} :
      binaryTag (.binary i t op left right) op left.type right.type = .ok tag →
      BinaryKernel.build op left.type right.type = .ok kernel →
      NodeFor (.binary i t op left right) [(left, j), (right, k)]
        (nodeOf (.binary i t op left right) tag (binaryTypeArgs tag left.type right.type t)
          (.binary op kernel) [j, k] op.symbol)

theorem NodeFor.inputs {e : Expr} {operands : List (Expr × Nat)} {n : Node}
    (hn : NodeFor e operands n) : n.inputs = operands.map (·.2) := by
  cases hn <;> rfl

mutual

/-- A visit finds the node placed before, or places a new one after those of the operands. -/
inductive Visited : Expr → Progress → Nat → Progress → Prop
  | placed {e : Expr} {s : Progress} {id : Nat} : s.placed.lookup e.id = some id → Visited e s id s
  | new {e : Expr} {s s' : Progress} {operands : List (Expr × Nat)} {n : Node} :
      s.placed.lookup e.id = none → VisitedAll operands s s' → NodeFor e operands n →
      Visited e s s'.graph.size (s'.push e n)

inductive VisitedAll : List (Expr × Nat) → Progress → Progress → Prop
  | nil {s : Progress} : VisitedAll [] s s
  | cons {e : Expr} {id : Nat} {rest : List (Expr × Nat)} {s s' s'' : Progress} :
      Visited e s id s' → VisitedAll rest s' s'' → VisitedAll ((e, id) :: rest) s s''

end

theorem ok_of_bind {ε α β : Type} {x : Except ε α} {f : α → Except ε β} {b : β}
    (h : x >>= f = .ok b) : ∃ a, x = .ok a ∧ f a = .ok b := by
  cases x with
  | error => cases h
  | ok a => exact ⟨a, rfl, h⟩

theorem ok_of_kernelFor {κ : Type} {e : Expr} {kernel? : Except TypeError κ} {kernel : κ}
    (h : kernelFor e kernel? = .ok kernel) : kernel? = .ok kernel := by
  cases kernel? with
  | error => cases h
  | ok => simpa [kernelFor, Except.mapError] using h

theorem visit_spec {s s' : Progress} {id : Nat} :
    (e : Expr) → visit e s = .ok (id, s') → Visited e s id s'
  | .parameter .., h | .staticMember .., h | .conditional .., h | .call .., h => by
      unfold visit at h
      split at h
      · cases h; exact .placed ‹_›
      · cases h
  | .constant .., h => by
      unfold visit at h
      split at h
      · cases h; exact .placed ‹_›
      · cases h; exact .new ‹_› .nil .constant
  | .member _ _ target _ _, h => by
      unfold visit at h
      split at h
      · cases h; exact .placed ‹_›
      · obtain ⟨⟨k, s₁⟩, htarget, h⟩ := ok_of_bind h
        cases h
        exact .new ‹_› (.cons (visit_spec target htarget) .nil) .member
  | .unary _ _ op operand, h => by
      unfold visit at h
      split at h
      · cases h; exact .placed ‹_›
      · by_cases hsupports : supportsUnary op = true
        · simp only [hsupports, Bool.not_true, Bool.false_eq_true, if_false] at h
          obtain ⟨⟨k, s₁⟩, hoperand, h⟩ := ok_of_bind h
          obtain ⟨kernel, hkernel, h⟩ := ok_of_bind h
          cases h
          exact .new ‹_› (.cons (visit_spec operand hoperand) .nil)
            (.unary hsupports (ok_of_kernelFor hkernel))
        · simp only [hsupports, Bool.not_false, if_true] at h
          cases h
  | .binary _ _ op left right, h => by
      unfold visit at h
      split at h
      · cases h; exact .placed ‹_›
      · obtain ⟨tag, htag, h⟩ := ok_of_bind h
        obtain ⟨⟨j, s₁⟩, hleft, h⟩ := ok_of_bind h
        obtain ⟨⟨k, s₂⟩, hright, h⟩ := ok_of_bind h
        obtain ⟨kernel, hkernel, h⟩ := ok_of_bind h
        cases h
        exact .new ‹_› (.cons (visit_spec left hleft) (.cons (visit_spec right hright) .nil))
          (.binary htag (ok_of_kernelFor hkernel))

/-! ## What a visit leaves in place -/

def Progress.Ranged (s : Progress) : Prop :=
  ∀ i id, s.placed.lookup i = some id → id < s.graph.size

theorem Progress.size_push (s : Progress) (e : Expr) (n : Node) :
    (s.push e n).graph.size = s.graph.size + 1 :=
  Graph.size_add s.graph n

theorem Progress.lookup_push (s : Progress) (e : Expr) (n : Node) (i : Nat) :
    (s.push e n).placed.lookup i = if i = e.id then some s.graph.size else s.placed.lookup i := by
  rw [push, List.lookup_cons]
  by_cases hi : i = e.id
  · simp [hi]
  · rw [if_neg hi, beq_eq_false_iff_ne.mpr hi]

theorem Progress.Ranged.push {s : Progress} (hs : s.Ranged) (e : Expr) (n : Node) :
    (s.push e n).Ranged := by
  intro i id hid
  rw [lookup_push] at hid
  rw [size_push]
  split at hid
  · cases hid; omega
  · have := hs i id hid
    omega

mutual

theorem Visited.extends {e : Expr} {s s' : Progress} {id : Nat} (h : Visited e s id s') :
    s.graph.Extends s'.graph := by
  match h with
  | .placed _ => exact .refl _
  | .new _ hall _ => exact hall.extends.trans (Graph.extends_add _ _)

theorem VisitedAll.extends {es : List (Expr × Nat)} {s s' : Progress} (h : VisitedAll es s s') :
    s.graph.Extends s'.graph := by
  match h with
  | .nil => exact .refl _
  | .cons hv hall => exact hv.extends.trans hall.extends

end

mutual

theorem Visited.ranged {e : Expr} {s s' : Progress} {id : Nat} (h : Visited e s id s')
    (hs : s.Ranged) : s'.Ranged ∧ id < s'.graph.size := by
  match h with
  | .placed hid => exact ⟨hs, hs _ _ hid⟩
  | .new _ hall _ =>
      refine ⟨(hall.ranged hs).1.push _ _, ?_⟩
      rw [Progress.size_push]
      exact Nat.lt_succ_self _

theorem VisitedAll.ranged {es : List (Expr × Nat)} {s s' : Progress} (h : VisitedAll es s s')
    (hs : s.Ranged) : s'.Ranged ∧ ∀ x ∈ es, x.2 < s'.graph.size := by
  match h with
  | .nil => exact ⟨hs, by simp⟩
  | .cons hv hall =>
      obtain ⟨hs₁, hid⟩ := hv.ranged hs
      obtain ⟨hs', hrest⟩ := hall.ranged hs₁
      refine ⟨hs', fun x hx => ?_⟩
      rcases List.mem_cons.mp hx with rfl | hx
      · exact Nat.lt_of_lt_of_le hid hall.extends.size_le
      · exact hrest x hx

end

theorem NodeFor.inputs_lt {e : Expr} {operands : List (Expr × Nat)} {n : Node} {s s' : Progress}
    (hn : NodeFor e operands n) (hall : VisitedAll operands s s') (hs : s.Ranged) :
    ∀ i ∈ n.inputs, i < s'.graph.size := by
  intro i hi
  rw [hn.inputs, List.mem_map] at hi
  obtain ⟨x, hx, rfl⟩ := hi
  exact (hall.ranged hs).2 x hx

theorem nodes_push {s : Progress} (e : Expr) {n : Node} (hn : ∀ i ∈ n.inputs, i < s.graph.size) :
    (s.push e n).graph.nodes = s.graph.nodes.push n :=
  Graph.nodes_add_of_inputs hn

/-! ## The parameter -/

def parameterNode (e : Expr) (t : ValueType) (name : String) : Node :=
  nodeOf e .parameter [t] .parameter [] name

def startWith (e : Expr) (t : ValueType) (name : String) : Progress :=
  Progress.push ⟨.empty, []⟩ e (parameterNode e t name)

theorem startWith_ranged (e : Expr) (t : ValueType) (name : String) : (startWith e t name).Ranged :=
  Progress.Ranged.push (by simp [Progress.Ranged]) e _

/-- Compiling places the parameter as the node 0 and then visits the body. -/
theorem compile_spec {l : Lambda} {p : Prototype} (h : l.compile = .ok p) :
    ∃ i t name s, l.parameter = .parameter i t name ∧
      Visited l.body (startWith l.parameter t name) p.body s ∧ p = ⟨l, s.graph, 0, p.body⟩ := by
  unfold Lambda.compile at h
  split at h
  · rename_i i t name hparam
    rw [place_eq] at h
    obtain ⟨⟨body, s⟩, hbody, h⟩ := ok_of_bind h
    cases h
    exact ⟨i, t, name, s, hparam, visit_spec l.body hbody, rfl⟩
  · cases h

end Compile

end LiveExpr
