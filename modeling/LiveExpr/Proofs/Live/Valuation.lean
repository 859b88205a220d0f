import LiveExpr.Proofs.Build.Coercion
import LiveExpr.Proofs.Compile.Meaning
import LiveExpr.Proofs.Compile.Numbering
import LiveExpr.Proofs.Live.Reports

/-!
Ways to give every expression a result. The meaning is one; the results that a live graph holds are
another, whatever has been bound, unbound and announced. In both, an operator has what it makes of the
results of its operands, and so has an operator that was built, of the operands it was built of.
-/

namespace LiveExpr

/-! ## Operators on results -/

/-- What a binary operator with this kernel makes of the results of its operands. -/
def BinaryOp.onResults (op : BinaryOp) (booleans : Bool) (kernel : BinaryKernel) :
    Result → Result → Result
  | some a, some b => some (kernel.apply a b)
  | x, y => op.onAbsent booleans x y

theorem BinaryOp.onAbsent_congr (op : BinaryOp) (booleans : Bool) {x x' y y' : Result}
    (hx : x == x') (hy : y == y') : op.onAbsent booleans x y = op.onAbsent booleans x' y' := by
  cases x <;> cases x' <;> simp at hx <;> cases y <;> cases y' <;> simp at hy
  · rfl
  · simp [onAbsent, Value.asBool?_eq_of_equal hy]
  · simp [onAbsent, Value.asBool?_eq_of_equal hx]
  · simp [onAbsent, Value.asBool?_eq_of_equal hx]

theorem BinaryOp.onResults_congr (op : BinaryOp) (booleans : Bool) (kernel : BinaryKernel)
    {x x' y y' : Result} (hx : x == x') (hy : y == y') :
    op.onResults booleans kernel x y == op.onResults booleans kernel x' y' := by
  have habsent := op.onAbsent_congr booleans hx hy
  cases x <;> cases x' <;> simp at hx <;> cases y <;> cases y' <;> simp at hy
  · exact beq_of_eq habsent
  · exact beq_of_eq habsent
  · exact beq_of_eq habsent
  · exact kernel.apply_congr hx hy

/-- In `val` the constants of the lambda have their values, and its operators, where they are defined,
what they make of the results of their operands. -/
structure Lambda.Values (l : Lambda) (val : Expr → Result) : Prop where
  constant : ∀ {i t v}, Expr.Part (.constant i t v) l.body → val (.constant i t v) == some v
  unary : ∀ {i t op operand kernel}, Expr.Part (.unary i t op operand) l.body →
    UnaryKernel.build op operand.type t = .ok kernel →
    val (.unary i t op operand) == Result.mapPresent kernel.apply (val operand)
  binary : ∀ {i t op left right kernel}, Expr.Part (.binary i t op left right) l.body →
    BinaryKernel.build op left.type right.type = .ok kernel →
    val (.binary i t op left right) ==
      op.onResults (left.type.isBoolean && right.type.isBoolean) kernel (val left) (val right)

theorem Lambda.meaning_values (l : Lambda) (read : String → Value → Value) (bound : Value) :
    l.Values (Expr.meaning read bound) where
  constant := fun _ => BEq.rfl
  unary := fun _ hk => beq_of_eq (Expr.meaning_unary hk _)
  binary := by
    intro i t op left right kernel _ hk
    rw [Expr.meaning_binary hk]
    exact BEq.rfl

/-! ## The results in a live graph -/

/-- The node that compiling has placed for the identity of an expression. -/
def Lambda.nodeOf (l : Lambda) (e : Expr) : Nat :=
  match l.parameter with
  | .parameter _ t name =>
    match Compile.visit l.body (Compile.startWith l.parameter t name) with
    | .ok (_, s) => s.numberOf e
    | .error _ => 0
  | _ => 0

namespace Compile

variable {l : Lambda} {p : Prototype}

theorem nodeOf_of_compile (hl : l.Identified) (hp : l.compile = .ok p) :
    ∃ s : Progress, s.graph = p.graph ∧ s.Numbers l ∧
      (∀ e, l.Mentions e → s.placed.lookup e.id = some (l.nodeOf e)) ∧ l.nodeOf l.body = p.body := by
  obtain ⟨i, t, name, -, hparam, -⟩ := compile_spec hp
  rw [Lambda.compile_of_parameter hparam] at hp
  cases hvisit : visit l.body (startWith l.parameter t name) with
  | error err =>
      rw [hvisit] at hp
      cases hp
  | ok found =>
      obtain ⟨body, s⟩ := found
      rw [hvisit] at hp
      cases hp
      have hnode : ∀ e, l.nodeOf e = s.numberOf e := by
        intro e
        unfold Lambda.nodeOf
        rw [hparam] at hvisit ⊢
        simp only [hvisit]
      obtain ⟨hs, hplaced, -, hbody⟩ := (visit_spec l.body hvisit).numbers_body hl hparam
      exact ⟨s, rfl, hs, fun e he => (hplaced e he).trans (by rw [hnode]), (hnode _).trans hbody⟩

theorem Progress.Stands.nodeFor {s : Progress} {e : Expr} {id : Nat} (h : s.Stands l e id)
    (he : e ≠ l.parameter) : ∃ operands n, s.graph.nodes[id]? = some n ∧ NodeFor e operands n ∧
      ∀ x ∈ operands, s.placed.lookup x.1.id = some x.2 := by
  cases h with
  | parameter => exact absurd rfl he
  | operator hnode hn hoperands => exact ⟨_, _, hnode, hn, hoperands⟩

theorem nodeFor_of_compile (hl : l.Identified) (hp : l.compile = .ok p) {e : Expr}
    (he : e.Part l.body) (hne : e ≠ l.parameter) : ∃ operands n,
      p.graph.nodes[l.nodeOf e]? = some n ∧ NodeFor e operands n ∧ ∀ x ∈ operands, x.2 = l.nodeOf x.1 := by
  obtain ⟨s, hgraph, hs, hplaced, -⟩ := nodeOf_of_compile hl hp
  obtain ⟨operands, n, hnode, hn, hoperands⟩ :=
    (hs.stands e _ (.inr he) (hplaced e (.inr he))).nodeFor hne
  refine ⟨operands, n, by rw [← hgraph, hnode], hn, fun x hx => ?_⟩
  have hx' := hplaced x.1 (.inr ((hn.part x hx).trans he))
  rw [hoperands x hx] at hx'
  exact Option.some.inj hx'

end Compile

namespace Live

variable {σ : Type} {h : Host σ} {mode : BindingMode} {e : Lambda} {p : Prototype} {l : Live}

theorem kindAt_isMember (hl : CopyOf p l) {id : Nat} {n : Node} (hn : p.graph.nodes[id]? = some n)
    (hk : n.kind.isMember = false) : (l.kindAt id).any (·.isMember) = false := by
  rw [hl.kindAt, hn]
  cases hm : l.mode <;> cases hkind : n.kind <;>
    simp [BindingMode.adapt, NodeKind.oneTime, NodeKind.isMember, hkind] at hk ⊢

/-- A node that reads no member holds what its rule makes of the results it reads. -/
theorem Reached.result_eq_rule (hp : e.compile = .ok p) (hl : Reached h p mode l) {id : Nat} {n : Node}
    (hn : p.graph.nodes[id]? = some n) (hk : n.kind.isMember = false) :
    l.ledger.get id == n.kind.rule (fun _ v => v) (l.ledger.get id)
      ((n.inputs[0]?).elim none l.ledger.get) ((n.inputs[1]?).elim none l.ledger.get) := by
  obtain ⟨hcopy, -, hsettled⟩ := hl.settled hp
  rw [← Compile.due_of_node hcopy hn]
  exact hsettled id (kindAt_isMember hcopy hn hk) _

/-- The results of a live graph are a valuation of its lambda, whatever it has been through. -/
theorem Reached.values (he : e.Identified) (hp : e.compile = .ok p) (hl : Reached h p mode l) :
    e.Values fun f => l.ledger.get (e.nodeOf f) := by
  obtain ⟨i, t, name, -, hparam, -⟩ := Compile.compile_spec hp
  have hnode := fun {f} (hf : Expr.Part f e.body) (hne : f ≠ e.parameter) =>
    Compile.nodeFor_of_compile he hp hf hne
  refine ⟨fun hf => ?_, @fun i t op operand kernel hf hk => ?_,
    @fun i t op left right kernel hf hk => ?_⟩
  · obtain ⟨operands, n, hn, hfor, -⟩ := hnode hf (by rw [hparam]; simp)
    cases hfor
    exact hl.result_eq_rule hp hn rfl
  · obtain ⟨operands, n, hn, hfor, hnumbers⟩ := hnode hf (by rw [hparam]; simp)
    cases hfor with
    | @unary _ k _ _ _ _ hsupports hk' =>
        cases hk.symm.trans hk'
        have hoperand : k = e.nodeOf operand := hnumbers (operand, k) List.mem_cons_self
        subst hoperand
        exact hl.result_eq_rule hp hn rfl
  · obtain ⟨operands, n, hn, hfor, hnumbers⟩ := hnode hf (by rw [hparam]; simp)
    cases hfor with
    | @binary _ j k _ _ _ _ tag _ htag hk' =>
        cases hk.symm.trans hk'
        have hleft : j = e.nodeOf left := hnumbers (left, j) List.mem_cons_self
        have hright : k = e.nodeOf right :=
          hnumbers (right, k) (List.mem_cons_of_mem _ List.mem_cons_self)
        subst hleft hright
        refine BEq.trans (hl.result_eq_rule hp hn ?_) (beq_of_eq ?_)
        · simp only [Compile.nodeOf, NodeConstructor.instantiate]
          split <;> rfl
        · exact Compile.rule_binary htag _ kernel _ _ _

theorem Reached.nodeOf_body (he : e.Identified) (hp : e.compile = .ok p) (hl : Reached h p mode l) :
    e.nodeOf e.body = l.body := by
  obtain ⟨hcopy, -⟩ := hl.settled hp
  obtain ⟨-, -, -, -, hbody⟩ := Compile.nodeOf_of_compile he hp
  rw [hcopy.body, hbody]

/-- What a bound graph gives back is what its body holds. -/
theorem Reached.root_eq_body (he : e.Identified) (hp : e.compile = .ok p) (hl : Reached h p mode l)
    (hb : l.bound = true) : l.root == l.ledger.get (e.nodeOf e.body) := by
  rw [hl.nodeOf_body he hp]
  rcases hl.rootSettled hp hb with heq | hsame
  · exact beq_of_eq heq
  · exact Result.equal_of_sameAs hsame

end Live

/-! ## Scalars -/

/-- Nulls, booleans and integers are equal to nothing but themselves. -/
inductive Value.Scalar : Value → Prop
  | null : Scalar .null
  | bool (b : Bool) : Scalar (.bool b)
  | int (x : MachineInt) : Scalar (.int x)

def Result.Scalar (r : Result) : Prop :=
  ∀ v, r = some v → v.Scalar

theorem Result.Scalar.eq_of_equal {x y : Result} (hy : y.Scalar) (h : x == y) : x = y := by
  cases x <;> cases y <;> simp at h
  · rfl
  · have hv := hy _ rfl
    cases Value.alike_of_equal h <;> first | rfl | cases hv

namespace Live

variable {σ : Type} {h : Host σ} {mode : BindingMode} {e : Lambda} {p : Prototype} {l : Live}

/-- The body holds the result, and while something is bound it is the result of the whole. -/
def Shows (l : Live) (r : Result) : Prop :=
  l.ledger.get l.body = r ∧ (l.bound = true → l.root = r)

theorem Reached.shows (he : e.Identified) (hp : e.compile = .ok p) (hl : Reached h p mode l)
    {r : Result} (hr : r.Scalar) (hbody : l.ledger.get (e.nodeOf e.body) == r) : l.Shows r := by
  refine ⟨?_, fun hb => hr.eq_of_equal (BEq.trans (hl.root_eq_body he hp hb) hbody)⟩
  rw [← hl.nodeOf_body he hp]
  exact hr.eq_of_equal hbody

end Live

/-! ## What is built -/

/-- The result of an operand. A null constant is the null wherever it is used, even where another one
takes its place. -/
def Expr.resultIn (val : Expr → Result) (e : Expr) : Result :=
  if e.isNullConstant then some .null else val e

/-- The result of an expression in a live graph of the lambda. -/
def Live.resultOf (live : Live) (l : Lambda) (e : Expr) : Result :=
  e.resultIn fun f => live.ledger.get (l.nodeOf f)

/-- The result of an operand of type `s` that is brought to the type `t`. -/
def Result.recast (s t : ValueType) (r : Result) : Result :=
  if s = t then r else Result.mapPresent (·.convert t) r

theorem Result.recast_congr (s t : ValueType) {r r' : Result} (h : r == r') :
    recast s t r == recast s t r' := by
  unfold recast
  split
  · exact h
  · cases r <;> cases r' <;> simp at h
    · rfl
    · exact Value.convert_congr t h

namespace Build

variable {l : Lambda} {val : Expr → Result} {e x : Expr} {s t : ValueType}

theorem Retyped.result (hv : l.Values val) (h : Retyped e s x) (hx : x.Part l.body) :
    val x == e.resultIn val := by
  unfold Expr.resultIn
  cases h with
  | same =>
      split
      · rename_i hnull
        obtain ⟨i, t, rfl⟩ := Expr.eq_of_isNullConstant hnull
        exact hv.constant hx
      · exact BEq.rfl
  | null i hnull =>
      rw [if_pos hnull]
      exact hv.constant hx

theorem Coerced.result (hv : l.Values val) (h : Coerced e s t x)
    (hst : s = t ∨ checkConversion s t = .ok ()) (hx : x.Part l.body) :
    val x == Result.recast s t (e.resultIn val) := by
  unfold Result.recast
  cases h with
  | same hx' heq =>
      rw [if_pos heq]
      exact hx'.result hv hx
  | @converted i y hy hne =>
      have hk : UnaryKernel.build .convert y.type t = .ok (.convert t) := by
        rw [UnaryKernel.build, hy.type, hst.resolve_left hne]
        rfl
      have hoperand := hy.result hv (.trans (.operand _ _ _ (.self _)) hx)
      have hrecast := Result.recast_congr s t hoperand
      rw [Result.recast, Result.recast, if_neg hne, if_neg hne] at hrecast
      rw [if_neg hne]
      exact BEq.trans (hv.unary hx hk) hrecast

/-- What a binary operator makes of the results of the operands it was built of. -/
def operatorResult (op : BinaryOp) (kernel : BinaryKernel) (val : Expr → Result) (l r : Expr) : Result :=
  op.onResults ((operandType op l r).isBoolean && (operandType op r l).isBoolean) kernel
    (Result.recast (typeBeside l r) (operandType op l r) (l.resultIn val))
    (Result.recast (typeBeside r l) (operandType op r l) (r.resultIn val))

theorem unary_result {op : UnaryOp} {kernel : UnaryKernel} (hv : l.Values val)
    (hk : UnaryKernel.build op e.type (typeOn op e.type) = .ok kernel) :
    Makes (unary op e) fun f => f.Part l.body →
      e.Part l.body ∧ val f == Result.mapPresent kernel.apply (val e) :=
  fun _ hf => ⟨.trans (.operand _ _ _ (.self _)) hf, hv.unary hf hk⟩

theorem binary_result {op : BinaryOp} {left right : Expr} {kernel : BinaryKernel}
    (hv : l.Values val)
    (hk : BinaryKernel.build op (operandType op left right) (operandType op right left) = .ok kernel) :
    Makes (binary op left right) fun e => e.Part l.body →
      val e == operatorResult op kernel val left right := by
  intro n he
  obtain ⟨i, x, y, heq, hx, hy⟩ := binary_spec op left right n
  rw [heq] at he ⊢
  have hleft := hx.result hv (checkConversion_operandType op left right)
    (.trans (.left _ _ _ _ (.self _)) he)
  have hright := hy.result hv (checkConversion_operandType op right left)
    (.trans (.right _ _ _ _ (.self _)) he)
  rw [← hx.type, ← hy.type] at hk
  refine BEq.trans (hv.binary he hk) ?_
  rw [hx.type, hy.type]
  exact op.onResults_congr _ kernel hleft hright

end Build

end LiveExpr
