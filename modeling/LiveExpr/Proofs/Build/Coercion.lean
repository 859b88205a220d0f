import LiveExpr.Proofs.Build.Identity
import LiveExpr.Proofs.Compile.Grammar
import LiveExpr.Proofs.Typing.HasType

/-!
What a binary operator is built over. A null constant is given the type of the operand beside it, and
operands of different numeric types are converted to their common one. Both follow from the two static
types, in the same way for either side, and neither adds an error: what is built can be compiled when
the operands can and the operator has a kernel for the types they are brought to.
-/

namespace LiveExpr

/-! ## Common types -/

namespace ValueType

theorem promote?_comm (s t : ValueType) : s.promote? t = t.promote? s := by
  unfold promote?
  simp only [Bool.or_comm]

/-- Both operands are numbers, and so is the common type, which is neither nullable nor a reference. -/
theorem promote?_numeric {s t common : ValueType} (h : s.promote? t = some common) :
    s.nonNullable.isNumeric = true ∧ t.nonNullable.isNumeric = true ∧ common.isNumeric = true ∧
      common.isNullable = false ∧ common.isReference = false := by
  unfold promote? at h
  simp only at h
  split at h
  · cases h
  · rename_i hnumeric
    simp only [Bool.or_eq_true, Bool.not_eq_true', not_or, Bool.not_eq_false] at hnumeric
    refine ⟨hnumeric.1, hnumeric.2, ?_⟩
    repeat' split at h
    all_goals cases h
    all_goals exact ⟨rfl, rfl, rfl⟩

theorem nonNullable_of_isNullable {t : ValueType} (ht : t.isNullable = false) : t.nonNullable = t := by
  cases t with
  | nullable => cases ht
  | _ => rfl

theorem nonNullable_toNullable (t : ValueType) : t.toNullable.nonNullable = t.nonNullable := by
  unfold toNullable
  split
  · rfl
  · rename_i h
    rw [Bool.or_eq_true, not_or] at h
    exact (nonNullable_of_isNullable (Bool.eq_false_iff.mpr h.2)).symm

@[simp] theorem nonNullable_lifted (t : ValueType) (lift : Bool) :
    (t.lifted lift).nonNullable = t.nonNullable := by
  unfold lifted
  split
  · exact t.nonNullable_toNullable
  · rfl

end ValueType

theorem ValueType.isNumberLike_of_isNumeric {t : ValueType} (h : t.isNumeric = true) :
    t.isNumberLike = true := by
  cases t <;> first | rfl | exact h

theorem checkConversion_eq (s t : ValueType) :
    checkConversion s t =
      if s.nonNullable = t.nonNullable || (s.nonNullable.isNumberLike && t.nonNullable.isNumberLike) ||
          (s.isReference && t.isReference) then
        .ok ()
      else
        .error (.invalidConversion s t) := rfl

/-- Numbers convert into each other. -/
theorem checkConversion_of_numeric {s t : ValueType} (hs : s.nonNullable.isNumeric = true)
    (ht : t.nonNullable.isNumeric = true) : checkConversion s t = .ok () := by
  rw [checkConversion_eq, ValueType.isNumberLike_of_isNumeric hs, ValueType.isNumberLike_of_isNumeric ht]
  simp

theorem Expr.eq_of_isNullConstant {e : Expr} (h : e.isNullConstant = true) :
    ∃ i t, e = .constant i t .null := by
  unfold isNullConstant at h
  split at h
  · exact ⟨_, _, rfl⟩
  · cases h

namespace Build

/-- The type of an operand with another one beside it, before promotion. -/
def typeBeside (e other : Expr) : ValueType :=
  if e.isNullConstant && !other.isNullConstant then other.type.toNullable else e.type

def commonType? (op : BinaryOp) (s t : ValueType) : Option ValueType :=
  if op.promotesOperands then
    (s.promote? t).map (·.lifted (s.isNullable || t.isNullable))
  else
    none

/-- The type that the operand `e` of an operator is brought to, next to the operand `other`. -/
def operandType (op : BinaryOp) (e other : Expr) : ValueType :=
  (commonType? op (typeBeside e other) (typeBeside other e)).getD (typeBeside e other)

theorem commonType?_comm (op : BinaryOp) (s t : ValueType) :
    commonType? op s t = commonType? op t s := by
  unfold commonType?
  rw [ValueType.promote?_comm, Bool.or_comm]

/-- Next to a common type the operand keeps its own one, or it is converted between numbers. -/
theorem checkConversion_operandType (op : BinaryOp) (e other : Expr) :
    typeBeside e other = operandType op e other ∨
      checkConversion (typeBeside e other) (operandType op e other) = .ok () := by
  unfold operandType
  cases hcommon : commonType? op (typeBeside e other) (typeBeside other e) with
  | none => exact .inl rfl
  | some common =>
      unfold commonType? at hcommon
      split at hcommon
      · obtain ⟨t, ht, rfl⟩ := Option.map_eq_some_iff.mp hcommon
        obtain ⟨hs, -, hnumeric, hnullable, -⟩ := ValueType.promote?_numeric ht
        refine .inr (checkConversion_of_numeric hs ?_)
        rwa [Option.getD_some, ValueType.nonNullable_lifted,
          ValueType.nonNullable_of_isNullable hnullable]
      · cases hcommon

/-! ## What becomes of an operand -/

/-- The operand `e`, given the type `s`. -/
inductive Retyped (e : Expr) (s : ValueType) : Expr → Prop
  | same : e.type = s → Retyped e s e
  | null (i : Nat) : e.isNullConstant = true → Retyped e s (.constant i s .null)

/-- The operand `e`, given the type `s` and brought from there to the type `t`. -/
inductive Coerced (e : Expr) (s t : ValueType) : Expr → Prop
  | same {x : Expr} : Retyped e s x → s = t → Coerced e s t x
  | converted (i : Nat) {x : Expr} : Retyped e s x → s ≠ t → Coerced e s t (.unary i t .convert x)

variable {e x y l r : Expr} {s t : ValueType}

theorem Retyped.type (h : Retyped e s x) : x.type = s := by
  cases h with
  | same ht => exact ht
  | null => rfl

theorem Coerced.type (h : Coerced e s t x) : x.type = t := by
  cases h with
  | same hx hst => rw [hx.type, hst]
  | converted => rfl

/-- Nothing but a null constant is replaced. -/
theorem Retyped.part (h : Retyped e s x) (he : e.isNullConstant = false) : e.Part x := by
  cases h with
  | same => exact .self e
  | null i hnull => cases hnull.symm.trans he

theorem Coerced.part (h : Coerced e s t x) (he : e.isNullConstant = false) : e.Part x := by
  cases h with
  | same hx => exact hx.part he
  | converted i hx => exact .operand i t .convert (hx.part he)

theorem adoptType_retypes (l r : Expr) :
    Makes (adoptType l r) fun (x, y) => Retyped l (typeBeside l r) x ∧ Retyped r (typeBeside r l) y := by
  unfold adoptType typeBeside
  cases hl : l.isNullConstant <;> cases hr : r.isNullConstant
  · exact .pure ⟨.same rfl, .same rfl⟩
  · exact fun i => ⟨.same rfl, .null i hr⟩
  · exact fun i => ⟨.null i hl, .same rfl⟩
  · exact .pure ⟨.same rfl, .same rfl⟩

theorem widen_coerces (hx : Retyped e s x) (t : ValueType) : Makes (widen x t) (Coerced e s t) := by
  unfold widen
  rw [hx.type]
  split
  · exact .pure (.same hx ‹_›)
  · exact fun i => .converted i hx ‹_›

theorem coerceOperands_coerces (op : BinaryOp) (l r : Expr) :
    Makes (coerceOperands op l r) fun (x, y) =>
      Coerced l (typeBeside l r) (operandType op l r) x ∧
        Coerced r (typeBeside r l) (operandType op r l) y := by
  refine (adoptType_retypes l r).bind fun (x, y) ⟨hx, hy⟩ => ?_
  have hkept : commonType? op (typeBeside l r) (typeBeside r l) = none →
      Coerced l (typeBeside l r) (operandType op l r) x ∧
        Coerced r (typeBeside r l) (operandType op r l) y := by
    intro hnone
    constructor
    · exact .same hx (by rw [operandType, hnone, Option.getD_none])
    · exact .same hy (by rw [operandType, commonType?_comm, hnone, Option.getD_none])
  dsimp only
  rw [hx.type, hy.type]
  split
  · rename_i hop
    refine .pure (hkept ?_)
    rw [commonType?, if_neg (by simpa using hop)]
  · rename_i hop
    have hop : op.promotesOperands = true := by simpa using hop
    split
    · rename_i hnone
      refine .pure (hkept ?_)
      rw [commonType?, if_pos hop, hnone, Option.map_none]
    · rename_i common hsome
      have hcommon : commonType? op (typeBeside l r) (typeBeside r l) =
          some (common.lifted ((typeBeside l r).isNullable || (typeBeside r l).isNullable)) := by
        rw [commonType?, if_pos hop, hsome, Option.map_some]
      rw [operandType, operandType, commonType?_comm op (typeBeside r l), hcommon, Option.getD_some,
        Option.getD_some]
      exact (widen_coerces hx _).bind fun _ hx' => (widen_coerces hy _).bind fun _ hy' =>
        .pure ⟨hx', hy'⟩

/-- The type of an operator over operands of these types, whether it is defined for them or not. -/
def typeOver (op : BinaryOp) (s t : ValueType) : ValueType :=
  (op.resultType s t).toOption.getD (fallbackType op s)

/-- The type of a unary operator on an operand of this type, likewise. -/
def typeOn (op : UnaryOp) (s : ValueType) : ValueType :=
  (op.resultType s).toOption.getD s

theorem unary_eq (op : UnaryOp) (e : Expr) (n : Nat) :
    (unary op e n).1 = .unary n (typeOn op e.type) op e := rfl

/-- A binary operator is built over its coerced operands, with the type inferred for them. -/
theorem binary_spec (op : BinaryOp) (l r : Expr) :
    Makes (binary op l r) fun e => ∃ i x y,
      e = .binary i (typeOver op (operandType op l r) (operandType op r l)) op x y ∧
        Coerced l (typeBeside l r) (operandType op l r) x ∧
        Coerced r (typeBeside r l) (operandType op r l) y :=
  (coerceOperands_coerces op l r).bind fun (x, y) ⟨hx, hy⟩ i =>
    ⟨i, x, y, by rw [← hx.type, ← hy.type]; rfl, hx, hy⟩

theorem binary_type (op : BinaryOp) (l r : Expr) : Makes (binary op l r) fun e =>
    e.type = typeOver op (operandType op l r) (operandType op r l) := by
  intro n
  obtain ⟨i, x, y, he, -, -⟩ := binary_spec op l r n
  rw [he]
  rfl

/-! ## Errors -/

variable {own : Nat}

theorem Retyped.firstError (h : Retyped e s x) : x.firstError own = none ↔ e.firstError own = none := by
  cases h with
  | same => rfl
  | null i he =>
      obtain ⟨j, t, rfl⟩ := Expr.eq_of_isNullConstant he
      exact ⟨fun _ => rfl, fun _ => rfl⟩

/-- Coercing an operand neither adds an error to it nor takes one away. -/
theorem Coerced.firstError (h : Coerced e s t x) (hst : s = t ∨ checkConversion s t = .ok ()) :
    x.firstError own = none ↔ e.firstError own = none := by
  cases h with
  | same hx => exact hx.firstError
  | converted i hx hne =>
      have hcheck := hst.resolve_left hne
      rw [← hx.firstError, Expr.firstError, Expr.shapeError, Expr.kernelError, UnaryKernel.build,
        hx.type, hcheck]
      simp [Except.map]

end Build

theorem Lambda.compiles_iff {l : Lambda} (hl : l.Identified) {own : Nat} {t : ValueType} {name : String}
    (hparam : l.parameter = .parameter own t name) :
    (∃ p, l.compile = .ok p) ↔ l.body.firstError own = none := by
  have hends := Lambda.compile_firstError hl
  rw [← Lambda.firstError_of_parameter hparam]
  cases hfirst : l.firstError with
  | none =>
      rw [hfirst] at hends
      exact ⟨fun _ => rfl, fun _ => hends⟩
  | some err =>
      rw [hfirst] at hends
      simp [hends.1]

/-- Lambdas of one parameter compile alike when there is an error in both bodies or in neither. -/
theorem Lambda.compiles_congr {e e' : Lambda} (he : e.Identified) (he' : e'.Identified)
    (hparam : e.parameter = e'.parameter)
    (herror : ∀ own, e.body.firstError own = none ↔ e'.body.firstError own = none) :
    (∃ p, e.compile = .ok p) ↔ ∃ p', e'.compile = .ok p' := by
  constructor
  · rintro ⟨p, hp⟩
    obtain ⟨own, t, name, -, hown, -⟩ := Compile.compile_spec hp
    rw [compiles_iff he' (hparam ▸ hown), ← herror, ← compiles_iff he hown]
    exact ⟨p, hp⟩
  · rintro ⟨p, hp⟩
    obtain ⟨own, t, name, -, hown, -⟩ := Compile.compile_spec hp
    rw [compiles_iff he (hparam ▸ hown), herror, ← compiles_iff he' hown]
    exact ⟨p, hp⟩

namespace BinaryOp

def isComparison (op : BinaryOp) : Bool :=
  op = equal || op = notEqual || op.isRelational

def isBitwise : BinaryOp → Bool
  | and | or | exclusiveOr => true
  | _ => false

/-- The operators on two values of which neither is looked into: the comparisons, and the bitwise ones
with their forms on booleans. -/
def isSymmetric (op : BinaryOp) : Bool :=
  op.isComparison || op.isBitwise

/-- There is a kernel where the operator is defined. -/
theorem build_ok_iff {op : BinaryOp} (hop : op.isSymmetric = true) (s t : ValueType) :
    (∃ kernel, BinaryKernel.build op s t = .ok kernel) ↔ ∃ result, op.resultType s t = .ok result := by
  unfold BinaryKernel.build
  cases op.resultType s t with
  | error cause => simp [bind, Except.bind]
  | ok result =>
      refine ⟨fun _ => ⟨result, rfl⟩, fun _ => ?_⟩
      cases op <;> first | exact ⟨_, rfl⟩ | cases hop

end BinaryOp

open Build in
/-- What is built of two operands has an error exactly where one of them has, or where the operator is
not defined for the types they are brought to. -/
theorem Build.binary_firstError {op : BinaryOp} (hop : op.isSymmetric = true) (l r : Expr) (own : Nat) :
    Makes (binary op l r) fun e => e.firstError own = none ↔
      l.firstError own = none ∧ r.firstError own = none ∧
        ∃ result, op.resultType (operandType op l r) (operandType op r l) = .ok result := by
  intro n
  obtain ⟨i, x, y, he, hx, hy⟩ := binary_spec op l r n
  have hshape : ∀ t, (Expr.binary i t op x y).shapeError own = none := by
    intro t
    cases op <;> first | rfl | cases hop
  have hkernel : ∀ t, (Expr.binary i t op x y).kernelError = none ↔
      ∃ result, op.resultType (operandType op l r) (operandType op r l) = .ok result := by
    intro t
    rw [← BinaryOp.build_ok_iff hop, Expr.kernelError, hx.type, hy.type]
    cases BinaryKernel.build op (operandType op l r) (operandType op r l) <;> simp
  rw [he]
  simp only [Expr.firstError, Option.or_eq_none_iff, hshape, hkernel, true_and, and_assoc]
  rw [hx.firstError (checkConversion_operandType op l r),
    hy.firstError (checkConversion_operandType op r l)]

/-- So what is built compiles where the operands do and the operator is defined. -/
theorem Lambda.compiles_binary_iff {op : BinaryOp} (hop : op.isSymmetric = true) {n : Nat} {S : Set Expr}
    {parameter l r : Expr} (hS : Expr.Issued n S) (hparam : parameter ∈ S) (hl : l ∈ S) (hr : r ∈ S) :
    (∃ p, compile ⟨parameter, (Build.binary op l r n).1⟩ = .ok p) ↔
      (∃ p, compile ⟨parameter, l⟩ = .ok p) ∧ (∃ p, compile ⟨parameter, r⟩ = .ok p) ∧
        ∃ result, op.resultType (Build.operandType op l r) (Build.operandType op r l) = .ok result := by
  by_cases hown : ∃ own t name, parameter = .parameter own t name
  · obtain ⟨own, t, name, hown⟩ := hown
    have hbuilt := (Build.binary_issues op hl hr).identified hS hparam
    have hleft : Identified ⟨parameter, l⟩ := hS.identified hparam hl
    have hright : Identified ⟨parameter, r⟩ := hS.identified hparam hr
    rw [compiles_iff hbuilt hown, compiles_iff hleft hown, compiles_iff hright hown]
    exact Build.binary_firstError hop l r own n
  · have hnone : ∀ e, ¬ ∃ p, compile ⟨parameter, e⟩ = .ok p := by
      rintro e ⟨p, hp⟩
      obtain ⟨own, t, name, -, hparam', -⟩ := Compile.compile_spec hp
      exact hown ⟨own, t, name, hparam'⟩
    simp only [hnone, false_and]

end LiveExpr
