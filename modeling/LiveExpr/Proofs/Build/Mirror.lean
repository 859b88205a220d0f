import LiveExpr.Proofs.Build.Coercion
import LiveExpr.Proofs.Value.Mirror

/-!
Expressions built with their operands exchanged. The operands are brought to the same types from either
side, and the mirrored operator is defined for them and has a kernel where the operator has. Only where
it has none do the sides tell: a bitwise operator then takes the type of what is on its left.
-/

namespace LiveExpr

namespace BinaryOp

/-- The operator that says the same of exchanged operands. -/
def mirror : BinaryOp → BinaryOp
  | lessThan => greaterThan
  | lessThanOrEqual => greaterThanOrEqual
  | greaterThan => lessThan
  | greaterThanOrEqual => lessThanOrEqual
  | op => op

theorem isSymmetric_mirror (op : BinaryOp) : op.mirror.isSymmetric = op.isSymmetric := by
  cases op <;> rfl

theorem promotesOperands_mirror (op : BinaryOp) :
    op.mirror.promotesOperands = op.promotesOperands := by
  cases op <;> rfl

/-! ## Types and kernels -/

theorem bitwiseResult?_comm (l r : ValueType) (lift : Bool) :
    bitwiseResult? l r lift = bitwiseResult? r l lift := by
  by_cases h : l = r
  · rw [h]
  · unfold bitwiseResult?
    rw [if_pos h, if_pos (Ne.symm h)]

variable {op : BinaryOp} (hop : op.isSymmetric = true)

include hop

theorem resultType?_mirror (s t : ValueType) : op.mirror.resultType? t s = op.resultType? s t := by
  have hsame : decide (t.nonNullable = s.nonNullable) = decide (s.nonNullable = t.nonNullable) := by
    simp only [eq_comm]
  have hordered : (decide (t.nonNullable = s.nonNullable) && t.nonNullable.isOrdered) =
      (decide (s.nonNullable = t.nonNullable) && s.nonNullable.isOrdered) := by
    by_cases h : s.nonNullable = t.nonNullable
    · rw [h]
    · simp [h, Ne.symm h]
  cases op
  case equal | notEqual => simp only [mirror, resultType?, hsame, Bool.and_comm t.isReference]
  case lessThan | lessThanOrEqual | greaterThan | greaterThanOrEqual =>
    simp only [mirror, resultType?, hordered]
  case and | or | exclusiveOr =>
    simp only [mirror, resultType?, bitwiseResult?_comm t.nonNullable, Bool.or_comm t.isNullable]
  all_goals cases hop

theorem resultType_mirror {s t result : ValueType} :
    op.mirror.resultType t s = .ok result ↔ op.resultType s t = .ok result := by
  rw [resultType_eq_ok, resultType_eq_ok, resultType?_mirror hop]

theorem build_mirror {s t : ValueType} {kernel : BinaryKernel}
    (hk : BinaryKernel.build op s t = .ok kernel) :
    BinaryKernel.build op.mirror t s = .ok kernel.mirror ∧ kernel ≠ .index := by
  obtain ⟨result, hresult, hkernel⟩ := Compile.ok_of_bind hk
  have hbitwise : ∀ bits, (BinaryKernel.ofBitwise bits result).mirror = .ofBitwise bits result ∧
      BinaryKernel.ofBitwise bits result ≠ .index := by
    intro bits
    unfold BinaryKernel.ofBitwise
    split <;> exact ⟨rfl, nofun⟩
  rw [← resultType_mirror hop] at hresult
  rw [BinaryKernel.build, hresult]
  cases op <;> cases hkernel
  case and | or | exclusiveOr => exact ⟨congrArg Except.ok (hbitwise _).1.symm, (hbitwise _).2⟩
  case arrayIndex => cases hop
  all_goals exact ⟨rfl, nofun⟩

end BinaryOp

namespace Build

variable (op : BinaryOp) (a b : Expr)

theorem operandType_mirror : operandType op.mirror a b = operandType op a b := by
  rw [operandType, operandType, commonType?, commonType?, op.promotesOperands_mirror]

variable {op : BinaryOp} (hop : op.isSymmetric = true)

include hop

/-- Mirrored, an expression has the type it had; unless it has a bitwise operator that is not defined,
and then it has the type of its left operand. -/
theorem typeOver_mirror (s t : ValueType) : typeOver op.mirror t s = typeOver op s t ∨
    op.isBitwise = true ∧ (∀ result, op.resultType s t ≠ .ok result) ∧
      typeOver op s t = s ∧ typeOver op.mirror t s = t := by
  cases hresult : op.resultType s t with
  | ok result =>
      left
      rw [typeOver, typeOver, hresult, (op.resultType_mirror hop).mpr hresult]
      rfl
  | error err =>
      have hmirror : (op.mirror.resultType t s).toOption = none := by
        cases hmirror : op.mirror.resultType t s with
        | error => rfl
        | ok result => cases hresult.symm.trans ((op.resultType_mirror hop).mp hmirror)
      rw [typeOver, typeOver, hresult, hmirror]
      cases op <;> first
        | cases hop; done
        | exact .inl rfl
        | exact .inr ⟨rfl, nofun, rfl, rfl⟩

end Build

/-! ## Denied equality -/

theorem BinaryOp.resultType_notEqual {s t result : ValueType} :
    notEqual.resultType s t = .ok result ↔ equal.resultType s t = .ok result := by
  rw [resultType_eq_ok, resultType_eq_ok]
  rfl

theorem BinaryOp.build_notEqual {s t : ValueType} {kernel : BinaryKernel}
    (hk : BinaryKernel.build notEqual s t = .ok kernel) :
    kernel = .equality true ∧ BinaryKernel.build equal s t = .ok (.equality false) := by
  obtain ⟨result, hresult, hkernel⟩ := Compile.ok_of_bind hk
  rw [BinaryKernel.build, resultType_notEqual.mp hresult]
  cases hkernel
  exact ⟨rfl, rfl⟩

namespace Build

variable (a b : Expr)

theorem equal_type : Makes (binary .equal a b) fun e => e.type = .bool := by
  intro n
  have hbool : ∀ s t, typeOver .equal s t = .bool := by
    intro s t
    unfold typeOver BinaryOp.resultType BinaryOp.resultType?
    dsimp only
    split_ifs <;> rfl
  rw [binary_type .equal a b n, hbool]

theorem bind_unary_eq (op : UnaryOp) (m : Build Expr) (n : Nat) :
    ((m >>= unary op) n).1 = .unary (m n).2 (typeOn op (m n).1.type) op (m n).1 := rfl

/-- An equality can be denied wherever it can be asked. -/
theorem not_equal_firstError (own n : Nat) :
    ((binary .equal a b >>= unary .not) n).1.firstError own = none ↔
      (binary .equal a b n).1.firstError own = none := by
  have hnot : UnaryOp.not.resultType .bool = .ok .bool := rfl
  rw [bind_unary_eq, Expr.firstError, Expr.kernelError, equal_type a b n]
  simp [Expr.shapeError, UnaryKernel.build, hnot, Except.map]

end Build

end LiveExpr
