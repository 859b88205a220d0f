import LiveExpr.Proofs.Build.Coercion
import LiveExpr.Proofs.Numeric.Width
import LiveExpr.Proofs.Typing.Conversion

/-!
Operators on integers of different widths and signs, and on characters. Where two types have a common
one it holds the values of both, so that converting to it changes no number, and what an operator
makes of the converted values is what it is on the integers themselves.
-/

namespace LiveExpr

/-! ## Integral types -/

namespace ValueType

/-- The values of the type, which is integral, are within the range of the kind. -/
def InRange (t : ValueType) (k : IntKind) : Prop :=
  match t.nonNullable with
  | .int own => k.low ≤ own.low ∧ own.high ≤ k.high
  | .char => k.low ≤ 0 ∧ 0x110000 ≤ k.high
  | _ => False

theorem isIntegral_cases {t : ValueType} (h : t.isIntegral = true) :
    (∃ k, t.nonNullable = .int k) ∨ t.nonNullable = .char := by
  unfold isIntegral at h
  split at h
  · exact .inl ⟨_, ‹_›⟩
  · exact .inr ‹_›
  · cases h

theorem promote?_eq (s t : ValueType) (hs : s.nonNullable.isNullable = false)
    (ht : t.nonNullable.isNullable = false) :
    s.promote? t = s.nonNullable.promote? t.nonNullable := by
  unfold promote?
  rw [nonNullable_of_isNullable hs, nonNullable_of_isNullable ht]

theorem isNullable_nonNullable_of_isIntegral {t : ValueType} (h : t.isIntegral = true) :
    t.nonNullable.isNullable = false := by
  obtain ⟨k, hk⟩ | hk := isIntegral_cases h <;> rw [hk] <;> rfl

/-- A common type of integral types is an integer type that promotion leaves alone, and it holds the
values of both. -/
theorem promote?_integral {s t common : ValueType} (hs : s.isIntegral = true) (ht : t.isIntegral = true)
    (h : s.promote? t = some common) :
    ∃ k, common = .int k ∧ (int k).promote? (int k) = some (.int k) ∧ s.InRange k ∧ t.InRange k := by
  rw [promote?_eq s t (isNullable_nonNullable_of_isIntegral hs)
    (isNullable_nonNullable_of_isIntegral ht)] at h
  unfold InRange
  obtain ⟨k, hk⟩ | hk := isIntegral_cases hs <;> obtain ⟨k', hk'⟩ | hk' := isIntegral_cases ht <;>
    rw [hk, hk'] at h <;> simp only [hk, hk']
  · cases k <;> cases k' <;> first | (cases h; exact ⟨_, rfl, rfl, by decide, by decide⟩) | cases h
  · cases k <;> cases h <;> exact ⟨_, rfl, rfl, by decide, by decide⟩
  · cases k' <;> cases h <;> exact ⟨_, rfl, rfl, by decide, by decide⟩
  · cases h
    exact ⟨_, rfl, rfl, by decide, by decide⟩

/-- An integral type has a common one with itself. -/
theorem promote?_self {s t : ValueType} (hs : s.isIntegral = true)
    (hst : s.nonNullable = t.nonNullable) : ∃ common, s.promote? t = some common := by
  have hnull := isNullable_nonNullable_of_isIntegral hs
  rw [promote?_eq s t hnull (hst ▸ hnull), ← hst]
  obtain ⟨k, hk⟩ | hk := isIntegral_cases hs <;> rw [hk]
  · cases k <;> exact ⟨_, rfl⟩
  · exact ⟨_, rfl⟩

theorem isReference_of_isIntegral {t : ValueType} (h : t.isIntegral = true) : t.isReference = false := by
  cases t <;> first | rfl | cases h

end ValueType

/-! ## Integral values -/

/-- The value is the integer as one of the kind, or a null where there is no integer. -/
inductive Value.IsInt (k : IntKind) : Option Int → Value → Prop
  | null : IsInt k none .null
  | int {x : MachineInt} : x.kind = k → IsInt k (some x.toInt) (.int x)

namespace Value

theorem HasType.integral_cases {v : Value} {t : ValueType} (hv : v.HasType t)
    (ht : t.isIntegral = true) : v = .null ∨ (∃ x, v = .int x ∧ t.nonNullable = .int x.kind) ∨
      ∃ c, v = .char c ∧ t.nonNullable = .char := by
  rw [← HasType.nonNullable_iff] at hv
  obtain ⟨k, hk⟩ | hk := ValueType.isIntegral_cases ht <;> rw [hk] at hv ⊢
  · cases hv with
    | null => exact .inl rfl
    | @int x => exact .inr (.inl ⟨x, rfl, rfl⟩)
  · cases hv with
    | null => exact .inl rfl
    | @char c => exact .inr (.inr ⟨c, rfl, rfl⟩)

theorem convert_eq_ofInt {v : Value} {target : ValueType} {k : IntKind}
    (htarget : target.nonNullable = .int k) {n : Int} (hn : v.asInt? = some n) :
    v.convert target = .int (MachineInt.ofInt k n) := by
  have hwidth : target.width? = some k.width := by rw [ValueType.width?, htarget]
  rw [convert_of_asInt? hwidth hn, ofInt, htarget]

/-- Converting a value of an integral type to a kind that holds its values keeps the integer. -/
theorem convert_isInt {v : Value} {s target : ValueType} {k : IntKind} (hv : v.HasType s)
    (hs : s.isIntegral = true) (hwithin : s.InRange k) (htarget : target.nonNullable = .int k) :
    IsInt k v.asInt? (v.convert target) := by
  unfold ValueType.InRange at hwithin
  obtain rfl | ⟨x, rfl, hx⟩ | ⟨c, rfl, hc⟩ := hv.integral_cases hs
  · exact .null
  · rw [hx] at hwithin
    have hkept := MachineInt.toInt_ofInt (hwithin.1.trans x.bounds.1) (x.bounds.2.trans_le hwithin.2)
    rw [convert_eq_ofInt htarget (n := x.toInt) rfl]
    have hint := IsInt.int (k := k) (MachineInt.kind_ofInt k x.toInt)
    rwa [hkept] at hint
  · rw [hc] at hwithin
    have hcode : (c.toNat : Int) < 0x110000 := by
      have hvalid : c.toNat < 0xD800 ∨ 0xDFFF < c.toNat ∧ c.toNat < 0x110000 := c.valid
      omega
    have hkept := MachineInt.toInt_ofInt (hwithin.1.trans (Int.natCast_nonneg _))
      (hcode.trans_le hwithin.2)
    rw [convert_eq_ofInt htarget (n := c.toNat) rfl]
    have hint := IsInt.int (k := k) (MachineInt.kind_ofInt k c.toNat)
    rwa [hkept] at hint

/-! ### Comparing -/

variable {k : IntKind} {m n : Option Int} {v w : Value}

theorem IsInt.looselyEqual_eq (hv : IsInt k m v) (hw : IsInt k n w) :
    v.looselyEqual w = decide (m = n) := by
  cases hv with
  | null => cases hw <;> rfl
  | @int x =>
      cases hw with
      | null => rfl
      | @int y =>
          have hloose : (Value.int x).looselyEqual (.int y) = (x.toInt == y.toInt) := rfl
          rw [hloose]
          simp [beq_eq_decide]

theorem IsInt.order?_eq (hv : IsInt k m v) (hw : IsInt k n w) :
    v.order? w = m.bind fun i => n.map (compare i) := by
  cases hv <;> cases hw <;> rfl

end Value

/-! ## Operators on integers -/

/-- The integer with the bits of two others, and null where one of them is missing. -/
def Bitwise.Gives (bits : Bitwise) (r : Value) : Option Int → Option Int → Prop
  | some i, some j => ∃ x, r = .int x ∧ x.toInt = bits.onIntegers i j
  | _, _ => r = .null

namespace BinaryOp

/-- An ordering of two integers, which does not hold where one of them is missing. -/
def ordered (r : Int → Int → Bool) : Option Int → Option Int → Bool
  | some i, some j => r i j
  | _, _ => false

/-- A comparison of two integers, either of which may be missing. -/
def holds? (op : BinaryOp) (m n : Option Int) : Option Bool :=
  match op with
  | equal => some (m = n)
  | notEqual => some (m ≠ n)
  | lessThan => some (ordered (· < ·) m n)
  | lessThanOrEqual => some (ordered (· ≤ ·) m n)
  | greaterThan => some (ordered (· > ·) m n)
  | greaterThanOrEqual => some (ordered (· ≥ ·) m n)
  | _ => none

def bitwise? : BinaryOp → Option Bitwise
  | and => some .and
  | or => some .or
  | exclusiveOr => some .xor
  | _ => none

/-- What the operator is on two integers, either of which may be missing: a truth value where it
compares, and an integer where it is bitwise. -/
def Computes (op : BinaryOp) (m n : Option Int) (r : Value) : Prop :=
  (∀ truth, op.holds? m n = some truth → r = .bool truth) ∧
    ∀ bits, op.bitwise? = some bits → bits.Gives r m n

/-- No operator both compares and is bitwise. -/
theorem Computes.ofTruth {op : BinaryOp} {m n : Option Int} {truth : Bool}
    (h : op.holds? m n = some truth) : op.Computes m n (.bool truth) := by
  refine ⟨fun truth' h' => congrArg Value.bool (Option.some.inj (h.symm.trans h')), fun bits hbits => ?_⟩
  cases op <;> first
    | cases h; done
    | cases hbits

theorem Computes.ofBits {op : BinaryOp} {m n : Option Int} {bits : Bitwise} {r : Value}
    (h : op.bitwise? = some bits) (hr : bits.Gives r m n) : op.Computes m n r := by
  refine ⟨fun truth htruth => ?_, fun bits' h' => Option.some.inj (h.symm.trans h') ▸ hr⟩
  cases op <;> first
    | cases h; done
    | cases htruth

end BinaryOp

theorem Relation.holds_compare (i j : Int) :
    Relation.lt.holds (compare i j) = decide (i < j) ∧
      Relation.le.holds (compare i j) = decide (i ≤ j) ∧
      Relation.gt.holds (compare i j) = decide (i > j) ∧
      Relation.ge.holds (compare i j) = decide (i ≥ j) := by
  rcases lt_trichotomy i j with h | rfl | h
  · rw [compare_lt_iff_lt.mpr h]
    simp [Relation.holds, h, h.le, h.not_ge, h.not_gt]
  · rw [compare_eq_iff_eq.mpr rfl]
    simp [Relation.holds]
  · rw [compare_gt_iff_gt.mpr h]
    simp [Relation.holds, h, h.le, h.not_ge, h.not_gt]

namespace BinaryKernel

variable {k : IntKind} {m n : Option Int} {v w : Value}

theorem apply_relational (hv : v.IsInt k m) (hw : w.IsInt k n) (r : Relation) :
    (relational r).apply v w = .bool (BinaryOp.ordered (r.holds <| compare · ·) m n) := by
  rw [apply, hv.order?_eq hw]
  cases m <;> cases n <;> rfl

/-- On integers of one kind the bitwise operators are the unbounded ones. -/
theorem apply_bitwise (hv : v.IsInt k m) (hw : w.IsInt k n) (bits : Bitwise) {result : ValueType}
    (hresult : result.nonNullable = .int k) :
    bits.Gives ((bitwise bits result).apply v w) m n := by
  cases hv with
  | null => cases hw <;> rfl
  | @int x hx =>
      cases hw with
      | null => rfl
      | @int y hy =>
          have happly : (bitwise bits result).apply (.int x) (.int y) =
              .ofInt result (bits.onInts x.toInt y.toInt) := rfl
          refine ⟨MachineInt.ofInt k (bits.onInts x.toInt y.toInt), ?_, ?_⟩
          · rw [happly, Value.ofInt, hresult]
          · rw [← hx]
            exact MachineInt.toInt_bitwise bits (hx.trans hy.symm)

/-- Operands of one integer type, nullable or not, that promotion leaves alone. -/
theorem computes {op : BinaryOp} (hop : op.isSymmetric = true) {s t : ValueType}
    (hs : s.nonNullable = .int k) (ht : t.nonNullable = .int k)
    (hself : (ValueType.int k).promote? (.int k) = some (.int k)) {kernel : BinaryKernel}
    (hk : build op s t = .ok kernel) (hv : v.IsInt k m) (hw : w.IsInt k n) :
    op.Computes m n (kernel.apply v w) := by
  have hbitwise : ∀ lift, BinaryOp.bitwiseResult? (.int k) (.int k) lift =
      some ((ValueType.int k).lifted lift) := by
    intro lift
    simp [BinaryOp.bitwiseResult?, hself, ValueType.isIntegral, ValueType.nonNullable]
  obtain ⟨result, hresult, hkernel⟩ := Compile.ok_of_bind hk
  rw [BinaryOp.resultType_eq_ok] at hresult
  have hequal : ∀ negated, (equality negated).apply v w = .bool (decide (m = n) != negated) :=
    fun negated => by rw [apply, hv.looselyEqual_eq hw]
  have hordered := apply_relational hv hw
  have hkept : ∀ bits, op.bitwise? = some bits →
      result.nonNullable = .int k ∧ ofBitwise bits result = bitwise bits result := by
    intro bits hbits
    have htype : result = (ValueType.int k).lifted (s.isNullable || t.isNullable) := by
      cases op <;> cases hbits <;>
        simp only [BinaryOp.resultType?, hs, ht, hbitwise, Option.some.injEq] at hresult <;>
        exact hresult.symm
    have hint : result.nonNullable = .int k := by rw [htype, ValueType.nonNullable_lifted]; rfl
    exact ⟨hint, if_neg (by simp [ValueType.isBoolean, hint])⟩
  have hbits : ∀ bits, op.bitwise? = some bits → op.Computes m n ((ofBitwise bits result).apply v w) := by
    intro bits hop'
    obtain ⟨hint, hbits⟩ := hkept bits hop'
    rw [hbits]
    exact .ofBits hop' (apply_bitwise hv hw bits hint)
  cases op <;> cases hkernel
  case equal | notEqual =>
    rw [hequal]
    exact .ofTruth (by simp [BinaryOp.holds?])
  case and | or | exclusiveOr => exact hbits _ rfl
  case arrayIndex => cases hop
  all_goals
    rw [hordered]
    exact .ofTruth (by simp only [BinaryOp.holds?, Relation.holds_compare])

end BinaryKernel

end LiveExpr
