import LiveExpr.Proofs.Build.Identity
import LiveExpr.Proofs.Live.Soundness
import LiveExpr.Proofs.Live.Valuation
import LiveExpr.Proofs.Typing.Integral

/-!
Operators on integral operands in a live graph. The operands go through a promotion of their types, a
conversion of their values and a kernel on wide words, and what comes out is the operator on the
integers themselves. Two types that no integer type holds together have no operator at all.
-/

namespace LiveExpr

/-- An operand brought to a type of a kind that holds its values is the same integer. -/
theorem Value.recast_isInt {v : Value} {s t : ValueType} {k : IntKind} (hv : v.HasType s)
    (hs : s.isIntegral = true) (hwithin : s.InRange k) (ht : t.nonNullable = .int k) :
    ∃ w, Result.recast s t (some v) = some w ∧ w.IsInt k v.asInt? := by
  unfold Result.recast
  split
  · subst t
    refine ⟨v, rfl, ?_⟩
    obtain rfl | ⟨x, rfl, hx⟩ | ⟨c, rfl, hc⟩ := hv.integral_cases hs
    · exact .null
    · rw [ht] at hx
      exact .int (ValueType.int.inj hx).symm
    · rw [ht] at hc
      cases hc
  · exact ⟨v.convert t, rfl, convert_isInt hv hs hwithin ht⟩

namespace BinaryOp

variable {op : BinaryOp} (hop : op.isSymmetric = true)

include hop

theorem Computes.scalar {m n : Option Int} {r : Value} (h : op.Computes m n r) : r.Scalar := by
  have hbits : ∀ bits, op.bitwise? = some bits → r.Scalar := by
    intro bits hbits
    have hr := h.2 bits hbits
    rcases m with _ | i <;> rcases n with _ | j
    · exact (show r = .null from hr) ▸ .null
    · exact (show r = .null from hr) ▸ .null
    · exact (show r = .null from hr) ▸ .null
    · obtain ⟨x, rfl, -⟩ := hr
      exact .int x
  have hholds : ∀ truth, op.holds? m n = some truth → r.Scalar :=
    fun truth htruth => h.1 truth htruth ▸ .bool truth
  cases op <;> first
    | exact hholds _ rfl
    | exact hbits _ rfl
    | cases hop

/-- An operator on two values is defined for types that are the same up to nullability, or for
references. -/
theorem sameType_of_resultType {s t result : ValueType} (h : op.resultType s t = .ok result) :
    s.nonNullable = t.nonNullable ∨ (s.isReference = true ∧ t.isReference = true) := by
  rw [resultType_eq_ok] at h
  by_contra hne
  obtain ⟨htype, href⟩ := not_or.mp hne
  cases op <;> first
    | (cases hop; done)
    | simp [resultType?, bitwiseResult?, htype, href] at h

/-- On one integer type that promotion leaves alone they are all defined. -/
theorem resultType_of_kind {s t : ValueType} {k : IntKind} (hs : s.nonNullable = .int k)
    (ht : t.nonNullable = .int k) (hself : (ValueType.int k).promote? (.int k) = some (.int k)) :
    ∃ result, op.resultType s t = .ok result := by
  have hordered : (ValueType.int k).isOrdered = true := rfl
  have hintegral : (ValueType.int k).isIntegral = true := rfl
  have hdefined : ∃ result, op.resultType? s t = some result := by
    cases op <;> first
      | (cases hop; done)
      | simp [resultType?, bitwiseResult?, hs, ht, hself, hordered, hintegral]
  obtain ⟨result, hresult⟩ := hdefined
  exact ⟨result, resultType_eq_ok.mpr hresult⟩

theorem promotesOperands_of_isSymmetric : op.promotesOperands = true := by
  cases op <;> first | rfl | cases hop

end BinaryOp

namespace Build

variable {a b : Expr}

theorem typeBeside_of_not_null (ha : a.isNullConstant = false) (b : Expr) :
    typeBeside a b = a.type := by
  rw [typeBeside, ha, Bool.false_and]
  exact if_neg Bool.false_ne_true

theorem operandType_eq {op : BinaryOp} (hop : op.isSymmetric = true)
    (ha : a.isNullConstant = false) (hb : b.isNullConstant = false) :
    operandType op a b = ((a.type.promote? b.type).map
      (·.lifted (a.type.isNullable || b.type.isNullable))).getD a.type := by
  rw [operandType, typeBeside_of_not_null ha, typeBeside_of_not_null hb, commonType?,
    if_pos (op.promotesOperands_of_isSymmetric hop)]

/-- Operands with a common type are both brought to it, nullable if one of them is. It is an integer
type that holds the values of both, and the operator has a kernel for it. -/
theorem integral_operands {op : BinaryOp} (hop : op.isSymmetric = true) (ha : a.type.isIntegral = true)
    (hb : b.type.isIntegral = true) (hna : a.isNullConstant = false) (hnb : b.isNullConstant = false)
    {common : ValueType} (hcommon : a.type.promote? b.type = some common) :
    ∃ k t kernel, (operandType op a b = t ∧ operandType op b a = t) ∧
      (t.nonNullable = .int k ∧ (ValueType.int k).promote? (.int k) = some (.int k)) ∧
      (a.type.InRange k ∧ b.type.InRange k) ∧ BinaryKernel.build op t t = .ok kernel := by
  obtain ⟨k, rfl, hself, hwithin⟩ := ValueType.promote?_integral ha hb hcommon
  have hkind := ValueType.nonNullable_lifted (.int k) (a.type.isNullable || b.type.isNullable)
  obtain ⟨kernel, hk⟩ := (BinaryOp.build_ok_iff hop _ _).mpr (op.resultType_of_kind hop hkind hkind hself)
  refine ⟨k, _, kernel, ⟨?_, ?_⟩, ⟨hkind, hself⟩, hwithin, hk⟩
  · rw [operandType_eq hop hna hnb, hcommon]
    rfl
  · rw [operandType_eq hop hnb hna, ValueType.promote?_comm, hcommon, Bool.or_comm]
    rfl

/-- What is built of operands without a common type is not defined. -/
theorem undefined_of_no_common {op : BinaryOp} (hop : op.isSymmetric = true)
    (ha : a.type.isIntegral = true) (hna : a.isNullConstant = false) (hnb : b.isNullConstant = false)
    (hnone : a.type.promote? b.type = none) (result : ValueType) :
    op.resultType (operandType op a b) (operandType op b a) ≠ .ok result := by
  intro hresult
  rw [operandType_eq hop hna hnb, operandType_eq hop hnb hna, ValueType.promote?_comm b.type,
    hnone] at hresult
  rcases op.sameType_of_resultType hop hresult with hsame | ⟨hreference, -⟩
  · obtain ⟨common, hcommon⟩ := ValueType.promote?_self ha hsame
    cases hnone.symm.trans hcommon
  · cases hreference.symm.trans (ValueType.isReference_of_isIntegral ha)

/-- In a valuation, what is built of operands with a common type is the operator on their integers. -/
theorem integral_result {op : BinaryOp} (hop : op.isSymmetric = true) (ha : a.type.isIntegral = true)
    (hb : b.type.isIntegral = true) (hna : a.isNullConstant = false) (hnb : b.isNullConstant = false)
    {common : ValueType} (hcommon : a.type.promote? b.type = some common) {l : Lambda}
    {val : Expr → Result} (hval : l.Values val) {v w : Value} (hv : a.resultIn val = some v)
    (hw : b.resultIn val = some w) (hvtype : v.HasType a.type) (hwtype : w.HasType b.type) :
    Makes (binary op a b) fun e => e.Part l.body →
      ∃ r, val e == some r ∧ op.Computes v.asInt? w.asInt? r := by
  intro n he
  obtain ⟨k, t, kernel, ⟨hat, hbt⟩, ⟨hkind, hself⟩, ⟨hawithin, hbwithin⟩, hk⟩ :=
    integral_operands hop ha hb hna hnb hcommon
  obtain ⟨v', hv', hvint⟩ := Value.recast_isInt hvtype ha hawithin hkind
  obtain ⟨w', hw', hwint⟩ := Value.recast_isInt hwtype hb hbwithin hkind
  have hbuilt : BinaryKernel.build op (operandType op a b) (operandType op b a) = .ok kernel := by
    rw [hat, hbt, hk]
  have hresult := binary_result hval hbuilt n he
  rw [operatorResult, hat, hbt, typeBeside_of_not_null hna, typeBeside_of_not_null hnb, hv, hw, hv',
    hw'] at hresult
  exact ⟨_, hresult, BinaryKernel.computes hop hkind hkind hself hk hvint hwint⟩

end Build

namespace Live

variable {op : BinaryOp} {a b parameter : Expr} {n : Nat} {S : Set Expr}

/-- On integers and characters of whatever widths and signs: where the types of two operands have a
common type, what is built of the operands compiles when they do, and in every state of a live graph it
is the operator on the two integers, with null standing for none. Where they have none, what is built
does not compile. -/
theorem integers_exact (hop : op.isSymmetric = true) (ha : a.type.isIntegral = true)
    (hb : b.type.isIntegral = true) (hna : a.isNullConstant = false) (hnb : b.isNullConstant = false)
    (hS : Expr.Issued n S) (hparam : parameter ∈ S) (haS : a ∈ S) (hbS : b ∈ S) :
    let e : Lambda := ⟨parameter, (Build.binary op a b n).1⟩
    (a.type.promote? b.type = none → ∃ err, e.compile = .error err) ∧
      ∀ common, a.type.promote? b.type = some common →
        (∃ p, Lambda.compile ⟨parameter, a⟩ = .ok p) → (∃ p, Lambda.compile ⟨parameter, b⟩ = .ok p) →
        ∃ p, e.compile = .ok p ∧
          ∀ (σ : Type) (h : Host σ) mode l, Reached h p mode l →
            ∀ v w, l.resultOf e a = some v → l.resultOf e b = some w →
              v.HasType a.type → w.HasType b.type →
              ∃ r, l.Shows (some r) ∧ op.Computes v.asInt? w.asInt? r := by
  intro e
  have he : e.Identified := (Build.binary_issues op haS hbS).identified hS hparam
  have hcompiles := Lambda.compiles_binary_iff hop hS hparam haS hbS
  constructor
  · intro hnone
    cases hcompile : e.compile with
    | error err => exact ⟨err, rfl⟩
    | ok p =>
        obtain ⟨-, -, result, hresult⟩ := hcompiles.mp ⟨p, hcompile⟩
        exact absurd hresult (Build.undefined_of_no_common hop ha hna hnb hnone result)
  · intro common hcommon hpa hpb
    obtain ⟨k, t, kernel, ⟨hat, hbt⟩, -, -, hk⟩ := Build.integral_operands hop ha hb hna hnb hcommon
    have hdefined := (BinaryOp.build_ok_iff hop t t).mp ⟨kernel, hk⟩
    obtain ⟨p, hp⟩ := hcompiles.mpr ⟨hpa, hpb, by rwa [hat, hbt]⟩
    refine ⟨p, hp, fun σ h mode l hl v w hv hw hvtype hwtype => ?_⟩
    obtain ⟨r, hr, hcomputes⟩ := Build.integral_result hop ha hb hna hnb hcommon (hl.values he hp) hv hw
      hvtype hwtype n (.self _)
    refine ⟨r, hl.shows he hp (fun _ hr' => ?_) hr, hcomputes⟩
    cases hr'
    exact hcomputes.scalar hop

end Live

/-! ## An example -/

/-- All the bits of a number that has no sign. -/
def Expr.allBits : Expr :=
  .constant 3 (.int .u32) (.int (MachineInt.ofInt .u32 4294967295))

theorem Expr.issued_allBits :
    Issued 4 (Insert.insert allBits {x | Lambda.bossAge.Mentions x}) := by
  refine (Lambda.bossAge_identified.issued rfl (n := 3) fun x hx => ?_).insert rfl
    fun x hx => .inl (part_constant.mp hx)
  rcases Live.bossAge_mentions hx with rfl | rfl | rfl <;> decide

/-- `p.boss.age ^ 4294967295` -/
def Lambda.flippedAge : Lambda :=
  ⟨bossAge.parameter, (Build.binary .exclusiveOr bossAge.body .allBits 4).1⟩

def Prototype.flippedAge : Prototype :=
  Lambda.flippedAge.compile.toOption.get rfl

theorem Lambda.compile_flippedAge : flippedAge.compile = .ok .flippedAge := rfl

/-- The age is a signed number of the same width, and is not extended into a sign. -/
theorem Live.flipped_age_exact :
    let h := World.host (World.dispatch World.callDepth) fun _ _ => .deaf
    let l := (adoptBound h .flippedAge .live World.employee World.staff).1
    (∃ r, l.Shows (some r) ∧ BinaryOp.exclusiveOr.Computes (some 40) (some 4294967295) r) ∧
      ∃ x : MachineInt, l.ledger.get l.body = some (.int x) ∧ x.toInt = 4294967255 := by
  intro h l
  have hreached : Reached h .flippedAge .live l := .bind World.employee _ (.adopt World.staff)
  have hop : BinaryOp.exclusiveOr.isSymmetric = true := rfl
  obtain ⟨-, hexact⟩ := integers_exact (a := Lambda.bossAge.body) (b := .allBits) hop rfl rfl rfl rfl
    Expr.issued_allBits (.inr (.inl rfl)) (.inr (.inr (.self _))) (.inl rfl)
  obtain ⟨p, hp, hshows⟩ := hexact (.int .i64) rfl ⟨.bossAge, Lambda.compile_bossAge⟩ ⟨_, rfl⟩
  cases Lambda.compile_flippedAge.symm.trans hp
  have hint : ∀ x : MachineInt, Result.Scalar (some (.int x)) := fun x _ h => Option.some.inj h ▸ .int x
  have hage : l.resultOf .flippedAge Lambda.bossAge.body = some (.i32 40) :=
    (hint _).eq_of_equal (by decide +kernel)
  have hbits : l.resultOf .flippedAge .allBits = some (.int (MachineInt.ofInt .u32 4294967295)) :=
    (hint _).eq_of_equal (by decide +kernel)
  obtain ⟨r, hr, hcomputes⟩ := hshows _ h .live l hreached _ _ hage hbits (.nullable .int) .int
  obtain ⟨x, rfl, hx⟩ := hcomputes.2 .xor rfl
  exact ⟨⟨_, hr, hcomputes⟩, x, hr.1, hx.trans rfl⟩

end LiveExpr
