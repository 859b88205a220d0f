import LiveExpr.Value.Equality
import Mathlib.Tactic

/-!
Floats that count as the same value stand for the same datum, zeros of either sign apart. Negation,
conversion, truncation and comparison therefore cannot tell them apart.
-/

namespace LiveExpr

/-! ## The data that bit patterns stand for -/

/-- The significand fits its places, and has its leading bit unless the exponent is the least. -/
def Datum.Normal (p : Precision) : Datum → Prop
  | .finite _ m e =>
      m < 2 ^ (p.fractionBits + 1) ∧ p.minExponent ≤ e ∧ (2 ^ p.fractionBits ≤ m ∨ e = p.minExponent)
  | _ => True

/-- The same datum, or zeros of any sign. -/
inductive Datum.Alike : Datum → Datum → Prop
  | refl (d : Datum) : Alike d d
  | zero (s t : Bool) (e f : Int) : Alike (.finite s 0 e) (.finite t 0 f)

theorem Datum.Alike.symm {d d' : Datum} : d.Alike d' → d'.Alike d
  | .refl d => .refl d
  | .zero s t e f => .zero t s f e

theorem Datum.Alike.trans {d d' d'' : Datum} : d.Alike d' → d'.Alike d'' → d.Alike d''
  | .refl _, h => h
  | h@(.zero ..), .refl _ => h
  | .zero s _ e _, .zero _ t _ f => .zero s t e f

/-- A larger exponent would leave the other number a significand with too many places. -/
theorem Datum.Normal.exponent_le {p : Precision} {s t : Bool} {m n : Nat} {e f b : Int}
    (hx : (Datum.finite s m e).Normal p) (hy : (Datum.finite t n f).Normal p) (hb : b ≤ f)
    (h : m * 2 ^ (e - b).toNat = n * 2 ^ (f - b).toNat) : e ≤ f := by
  obtain ⟨-, -, hme⟩ := hx
  obtain ⟨hn, hf, -⟩ := hy
  by_contra hlt
  have hlead : 2 ^ p.fractionBits ≤ m := hme.resolve_right (by omega)
  obtain ⟨k, hk⟩ : ∃ k, (e - b).toNat = (f - b).toNat + (k + 1) := ⟨(e - f).toNat - 1, by omega⟩
  rw [hk, pow_add, ← mul_assoc, mul_right_comm] at h
  have hn_eq : m * 2 ^ (k + 1) = n := Nat.eq_of_mul_eq_mul_right (Nat.two_pow_pos _) h
  have hone : 2 ≤ 2 ^ (k + 1) := by
    have := Nat.one_le_two_pow (n := k)
    omega
  have := Nat.mul_le_mul hlead hone
  rw [hn_eq, ← pow_succ] at this
  omega

/-- A number is written in only one normal way. -/
theorem Datum.Normal.unique {p : Precision} {s t : Bool} {m n : Nat} {e f b : Int}
    (hx : (Datum.finite s m e).Normal p) (hy : (Datum.finite t n f).Normal p) (hbe : b ≤ e) (hbf : b ≤ f)
    (h : m * 2 ^ (e - b).toNat = n * 2 ^ (f - b).toNat) : m = n ∧ e = f := by
  have hef : e = f := le_antisymm (exponent_le hx hy hbf h) (exponent_le hy hx hbe h.symm)
  subst hef
  exact ⟨Nat.eq_of_mul_eq_mul_right (Nat.two_pow_pos _) h, rfl⟩

namespace Binary

variable {p : Precision}

theorem datum_normal (x : Binary p) : x.datum.Normal p := by
  have hfrac : x.bits.toNat % Nat.pow 2 p.fractionBits < 2 ^ p.fractionBits :=
    Nat.mod_lt _ (Nat.two_pow_pos _)
  have hdouble : 2 ^ (p.fractionBits + 1) = 2 ^ p.fractionBits + 2 ^ p.fractionBits := by ring
  have hpow : Nat.pow 2 p.fractionBits = 2 ^ p.fractionBits := rfl
  simp only [datum]
  split
  · split <;> trivial
  · split
    · exact ⟨by omega, le_refl _, Or.inr rfl⟩
    · exact ⟨by omega, by omega, Or.inl (by omega)⟩

theorem sign_mul_eq {s t : Bool} {a b : Nat} (h : sign s * a = sign t * b) :
    a = b ∧ (a ≠ 0 → s = t) := by
  refine ⟨?_, fun ha => ?_⟩
  · cases s <;> cases t <;> simp only [sign, if_true, if_false, Bool.false_eq_true] at h <;> omega
  · cases s <;> cases t <;> simp only [sign, if_true, if_false, Bool.false_eq_true] at h <;>
      first | rfl | omega

/-! ## Sameness is likeness of data -/

theorem numericallyEqual_iff {x y : Binary p} :
    x.numericallyEqual y = true ↔ x.datum ≠ .nan ∧ x.datum.Alike y.datum := by
  have hx := x.datum_normal
  have hy := y.datum_normal
  unfold numericallyEqual compare?
  generalize x.datum = d at *
  generalize y.datum = d' at *
  constructor
  · intro h
    refine ⟨fun hd => by simp [hd] at h, ?_⟩
    cases d with
    | nan => simp at h
    | infinite s =>
        cases d' with
        | nan => simp at h
        | infinite t => cases s <;> cases t <;> first | exact .refl _ | simp [sign] at h
        | finite t n f => cases s <;> simp [sign] at h
    | finite s m e =>
        cases d' with
        | nan => simp at h
        | infinite t => cases t <;> simp [sign] at h
        | finite t n f =>
            simp only [beq_iff_eq, Option.some.injEq, Int.compare_eq_eq] at h
            obtain ⟨habs, hsign⟩ := sign_mul_eq h
            by_cases hm : m = 0
            · subst hm
              have hn : n = 0 := by simpa using habs.symm
              subst hn
              exact .zero s t e f
            · obtain ⟨rfl, rfl⟩ := Datum.Normal.unique hx hy (min_le_left e f) (min_le_right e f) habs
              obtain rfl := hsign (by simp [hm])
              exact .refl _
  · rintro ⟨hne, h⟩
    cases h with
    | refl => cases d <;> simp at hne ⊢
    | zero s t e f => simp

end Binary

theorem Value.sameFloat_iff {p : Precision} {x y : Binary p} :
    sameFloat x y = true ↔ x.datum.Alike y.datum := by
  simp only [sameFloat, dif_pos, Bool.or_eq_true, Bool.and_eq_true, Binary.numericallyEqual_iff, Binary.isNaN,
    decide_eq_true_eq]
  constructor
  · rintro (⟨-, h⟩ | ⟨hx, hy⟩)
    · exact h
    · rw [hx, hy]; exact .refl _
  · intro h
    by_cases hx : x.datum = .nan
    · rw [hx] at h ⊢
      generalize y.datum = d at *
      cases h
      exact Or.inr ⟨rfl, rfl⟩
    · exact Or.inl ⟨hx, h⟩

/-! ## What cannot tell them apart -/

namespace Binary

variable {p : Precision} {x y : Binary p}

theorem datum_ofCode_zero (q : Precision) (s : Bool) :
    (ofCode (p := q) s 0).datum = .finite s 0 q.minExponent := by
  cases q <;> cases s <;> rfl

theorem convert_alike (q : Precision) (h : x.datum.Alike y.datum) :
    (x.convert q).datum.Alike (y.convert q).datum := by
  unfold convert
  generalize x.datum = d at h
  generalize y.datum = d' at h
  cases h with
  | refl => exact .refl _
  | zero s t e f =>
      simp only [ofScaled, if_true, datum_ofCode_zero]
      exact .zero ..

theorem truncate_alike (h : x.datum.Alike y.datum) (lo hi : Int) :
    x.truncate lo hi = y.truncate lo hi := by
  unfold truncate
  generalize x.datum = d at h
  generalize y.datum = d' at h
  cases h with
  | refl => rfl
  | zero s t e f => simp

theorem compare_scaled_zero (s : Bool) (m k : Nat) :
    compare (sign s * ↑(m * 2 ^ k)) 0 = compare (sign s * m) 0 := by
  have hpow : (0 : Int) < 2 ^ k := by positivity
  have hscale : sign s * ↑(m * 2 ^ k) = sign s * m * 2 ^ k := by push_cast; ring
  rw [hscale]
  rcases lt_trichotomy (sign s * (m : Int)) 0 with h | h | h
  · rw [compare_lt_iff_lt.mpr h, compare_lt_iff_lt.mpr (mul_neg_of_neg_of_pos h hpow)]
  · rw [h, zero_mul]
  · rw [compare_gt_iff_gt.mpr h, compare_gt_iff_gt.mpr (mul_pos h hpow)]

/-- The order against a zero does not depend on how the zero is written. -/
theorem compare?_alike_right {x y : Binary p} (z : Binary p) (h : x.datum.Alike y.datum) :
    z.compare? x = z.compare? y := by
  unfold compare?
  generalize z.datum = c
  generalize x.datum = d at h
  generalize y.datum = d' at h
  cases h with
  | refl => rfl
  | zero s t e f =>
      cases c with
      | finite r m i =>
          simp only [zero_mul, Nat.cast_zero, mul_zero, Nat.pow_eq, compare_scaled_zero]
      | _ => rfl

theorem compare?_swap (x y : Binary p) : x.compare? y = (y.compare? x).map Ordering.swap := by
  unfold compare?
  cases x.datum <;> cases y.datum <;>
    simp only [Option.map_none, Option.map_some, Int.compare_swap, min_comm]

theorem compare?_alike {x' y' : Binary p} (hx : x.datum.Alike x'.datum) (hy : y.datum.Alike y'.datum) :
    x.compare? y = x'.compare? y' := by
  rw [compare?_alike_right x hy, compare?_swap x, compare?_alike_right y' hx, ← compare?_swap]

end Binary

def Datum.negate : Datum → Datum
  | .nan => .nan
  | .infinite s => .infinite !s
  | .finite s m e => .finite (!s) m e

namespace Binary

variable {p : Precision}

theorem toNat_signBit (p : Precision) :
    (BitVec.ofNat p.width (Nat.pow 2 (p.width - 1))).toNat = 2 ^ (p.fractionBits + p.exponentBits) := by
  cases p <;> rfl

theorem msb_signBit (p : Precision) :
    (BitVec.ofNat p.width (Nat.pow 2 (p.width - 1))).msb = true := by
  cases p <;> rfl

theorem datum_neg (x : Binary p) : x.neg.datum = x.datum.negate := by
  have hbits : x.neg.bits.toNat = x.bits.toNat ^^^ 2 ^ (p.fractionBits + p.exponentBits) := by
    rw [neg, BitVec.toNat_xor, toNat_signBit]
  have hmsb : x.neg.bits.msb = !x.bits.msb := by
    rw [neg, BitVec.msb_xor, msb_signBit, Bool.xor_true]
  have hfrac : x.neg.bits.toNat % 2 ^ p.fractionBits = x.bits.toNat % 2 ^ p.fractionBits := by
    rw [hbits, Nat.xor_mod_two_pow, pow_add, Nat.mul_mod_right, Nat.xor_zero]
  have hexp : x.neg.bits.toNat / 2 ^ p.fractionBits % 2 ^ p.exponentBits =
      x.bits.toNat / 2 ^ p.fractionBits % 2 ^ p.exponentBits := by
    rw [hbits, Nat.xor_div_two_pow, Nat.xor_mod_two_pow, pow_add,
      Nat.mul_div_cancel_left _ (Nat.two_pow_pos _), Nat.mod_self, Nat.xor_zero]
  simp only [datum, Nat.pow_eq, hfrac, hexp, hmsb]
  split
  · split <;> rfl
  · split <;> rfl

theorem neg_alike {x y : Binary p} (h : x.datum.Alike y.datum) : x.neg.datum.Alike y.neg.datum := by
  rw [datum_neg, datum_neg]
  generalize x.datum = d at h
  generalize y.datum = d' at h
  cases h with
  | refl => exact .refl _
  | zero s t e f => exact .zero ..

end Binary

end LiveExpr
