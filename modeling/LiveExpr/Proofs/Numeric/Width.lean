import LiveExpr.Kernel
import Mathlib.Tactic
import Mathlib.Data.Int.Bitwise

/-!
Integers of limited width against the integers they stand for. What fits a width is kept by it, and
the bitwise operators on words are those on the unbounded two's-complement forms: the sign is the bit
that goes on forever.
-/

namespace LiveExpr

/-! ## Bits -/

/-- An integer is given by its two's-complement bits, without a bound on their number. -/
theorem eq_of_testBit_int {m n : Int} (h : ∀ k, m.testBit k = n.testBit k) : m = n := by
  -- far enough to the left only the sign is there
  have hsign : ∀ a b : Nat, ¬ ∀ k, (Int.ofNat a).testBit k = (Int.negSucc b).testBit k := by
    intro a b hall
    have hbit := hall (a + b)
    have hle : 2 ^ a ≤ 2 ^ (a + b) := Nat.pow_le_pow_right (by omega) (by omega)
    have hle' : 2 ^ b ≤ 2 ^ (a + b) := Nat.pow_le_pow_right (by omega) (by omega)
    rw [Int.testBit, Int.testBit, Nat.testBit_lt_two_pow (Nat.lt_of_lt_of_le Nat.lt_two_pow_self hle),
      Nat.testBit_lt_two_pow (Nat.lt_of_lt_of_le Nat.lt_two_pow_self hle')] at hbit
    cases hbit
  cases m with
  | ofNat a =>
      cases n with
      | ofNat b => exact congrArg Int.ofNat (Nat.eq_of_testBit_eq h)
      | negSucc b => exact absurd h (hsign a b)
  | negSucc a =>
      cases n with
      | ofNat b => exact absurd (fun k => (h k).symm) (hsign b a)
      | negSucc b =>
          refine congrArg Int.negSucc (Nat.eq_of_testBit_eq fun k => ?_)
          exact Bool.not_inj (h k)

theorem toInt_of_msb {w : Nat} {x : BitVec w} (hx : x.msb = true) :
    x.toInt = Int.negSucc (~~~x).toNat := by
  rw [BitVec.toInt_eq_msb_cond, if_pos hx, BitVec.toNat_not]
  have := x.isLt
  omega

/-- The bits of a word, and from there on its sign. -/
theorem testBit_toInt {w : Nat} (x : BitVec w) (k : Nat) :
    x.toInt.testBit k = if k < w then x.getLsbD k else x.msb := by
  cases hx : x.msb with
  | false =>
      rw [BitVec.toInt_eq_msb_cond, hx]
      change x.toNat.testBit k = _
      rw [BitVec.testBit_toNat]
      split
      · rfl
      · exact BitVec.getLsbD_of_ge x k (by omega)
  | true =>
      rw [toInt_of_msb hx]
      change (!(~~~x).toNat.testBit k) = _
      rw [BitVec.testBit_toNat, BitVec.getLsbD_not]
      split <;> simp [*]

namespace Bitwise

/-- The operator on unbounded two's-complement integers. -/
def onIntegers : Bitwise → Int → Int → Int
  | and => Int.land
  | or => Int.lor
  | xor => Int.xor

def onWords {w : Nat} : Bitwise → BitVec w → BitVec w → BitVec w
  | and => (· &&& ·)
  | or => (· ||| ·)
  | xor => (· ^^^ ·)

theorem toInt_onWords (op : Bitwise) {w : Nat} (x y : BitVec w) :
    (op.onWords x y).toInt = op.onIntegers x.toInt y.toInt := by
  apply eq_of_testBit_int
  intro k
  cases op with
  | and =>
      rw [onIntegers, Int.testBit_land, testBit_toInt, testBit_toInt, testBit_toInt, onWords]
      split <;> simp
  | or =>
      rw [onIntegers, Int.testBit_lor, testBit_toInt, testBit_toInt, testBit_toInt, onWords]
      split <;> simp
  | xor =>
      rw [onIntegers, Int.testBit_lxor, testBit_toInt, testBit_toInt, testBit_toInt, onWords]
      split <;> simp

theorem toNat_onWords (op : Bitwise) {w : Nat} (x y : BitVec w) :
    ((op.onWords x y).toNat : Int) = op.onIntegers x.toNat y.toNat := by
  cases op <;> rfl

theorem onInts_eq (op : Bitwise) {m n : Int} (hm : (BitVec.ofInt 128 m).toInt = m)
    (hn : (BitVec.ofInt 128 n).toInt = n) : op.onInts m n = op.onIntegers m n := by
  have hwords := op.toInt_onWords (BitVec.ofInt 128 m) (BitVec.ofInt 128 n)
  rw [hm, hn] at hwords
  rw [← hwords]
  cases op <;> rfl

end Bitwise

/-! ## Ranges -/

namespace IntKind

def low (k : IntKind) : Int :=
  if k.signed then -2 ^ (k.width - 1) else 0

def high (k : IntKind) : Int :=
  if k.signed then 2 ^ (k.width - 1) else 2 ^ k.width

end IntKind

namespace MachineInt

theorem bounds (x : MachineInt) : x.kind.low ≤ x.toInt ∧ x.toInt < x.kind.high := by
  obtain ⟨k, bits⟩ := x
  have hlt := bits.isLt
  have hlow := BitVec.le_toInt bits
  have hhigh := BitVec.toInt_lt (x := bits)
  unfold toInt IntKind.low IntKind.high
  split
  · exact ⟨hlow, hhigh⟩
  · exact ⟨Int.natCast_nonneg _, by exact_mod_cast hlt⟩

/-- What is within the range of a kind is kept by it. -/
theorem toInt_ofInt {k : IntKind} {n : Int} (hlow : k.low ≤ n) (hhigh : n < k.high) :
    (ofInt k n).toInt = n := by
  have hwidth : 0 < k.width := by cases k <;> decide
  unfold toInt ofInt
  unfold IntKind.low at hlow
  unfold IntKind.high at hhigh
  dsimp only
  split
  · rename_i hsigned
    rw [if_pos hsigned] at hlow hhigh
    exact BitVec.toInt_ofInt_eq_self hwidth hlow hhigh
  · rename_i hsigned
    rw [if_neg hsigned] at hlow hhigh
    rw [BitVec.toNat_ofInt, Int.emod_eq_of_lt hlow (by exact_mod_cast hhigh), Int.toNat_of_nonneg hlow]

/-- Every kind fits into the words that the bitwise operators work on. -/
theorem toInt_ofInt_128 (x : MachineInt) : (BitVec.ofInt 128 x.toInt).toInt = x.toInt := by
  obtain ⟨hlow, hhigh⟩ := x.bounds
  have hwide : -2 ^ 127 ≤ x.kind.low ∧ x.kind.high ≤ 2 ^ 127 := by cases x.kind <;> decide
  exact BitVec.toInt_ofInt_eq_self (by decide) (hwide.1.trans hlow) (hhigh.trans_le hwide.2)

/-- A bitwise operator on two integers of one kind stays within the kind. -/
theorem toInt_bitwise (op : Bitwise) {x y : MachineInt} (hkind : x.kind = y.kind) :
    (ofInt x.kind (op.onInts x.toInt y.toInt)).toInt = op.onIntegers x.toInt y.toInt := by
  rw [op.onInts_eq x.toInt_ofInt_128 y.toInt_ofInt_128]
  obtain ⟨k, bits⟩ := x
  obtain ⟨_, bits'⟩ := y
  obtain rfl : k = _ := hkind
  have hresult : op.onIntegers (toInt ⟨k, bits⟩) (toInt ⟨k, bits'⟩) =
      toInt ⟨k, op.onWords bits bits'⟩ := by
    unfold toInt
    dsimp only
    split
    · exact (op.toInt_onWords bits bits').symm
    · exact (op.toNat_onWords bits bits').symm
  rw [hresult]
  exact congrArg toInt (ofInt_toInt ⟨k, op.onWords bits bits'⟩)

end MachineInt

end LiveExpr
