import LiveExpr.Proofs.Typing.HasType
import Mathlib.Data.Int.ModEq

/-!
Conversions between types that hold integers. A conversion takes the integer behind a value modulo two
to the width of its target, whatever the signs of the two types, so that a detour by a type that is at
least as wide changes nothing. Only a character may be missing, where its code is none.
-/

namespace LiveExpr

/-- Words are given by integers up to a multiple of two to their width. -/
theorem ofInt_eq_of_modEq {w : Nat} {m n : Int} (h : m ≡ n [ZMOD 2 ^ w]) :
    BitVec.ofInt w m = BitVec.ofInt w n := by
  apply BitVec.eq_of_toNat_eq
  rw [BitVec.toNat_ofInt, BitVec.toNat_ofInt]
  push_cast
  rw [h]

/-- The width of the integers behind the values of a type: members of an enumeration are held in 64
bits, and the codes of characters in 32. -/
def ValueType.width? (t : ValueType) : Option Nat :=
  match t.nonNullable with
  | .int k => some k.width
  | .enum _ => some 64
  | .char => some 32
  | _ => none

theorem ValueType.width?_cases {t : ValueType} {w : Nat} (hw : t.width? = some w) :
    (∃ k, t.nonNullable = .int k ∧ w = k.width) ∨ (∃ name, t.nonNullable = .enum name ∧ w = 64) ∨
      (t.nonNullable = .char ∧ w = 32) := by
  unfold width? at hw
  split at hw
  · rename_i k hk
    exact .inl ⟨k, hk, (Option.some.inj hw).symm⟩
  · rename_i name hname
    exact .inr (.inl ⟨name, hname, (Option.some.inj hw).symm⟩)
  · rename_i hchar
    exact .inr (.inr ⟨hchar, (Option.some.inj hw).symm⟩)
  · cases hw

theorem MachineInt.toInt_ofInt_modEq (k : IntKind) (n : Int) :
    (ofInt k n).toInt ≡ n [ZMOD 2 ^ k.width] := by
  unfold toInt ofInt
  dsimp only
  split
  · rw [BitVec.toInt_ofInt]
    exact_mod_cast Int.bmod_emod
  · rw [BitVec.toNat_ofInt, Int.toNat_of_nonneg (Int.emod_nonneg _ (by positivity))]
    exact_mod_cast Int.mod_modEq n _

namespace Value

variable {v x : Value} {t : ValueType} {w : Nat} {m n : Int}

/-! ## The value of a type for an integer -/

theorem charOfInt?_congr (h : m ≡ n [ZMOD 2 ^ 32]) : charOfInt? m = charOfInt? n := by
  unfold charOfInt?
  rw [ofInt_eq_of_modEq h]

theorem ofInt_congr (hw : t.width? = some w) (h : m ≡ n [ZMOD 2 ^ w]) : ofInt t m = ofInt t n := by
  unfold ofInt
  obtain ⟨k, ht, rfl⟩ | ⟨name, ht, rfl⟩ | ⟨ht, rfl⟩ := ValueType.width?_cases hw <;> simp only [ht]
  · rw [MachineInt.ofInt, MachineInt.ofInt, ofInt_eq_of_modEq h]
  · rw [ofInt_eq_of_modEq h]
  · rw [charOfInt?_congr h]

theorem charOfInt?_eq_some {c : Char} : charOfInt? n = some c ↔ (c.toNat : Int) = n % 2 ^ 32 := by
  have hcode : ((BitVec.ofInt 32 n).toNat : Int) = n % 2 ^ 32 := by
    rw [BitVec.toNat_ofInt, Int.toNat_of_nonneg (Int.emod_nonneg _ (by decide))]
    rfl
  rw [← hcode, Nat.cast_inj]
  unfold charOfInt?
  generalize (BitVec.ofInt 32 n).toNat = code
  simp only
  split
  · rename_i hvalid
    rw [Option.some.injEq]
    constructor
    · rintro rfl
      rw [Char.ofNat, dif_pos hvalid]
      rfl
    · rintro rfl
      exact Char.ofNat_toNat c
  · rename_i hinvalid
    refine ⟨nofun, ?_⟩
    rintro rfl
    exact absurd c.valid hinvalid

theorem asInt?_ofInt (hw : t.width? = some w) (ht : t.nonNullable ≠ .char) (n : Int) :
    ∃ m, (ofInt t n).asInt? = some m ∧ m ≡ n [ZMOD 2 ^ w] := by
  unfold ofInt
  obtain ⟨k, hk, rfl⟩ | ⟨name, hname, rfl⟩ | ⟨hchar, -⟩ := ValueType.width?_cases hw
  · rw [hk]
    exact ⟨_, rfl, MachineInt.toInt_ofInt_modEq k n⟩
  · rw [hname]
    refine ⟨_, rfl, ?_⟩
    rw [BitVec.toInt_ofInt]
    exact Int.bmod_emod
  · exact absurd hchar ht

theorem toIntegral?_of_asInt? (h : v.asInt? = some n) : v.toIntegral? = some n := by
  cases v <;> first | exact h | cases h

/-- A value of a type that holds integers is null, or the one that the type has for its integer. -/
theorem HasType.integer_cases (hx : x.HasType t) (hw : t.width? = some w) :
    x = .null ∨ ∃ n, x.asInt? = some n ∧ Value.ofInt t n = x := by
  rw [← HasType.nonNullable_iff] at hx
  unfold Value.ofInt
  obtain ⟨k, hk, -⟩ | ⟨name, hname, -⟩ | ⟨hchar, -⟩ := ValueType.width?_cases hw
  · rw [hk] at hx ⊢
    cases hx with
    | null => exact .inl rfl
    | @int y => exact .inr ⟨_, rfl, congrArg Value.int y.ofInt_toInt⟩
  · rw [hname] at hx ⊢
    cases hx with
    | null => exact .inl rfl
    | @enum _ d => exact .inr ⟨_, rfl, congrArg (Value.enum name) BitVec.ofInt_toInt⟩
  · rw [hchar] at hx ⊢
    cases hx with
    | null => exact .inl rfl
    | @char c =>
        have hlt : (c.toNat : Int) < 2 ^ 32 := by exact_mod_cast c.val.toBitVec.isLt
        have hcode : charOfInt? c.toNat = some c :=
          charOfInt?_eq_some.mpr (Int.emod_eq_of_lt (Int.natCast_nonneg _) hlt).symm
        exact .inr ⟨_, rfl, by simp only [hcode, Option.map_some, Option.getD_some]⟩

theorem ofInt_asInt? (hw : t.width? = some w) (hx : x.HasType t) (hn : x.asInt? = some n) :
    ofInt t n = x := by
  obtain rfl | ⟨n', hn', heq⟩ := hx.integer_cases hw
  · cases hn
  · rwa [Option.some.inj (hn.symm.trans hn')]

/-! ## Conversions -/

/-- Whether a conversion to the type goes through an integer. -/
def ofIntegers (t : ValueType) : Bool :=
  t.nonNullable.isIntegral || t.nonNullable matches .enum _

theorem ofIntegers_of_width? (hw : t.width? = some w) :
    ofIntegers t = true ∧ t.isFloat = false ∧ t.nonNullable.nonNullable = t.nonNullable := by
  unfold ofIntegers ValueType.isFloat
  obtain ⟨k, ht, -⟩ | ⟨name, ht, -⟩ | ⟨ht, -⟩ := ValueType.width?_cases hw <;> rw [ht] <;>
    exact ⟨rfl, rfl, rfl⟩

theorem width?_of_ofIntegers (h : ofIntegers t = true) : ∃ w, t.nonNullable.width? = some w := by
  unfold ofIntegers ValueType.isIntegral at h
  unfold ValueType.width?
  cases hinner : t.nonNullable with
  | nullable inner =>
      rw [hinner] at h
      cases inner <;> first | exact ⟨_, rfl⟩ | cases h
  | _ =>
      rw [hinner] at h
      first | exact ⟨_, rfl⟩ | cases h

theorem convert_null (t : ValueType) : Value.null.convert t = .null :=
  rfl

/-- A conversion to a type that holds no floats leaves every value as it is, or makes the value that the
type has for the integer in it, and null where there is none. -/
theorem convert_eq (ht : t.isFloat = false) (v : Value) :
    v.convert t =
      if ofIntegers t then (v.toIntegral?.map (ofInt t.nonNullable)).getD .null else v := by
  have hreference : t.isReference = true → ofIntegers t = false := by
    intro href
    cases t <;> first | rfl | cases href
  unfold ValueType.isFloat at ht
  cases hv : v.isNull with
  | true =>
      have hnull : v = .null := by cases v <;> first | rfl | cases hv
      subst hnull
      rw [convert_null]
      exact (ite_self _).symm
  | false =>
      rw [convert, hv]
      cases href : t.isReference with
      | true =>
          rw [hreference href]
          rfl
      | false =>
          unfold ofIntegers
          cases hinner : t.nonNullable <;> rw [hinner] at ht <;> first | rfl | cases ht

theorem convert_of_width? (hw : t.width? = some w) (v : Value) :
    v.convert t = (v.toIntegral?.map (ofInt t)).getD .null := by
  obtain ⟨hint, hfloat, hinner⟩ := ofIntegers_of_width? hw
  have hsame : ofInt t.nonNullable = ofInt t := by
    funext n
    rw [ofInt, hinner, ← ofInt]
  rw [convert_eq hfloat, if_pos hint, hsame]

theorem convert_of_asInt? (hw : t.width? = some w) (hn : v.asInt? = some n) :
    v.convert t = ofInt t n := by
  rw [convert_of_width? hw, toIntegral?_of_asInt? hn]
  rfl

/-- Converting to an integer or enumeration type keeps the integer modulo two to the width, and there is
one such value. -/
theorem convert_eq_iff (hw : t.width? = some w) (ht : t.nonNullable ≠ .char) (hn : v.asInt? = some n) :
    v.convert t = x ↔ x.HasType t ∧ ∃ m, x.asInt? = some m ∧ m ≡ n [ZMOD 2 ^ w] := by
  rw [convert_of_asInt? hw hn]
  constructor
  · rintro rfl
    exact ⟨.ofInt t n, asInt?_ofInt hw ht n⟩
  · rintro ⟨hx, m, hm, hmod⟩
    rw [← ofInt_congr hw hmod]
    exact ofInt_asInt? hw hx hm

/-- Converting to a character takes the one with that code modulo two to 32, if there is one. -/
theorem convert_char_iff (ht : t.nonNullable = .char) (hn : v.asInt? = some n) :
    (∀ c : Char, v.convert t = .char c ↔ (c.toNat : Int) = n % 2 ^ 32) ∧
      (v.convert t = .null ↔ ∀ c : Char, (c.toNat : Int) ≠ n % 2 ^ 32) := by
  have hw : t.width? = some 32 := by rw [ValueType.width?, ht]
  have hmade : v.convert t = ((charOfInt? n).map char).getD .null := by
    rw [convert_of_asInt? hw hn, ofInt, ht]
  simp only [hmade, ne_eq, ← charOfInt?_eq_some]
  cases charOfInt? n <;> simp

/-- A second conversion finds the value as it is to be. -/
theorem convert_convert_self (ht : t.isFloat = false) (v : Value) :
    (v.convert t).convert t = v.convert t := by
  rw [convert_eq ht (v.convert t)]
  split
  · rename_i hint
    obtain ⟨w, hw⟩ := width?_of_ofIntegers hint
    rw [convert_eq ht, if_pos hint]
    cases v.toIntegral? with
    | none => rfl
    | some n =>
        obtain hnull | ⟨m, hm, heq⟩ := (HasType.ofInt t.nonNullable n).integer_cases hw
        · simp only [Option.map_some, Option.getD_some, hnull]
          rfl
        · simp only [Option.map_some, Option.getD_some, toIntegral?_of_asInt? hm, heq]
  · rfl

/-- A detour by a type that is at least as wide changes nothing. -/
theorem convert_convert {wide narrow : ValueType} {w w' : Nat} (hwide : wide.width? = some w)
    (hchar : wide.nonNullable ≠ .char) (hnarrow : narrow.width? = some w') (hle : w' ≤ w) (v : Value) :
    (v.convert wide).convert narrow = v.convert narrow := by
  rw [convert_of_width? hwide, convert_of_width? hnarrow v]
  cases v.toIntegral? with
  | none => rfl
  | some n =>
      obtain ⟨m, hm, hmod⟩ := asInt?_ofInt hwide hchar n
      have hnarrowed : m ≡ n [ZMOD 2 ^ w'] := hmod.of_dvd (pow_dvd_pow 2 hle)
      simp only [Option.map_some, Option.getD_some]
      rw [convert_of_asInt? hnarrow hm, ofInt_congr hnarrow hnarrowed]

/-- A conversion of integers, characters and members of enumerations is arithmetic modulo two to the
width of its target. To an integer or enumeration type it makes the one value with a congruent integer,
and to a character the one with that code, if there is one; every value is the one that its type has for
its integer. Only to floats is a second conversion of any effect, and a detour by a wide type has none. -/
theorem convert_modular :
    (∀ (v x : Value) (n : Int) (t : ValueType) (w : Nat), v.asInt? = some n → t.width? = some w →
        t.nonNullable ≠ .char →
        (v.convert t = x ↔ x.HasType t ∧ ∃ m, x.asInt? = some m ∧ m ≡ n [ZMOD 2 ^ w])) ∧
      (∀ (v : Value) (n : Int) (t : ValueType), v.asInt? = some n → t.nonNullable = .char →
        (∀ c : Char, v.convert t = .char c ↔ (c.toNat : Int) = n % 2 ^ 32) ∧
          (v.convert t = .null ↔ ∀ c : Char, (c.toNat : Int) ≠ n % 2 ^ 32)) ∧
      (∀ (x : Value) (n : Int) (t : ValueType) (w : Nat), t.width? = some w → x.HasType t →
        x.asInt? = some n → ofInt t n = x) ∧
      (∀ (v : Value) (t : ValueType), t.isFloat = false → (v.convert t).convert t = v.convert t) ∧
      ∀ (v : Value) (wide narrow : ValueType) (w w' : Nat), wide.width? = some w →
        wide.nonNullable ≠ .char → narrow.width? = some w' → w' ≤ w →
        (v.convert wide).convert narrow = v.convert narrow :=
  ⟨fun _ _ _ _ _ hn hw ht => convert_eq_iff hw ht hn, fun _ _ _ hn ht => convert_char_iff ht hn,
    fun _ _ _ _ hw hx hn => ofInt_asInt? hw hx hn, fun v _ ht => convert_convert_self ht v,
    fun v _ _ _ _ hwide hchar hnarrow hle => convert_convert hwide hchar hnarrow hle v⟩

/-- A character beyond 16 bits, and a member of an enumeration whose low 32 bits are half of a surrogate
pair. -/
theorem convert_modular_surrogate :
    let face := Value.char (Char.ofNat 0x1F600)
    let half := Value.enum "Half" (BitVec.ofInt 64 0x10000D800)
    face.convert (.nullable (.int .u16)) = .int (MachineInt.ofInt .u16 0xF600) ∧
      half.convert .char = .null ∧ ofInt (.enum "Half") 0x10000D800 = half ∧
      (half.convert (.int .i32)).convert (.int .i32) = half.convert (.int .i32) ∧
      (half.convert (.int .i32)).convert .char = .null := by
  intro face half
  obtain ⟨hint, hchar, hback, hagain, hdetour⟩ := convert_modular
  have hhalf : half.convert .char = .null := by
    refine (hchar half 0x10000D800 .char rfl rfl).2.mpr fun c hc => ?_
    have hvalid : c.toNat < 0xD800 ∨ 0xDFFF < c.toNat ∧ c.toNat < 0x110000 := c.valid
    omega
  refine ⟨(hint face _ 0x1F600 (.nullable (.int .u16)) 16 rfl rfl (by decide)).mpr
      ⟨.nullable .int, 0xF600, rfl, by decide⟩, hhalf,
    hback half _ (.enum "Half") 64 rfl .enum rfl, hagain half (.int .i32) rfl, ?_⟩
  rw [hdetour half (.int .i32) .char 32 32 rfl (by decide) rfl le_rfl, hhalf]

end Value

end LiveExpr
