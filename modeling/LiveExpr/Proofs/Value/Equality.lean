import LiveExpr.Proofs.Numeric.Sameness
import LiveExpr.Result.Basic

/-!
Equality of values is an equivalence relation, and whatever a policy takes for the same result is
equal. So a change that is held back as the same result never hides a different value.
-/

namespace LiveExpr

namespace Value

/-- The items of an array may be assumed to have what is proved of the array. -/
theorem items_induction {motive : Value → Prop}
    (leaf : ∀ v, (∀ a vs, v ≠ .array a vs) → motive v)
    (array : ∀ a vs, (∀ v ∈ vs, motive v) → motive (.array a vs)) : (v : Value) → motive v
  | .array a vs => array a vs fun v _ => items_induction leaf array v
  | .null | .bool _ | .char _ | .int _ | .float .. | .str .. | .timestamp _ | .duration _ | .uuid _
  | .enum .. | .object _ | .struct _ => leaf _ (by simp)

/-- How two values can be equal: identical, or floats that are the same number, texts of different
allocation, one array with equal items, or references to one object. -/
inductive Alike : Value → Value → Prop
  | refl (v : Value) : Alike v v
  | float {p : Precision} {x y : Binary p} : x.datum.Alike y.datum → Alike (.float p x) (.float p y)
  | str (a b : Nat) (s : String) : Alike (.str a s) (.str b s)
  | array (a : Nat) {vs ws : List Value} : equalAll vs ws = true → Alike (.array a vs) (.array a ws)
  | object {r r' : ObjectRef} : r.id = r'.id → Alike (.object r) (.object r')
  | struct {r r' : ObjectRef} : r.id = r'.id → Alike (.struct r) (.struct r')

theorem equalAll_iff {vs ws : List Value} :
    equalAll vs ws = true ↔ List.Forall₂ (fun v w => (v == w) = true) vs ws := by
  induction vs generalizing ws with
  | nil => cases ws <;> simp [equalAll]
  | cons v vs ih =>
      cases ws with
      | nil => simp [equalAll]
      | cons w ws => simp [equalAll, ih, BEq.beq]

theorem alike_of_equal {v w : Value} (h : v.equal w = true) : v.Alike w := by
  cases v <;> cases w <;> simp only [equal, Bool.and_eq_true, beq_iff_eq, Bool.false_eq_true] at h
  case float.float p x q y =>
      by_cases hpq : q = p
      · subst hpq; exact .float (sameFloat_iff.mp h)
      · simp [sameFloat, hpq] at h
  case str.str => subst h; exact .str ..
  case array.array => obtain ⟨rfl, h⟩ := h; exact .array _ h
  case object.object => exact .object h
  case struct.struct => exact .struct h
  case enum.enum => obtain ⟨rfl, rfl⟩ := h; exact .refl _
  case null.null => exact .refl _
  all_goals subst h; exact .refl _

theorem equal_refl (v : Value) : (v == v) = true := by
  change v.equal v = true
  induction v using items_induction with
  | leaf v hv =>
      cases v with
      | array a vs => exact absurd rfl (hv a vs)
      | float p x => simp only [equal]; exact sameFloat_iff.mpr (.refl _)
      | _ => simp [equal]
  | array a vs ih =>
      simp only [equal, beq_self_eq_true, Bool.true_and, equalAll_iff]
      exact List.forall₂_same.mpr ih

theorem equal_of_alike {v w : Value} (h : v.Alike w) : (v == w) = true := by
  change v.equal w = true
  cases h with
  | refl => exact equal_refl v
  | float h => simp only [equal]; exact sameFloat_iff.mpr h
  | str => simp [equal]
  | array _ h => simp [equal, h]
  | object h => simp [equal, h]
  | struct h => simp [equal, h]

theorem equal_iff_alike {v w : Value} : (v == w) = true ↔ v.Alike w :=
  ⟨alike_of_equal, equal_of_alike⟩

theorem equal_symm (v w : Value) : (v == w) = true → (w == v) = true := by
  simp only [equal_iff_alike]
  induction v using items_induction generalizing w with
  | leaf v hv =>
      intro h
      cases h with
      | refl => exact .refl _
      | float h => exact .float h.symm
      | str a b s => exact .str b a s
      | array a _ => exact absurd rfl (hv a _)
      | object h => exact .object h.symm
      | struct h => exact .struct h.symm
  | array a vs ih =>
      intro h
      cases h with
      | refl => exact .refl _
      | @array _ _ ws h =>
          refine .array a (equalAll_iff.mpr ?_)
          rw [equalAll_iff] at h
          induction h with
          | nil => exact .nil
          | cons h _ ihs =>
              exact .cons (equal_of_alike (ih _ (by simp) _ (alike_of_equal h)))
                (ihs fun v hv => ih v (by simp [hv]))

theorem equal_trans (u v w : Value) : (u == v) = true → (v == w) = true → (u == w) = true := by
  simp only [equal_iff_alike]
  induction u using items_induction generalizing v w with
  | leaf u hu =>
      intro h h'
      cases h with
      | refl => exact h'
      | float h =>
          cases h' with
          | refl => exact .float h
          | float h' => exact .float (h.trans h')
      | str a b s => cases h' <;> exact .str ..
      | array a _ => exact absurd rfl (hu a _)
      | object h =>
          cases h' with
          | refl => exact .object h
          | object h' => exact .object (h.trans h')
      | struct h =>
          cases h' with
          | refl => exact .struct h
          | struct h' => exact .struct (h.trans h')
  | array a vs ih =>
      intro h h'
      cases h with
      | refl => exact h'
      | @array _ _ ws h =>
          cases h' with
          | refl => exact .array a h
          | @array _ _ xs h' =>
              refine .array a (equalAll_iff.mpr ?_)
              rw [equalAll_iff] at h h'
              induction h generalizing xs with
              | nil => exact h'
              | cons h _ ihs =>
                  cases h' with
                  | cons h' hs' =>
                      exact .cons
                        (equal_of_alike (ih _ (by simp) _ _ (alike_of_equal h) (alike_of_equal h')))
                        (ihs (fun v hv => ih v (by simp [hv])) hs')

instance : EquivBEq Value where
  rfl := equal_refl _
  symm := equal_symm _ _
  trans := equal_trans _ _ _

theorem equal_of_same {v w : Value} (h : v.same w = true) : (v == w) = true := by
  cases v <;> cases w <;> simp [same] at h <;> change Value.equal _ _ = true
  case str => simp [equal, h.2]
  case array => exact h
  all_goals simp [equal, h]

end Value

theorem EqualityPolicy.equal_of_valuesEqual {policy : EqualityPolicy} {v w : Value}
    (h : policy.valuesEqual v w = true) : (v == w) = true := by
  cases policy with
  | standard => exact h
  | emptyOnly =>
      simp only [valuesEqual, Bool.and_eq_true] at h
      cases v <;> cases w <;> simp [Value.isNull] at h
      exact Value.equal_refl _
  | identity => exact Value.equal_of_same h

theorem Value.same_symm {v w : Value} (h : v.same w = true) : w.same v = true := by
  cases v <;> cases w <;> simp [same] at h ⊢
  case str => exact ⟨h.1.symm, h.2.symm⟩
  case array => exact equal_symm _ _ h
  all_goals exact h.symm

theorem Value.same_trans {u v w : Value} (h : u.same v = true) (h' : v.same w = true) :
    u.same w = true := by
  cases u <;> cases v <;> simp [same] at h <;> cases w <;> simp [same] at h' ⊢
  case str.str.str => exact ⟨h.1.trans h'.1, h.2.trans h'.2⟩
  case array.array.array => exact equal_trans _ _ _ h h'
  all_goals exact h.trans h'

namespace EqualityPolicy

variable {policy : EqualityPolicy} {u v w : Value}

theorem valuesEqual_symm (h : policy.valuesEqual v w = true) : policy.valuesEqual w v = true := by
  cases policy with
  | standard => exact Value.equal_symm v w h
  | emptyOnly => simpa [valuesEqual, and_comm] using h
  | identity => exact Value.same_symm h

theorem valuesEqual_trans (h : policy.valuesEqual u v = true) (h' : policy.valuesEqual v w = true) :
    policy.valuesEqual u w = true := by
  cases policy with
  | standard => exact Value.equal_trans u v w h h'
  | emptyOnly =>
      simp only [valuesEqual, Bool.and_eq_true] at h h' ⊢
      exact ⟨h.1, h'.2⟩
  | identity => exact Value.same_trans h h'

end EqualityPolicy

namespace Result

instance : EquivBEq (Option Value) where
  symm {x y} h := by
    cases x <;> cases y <;> simp at h ⊢
    exact BEq.symm h
  trans {x y z} h h' := by
    cases x <;> cases y <;> cases z <;> simp at h h' ⊢
    exact BEq.trans h h'

/-- What a policy takes for the same result is an equal one. -/
theorem equal_of_sameAs {policy : EqualityPolicy} {x y : Result} (h : sameAs policy x y = true) :
    (x == y) = true := by
  cases x <;> cases y <;> simp [sameAs] at h ⊢
  exact EqualityPolicy.equal_of_valuesEqual h

/-! No policy but the standard one takes every result for the same as itself. -/

theorem sameAs_symm {policy : EqualityPolicy} {x y : Result} (h : sameAs policy x y = true) :
    sameAs policy y x = true := by
  cases x <;> cases y <;> simp [sameAs] at h ⊢
  exact EqualityPolicy.valuesEqual_symm h

theorem sameAs_trans {policy : EqualityPolicy} {x y z : Result} (h : sameAs policy x y = true)
    (h' : sameAs policy y z = true) : sameAs policy x z = true := by
  cases x <;> cases y <;> cases z <;> simp [sameAs] at h h' ⊢
  exact EqualityPolicy.valuesEqual_trans h h'

end Result

end LiveExpr
