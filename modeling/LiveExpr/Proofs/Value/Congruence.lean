import LiveExpr.Proofs.Value.Equality
import LiveExpr.Graph.Rule

/-!
Equal values are interchangeable: no conversion, operator, built-in member or presence rule tells
them apart.
-/

namespace LiveExpr

namespace Value

variable {v w a b a' b' : Value}

/-! ## What a value is taken for -/

theorem isNull_eq_of_equal (h : v == w) : v.isNull = w.isNull := by
  cases alike_of_equal h <;> rfl

theorem asBool?_eq_of_equal (h : v == w) : v.asBool? = w.asBool? := by
  cases alike_of_equal h <;> rfl

theorem asInt?_eq_of_equal (h : v == w) : v.asInt? = w.asInt? := by
  cases alike_of_equal h <;> rfl

def isFloat : Value → Bool
  | float .. => true
  | _ => false

theorem isFloat_eq_of_equal (h : v == w) : v.isFloat = w.isFloat := by
  cases alike_of_equal h <;> rfl

def AlikeNumbers : Option (Binary .double) → Option (Binary .double) → Prop :=
  Option.Rel fun x y => x.datum.Alike y.datum

theorem AlikeNumbers.refl : (x : Option (Binary .double)) → AlikeNumbers x x
  | none => .none
  | some x => .some (.refl x.datum)

theorem asDouble?_alike (h : v == w) : AlikeNumbers v.asDouble? w.asDouble? := by
  cases alike_of_equal h with
  | @float p x y hxy =>
      cases p with
      | single => exact .some (Binary.convert_alike .double hxy)
      | double => exact .some hxy
  | refl => exact .refl _
  | _ => exact .none

/-! ## Comparison -/

def equalNumbers : Option (Binary .double) → Option (Binary .double) → Bool
  | some x, some y => x.numericallyEqual y
  | x, y => x.isNone && y.isNone

theorem equalNumbers_alike {x x' y y' : Option (Binary .double)} (hx : AlikeNumbers x x')
    (hy : AlikeNumbers y y') : equalNumbers x y = equalNumbers x' y' := by
  cases hx with
  | none => cases hy <;> rfl
  | some hx =>
      cases hy with
      | none => rfl
      | some hy => simp only [equalNumbers, Binary.numericallyEqual, Binary.compare?_alike hx hy]

theorem looselyEqual_eq (a b : Value) :
    a.looselyEqual b =
      if a.isNull || b.isNull then a.isNull && b.isNull
      else if a.isFloat || b.isFloat then equalNumbers a.asDouble? b.asDouble?
      else match a.asInt?, b.asInt? with
        | some m, some n => m == n
        | _, _ => a == b := by
  cases a <;> cases b <;> rfl

theorem looselyEqual_congr (ha : a == a') (hb : b == b') : a.looselyEqual b = a'.looselyEqual b' := by
  have hab : (a == b) = (a' == b') := by rw [BEq.congr_left ha, BEq.congr_right hb]
  rw [looselyEqual_eq, looselyEqual_eq, isNull_eq_of_equal ha, isNull_eq_of_equal hb,
    isFloat_eq_of_equal ha, isFloat_eq_of_equal hb, asInt?_eq_of_equal ha, asInt?_eq_of_equal hb, hab,
    equalNumbers_alike (asDouble?_alike ha) (asDouble?_alike hb)]

/-- The order of two times; none when one of them is not a time, or a time of the other kind. -/
def timeOrder? : Value → Value → Option Ordering
  | timestamp s, timestamp t => some (s.compare t)
  | duration s, duration t => some (s.compare t)
  | _, _ => none

theorem timeOrder?_congr (ha : a == a') (hb : b == b') : timeOrder? a b = timeOrder? a' b' := by
  cases alike_of_equal ha <;> cases alike_of_equal hb <;> first | rfl | (cases a <;> rfl)

/-- The order of two numbers, which are compared as floats when one of them is a float. -/
def numberOrder? (a b : Value) : Option Ordering :=
  if a.isFloat || b.isFloat then do (← a.asDouble?).compare? (← b.asDouble?)
  else do return compare (← a.asInt?) (← b.asInt?)

theorem compareNumbers_alike {x x' y y' : Option (Binary .double)} (hx : AlikeNumbers x x')
    (hy : AlikeNumbers y y') :
    (do (← x).compare? (← y)) = (do (← x').compare? (← y') : Option Ordering) := by
  cases hx with
  | none => rfl
  | some hx =>
      cases hy with
      | none => rfl
      | some hy => exact Binary.compare?_alike hx hy

theorem numberOrder?_congr (ha : a == a') (hb : b == b') : numberOrder? a b = numberOrder? a' b' := by
  rw [numberOrder?, numberOrder?, compareNumbers_alike (asDouble?_alike ha) (asDouble?_alike hb),
    isFloat_eq_of_equal ha, isFloat_eq_of_equal hb, asInt?_eq_of_equal ha, asInt?_eq_of_equal hb]

theorem order?_eq (a b : Value) : a.order? b = (timeOrder? a b).or (numberOrder? a b) := by
  cases a <;> cases b <;> first | rfl | (rename_i p _; cases p <;> rfl)

theorem order?_congr (ha : a == a') (hb : b == b') : a.order? b = a'.order? b' := by
  rw [order?_eq, order?_eq, timeOrder?_congr ha hb, numberOrder?_congr ha hb]

/-! ## Conversion and members -/

theorem toIntegral?_eq_of_equal (h : v == w) : v.toIntegral? = w.toIntegral? := by
  cases alike_of_equal h with
  | float hxy => simp only [toIntegral?, Binary.truncate_alike hxy]
  | _ => rfl

theorem convert_congr (target : ValueType) (h : v == w) : v.convert target == w.convert target := by
  unfold convert
  rw [isNull_eq_of_equal h, toIntegral?_eq_of_equal h]
  split
  · exact h
  · have hdouble := asDouble?_alike h
    generalize v.asDouble? = x at hdouble
    generalize w.asDouble? = y at hdouble
    split
    · cases hdouble with
      | none => exact BEq.rfl
      | some hxy => exact equal_of_alike (.float (Binary.convert_alike _ hxy))
    · generalize (_ || _ : Bool) = integral
      cases integral with
      | true => exact BEq.rfl
      | false => exact h

theorem length_eq_of_equalAll {vs ws : List Value} (h : equalAll vs ws = true) :
    vs.length = ws.length :=
  (equalAll_iff.mp h).length_eq

theorem builtinMember_congr (name : String) (h : v == w) :
    v.builtinMember name == w.builtinMember name := by
  by_cases hvalue : name = "value"
  · subst hvalue
    cases alike_of_equal h <;> first | exact BEq.rfl | exact h
  · cases alike_of_equal h with
    | refl => exact BEq.rfl
    | float => by_cases hhas : name = "has_value" <;> simp [builtinMember, hhas]
    | str a b s =>
        by_cases hhas : name = "has_value" <;> by_cases hlen : name = "length" <;>
          simp [builtinMember, hhas, hlen]
    | array a hs =>
        by_cases hhas : name = "has_value" <;> by_cases hlen : name = "length" <;>
          simp [builtinMember, hhas, hlen, length_eq_of_equalAll hs]
    | object => exact BEq.rfl
    | struct => exact BEq.rfl

end Value

/-! ## Operators -/

theorem UnaryKernel.apply_congr (k : UnaryKernel) {v w : Value} (h : v == w) :
    k.apply v == k.apply w := by
  have hint : ∀ (t : ValueType) (f : Int → Int), onInt t f v = onInt t f w := by
    intro t f
    rw [onInt, onInt, Value.asInt?_eq_of_equal h]
  cases k with
  | convert t => exact Value.convert_congr t h
  | complement t =>
      cases Value.alike_of_equal h with
      | refl => exact BEq.rfl
      | _ => simp only [apply, hint, beq_self_eq_true]
  | negate t =>
      cases Value.alike_of_equal h with
      | refl => exact BEq.rfl
      | float hxy => exact Value.equal_of_alike (.float (Binary.neg_alike hxy))
      | _ => simp only [apply, hint, beq_self_eq_true]
  | arrayLength =>
      cases Value.alike_of_equal h with
      | array a hs => simp only [apply, Value.length_eq_of_equalAll hs, beq_self_eq_true]
      | _ => exact BEq.rfl

namespace BinaryKernel

theorem itemAt_congr {vs ws : List Value} (h : Value.equalAll vs ws = true) (i : Int) :
    itemAt vs i == itemAt ws i := by
  unfold itemAt
  split
  · exact BEq.rfl
  · rw [Value.equalAll_iff] at h
    generalize i.toNat = k
    induction h generalizing k with
    | nil => exact BEq.rfl
    | cons h _ ih =>
        cases k with
        | zero => exact h
        | succ k => simpa using ih k

theorem apply_congr (k : BinaryKernel) {a a' b b' : Value} (ha : a == a') (hb : b == b') :
    k.apply a b == k.apply a' b' := by
  cases k with
  | equality negated => simp only [apply, Value.looselyEqual_congr ha hb, beq_self_eq_true]
  | relational r => simp only [apply, Value.order?_congr ha hb, beq_self_eq_true]
  | bitwise op t =>
      simp only [apply, Value.asInt?_eq_of_equal ha, Value.asInt?_eq_of_equal hb, beq_self_eq_true]
  | logical op =>
      simp only [apply, Value.asBool?_eq_of_equal ha, Value.asBool?_eq_of_equal hb, beq_self_eq_true]
  | index =>
      cases Value.alike_of_equal ha with
      | refl => cases a <;> simp only [apply, Value.asInt?_eq_of_equal hb, beq_self_eq_true]
      | array c hs =>
          simp only [apply, Value.asInt?_eq_of_equal hb]
          cases b'.asInt? with
          | none => exact BEq.rfl
          | some i => exact itemAt_congr hs i
      | _ => exact BEq.rfl

end BinaryKernel

/-! ## Results -/

namespace Result

variable {x x' y y' : Result}

theorem object?_congr (h : x == x') : object? x == object? x' := by
  cases x <;> cases x' <;> simp at h
  · rfl
  · rename_i v w
    simp only [object?, Option.filter, Value.isNull_eq_of_equal h]
    split
    · exact h
    · rfl

theorem truth?_eq_of_equal (h : x == x') : truth? x = truth? x' := by
  cases x <;> cases x' <;> simp at h
  · rfl
  · cases Value.alike_of_equal h <;> rfl

theorem connect_congr (absorbing : Bool) {f : Value → Value → Value}
    (hf : ∀ {a a' b b'}, a == a' → b == b' → f a b == f a' b') (hx : x == x') (hy : y == y') :
    (connect absorbing x y).resolve f == (connect absorbing x' y').resolve f := by
  have htx := truth?_eq_of_equal hx
  have hty := truth?_eq_of_equal hy
  cases x <;> cases x' <;> simp at hx <;> cases y <;> cases y' <;> simp at hy
  · rfl
  · simp only [connect, hty]; exact BEq.rfl
  · simp only [connect, htx]; exact BEq.rfl
  · exact hf hx hy

end Result

theorem NodeKind.combine_congr (k : NodeKind) {x x' y y' : Result} (hx : x == x') (hy : y == y') :
    k.combine x y == k.combine x' y' := by
  cases k with
  | parameter | constant | memberAccess => exact BEq.rfl
  | unaryOp op k =>
      cases x <;> cases x' <;> simp at hx
      · exact BEq.rfl
      · exact k.apply_congr hx
  | binaryLogicalAnd k => exact Result.connect_congr false k.apply_congr hx hy
  | binaryLogicalOr k => exact Result.connect_congr true k.apply_congr hx hy
  | binaryDefault op k | binaryEqual k | binaryNotEqual k | binaryRelational op k =>
      cases x <;> cases x' <;> simp at hx <;> cases y <;> cases y' <;> simp at hy <;>
        first | exact BEq.rfl | exact k.apply_congr hx hy

end LiveExpr
