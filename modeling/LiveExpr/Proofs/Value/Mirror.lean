import LiveExpr.Proofs.Value.Congruence

/-!
Operators with their operands exchanged. Equality does not tell one side from the other, an order is
turned round, and the bitwise operators commute, on truth values that are unknown as well. What is left
to exchange is the operator itself, where it is an ordering.
-/

namespace LiveExpr

/-! ## Comparing -/

namespace Value

theorem equalNumbers_comm (x y : Option (Binary .double)) : equalNumbers x y = equalNumbers y x := by
  cases x <;> cases y <;> try rfl
  rename_i x y
  rw [equalNumbers, equalNumbers, Binary.numericallyEqual, Binary.numericallyEqual, x.compare?_swap]
  rcases y.compare? x with _ | _ | _ | _ <;> rfl

theorem looselyEqual_comm (a b : Value) : a.looselyEqual b = b.looselyEqual a := by
  rw [looselyEqual_eq, looselyEqual_eq, equalNumbers_comm, Bool.or_comm a.isNull, Bool.and_comm a.isNull,
    Bool.or_comm a.isFloat, BEq.comm (a := a)]
  cases a.asInt? <;> cases b.asInt? <;> try rfl
  rename_i m n
  simp only [BEq.comm (a := m)]

theorem timeOrder?_swap (a b : Value) : timeOrder? a b = (timeOrder? b a).map Ordering.swap := by
  cases a <;> cases b <;> try rfl
  all_goals
    simp only [timeOrder?, Option.map_some, Timestamp.compare, Span.compare, Ordering.swap_then,
      Int.compare_swap, Nat.compare_swap]

theorem numberOrder?_swap (a b : Value) :
    numberOrder? a b = (numberOrder? b a).map Ordering.swap := by
  unfold numberOrder?
  rw [Bool.or_comm]
  split
  · cases a.asDouble? <;> cases b.asDouble? <;> try rfl
    exact Binary.compare?_swap _ _
  · cases a.asInt? <;> cases b.asInt? <;> try rfl
    exact congrArg some (Int.compare_swap _ _).symm

theorem order?_swap (a b : Value) : a.order? b = (b.order? a).map Ordering.swap := by
  rw [order?_eq, order?_eq, timeOrder?_swap, numberOrder?_swap]
  cases timeOrder? b a <;> rfl

end Value

/-! ## Kernels -/

def Relation.mirror : Relation → Relation
  | lt => gt
  | le => ge
  | gt => lt
  | ge => le

theorem Relation.holds_mirror (r : Relation) (o : Ordering) : r.mirror.holds o.swap = r.holds o := by
  cases r <;> cases o <;> rfl

theorem Bitwise.onInts_comm (op : Bitwise) (m n : Int) : op.onInts m n = op.onInts n m := by
  cases op
  · exact congrArg BitVec.toInt (BitVec.and_comm ..)
  · exact congrArg BitVec.toInt (BitVec.or_comm ..)
  · exact congrArg BitVec.toInt (BitVec.xor_comm ..)

theorem Bitwise.onBools_comm (op : Bitwise) (p q : Option Bool) : op.onBools p q = op.onBools q p := by
  cases op <;> rcases p with _ | _ | _ <;> rcases q with _ | _ | _ <;> rfl

namespace BinaryKernel

/-- The kernel for exchanged operands; looking an item up has none. -/
def mirror : BinaryKernel → BinaryKernel
  | relational r => relational r.mirror
  | k => k

theorem apply_mirror {k : BinaryKernel} (hk : k ≠ .index) (a b : Value) :
    k.mirror.apply b a = k.apply a b := by
  cases k with
  | equality negated =>
      exact congrArg (fun same => Value.bool (same != negated)) (b.looselyEqual_comm a)
  | relational r =>
      simp only [mirror, apply, a.order?_swap b, Option.any_map]
      simp only [← r.holds_mirror, Ordering.swap_swap]
  | bitwise op result =>
      simp only [mirror, apply]
      cases a.asInt? <;> cases b.asInt? <;> try rfl
      exact congrArg (Value.ofInt result) (op.onInts_comm _ _)
  | logical op => simp only [mirror, apply, op.onBools_comm]
  | index => exact absurd rfl hk

end BinaryKernel

end LiveExpr
