import LiveExpr.Expr.Basic
import LiveExpr.Kernel
import LiveExpr.Result.Basic

/-!
What an expression means, said of the expression alone: no graph, no sharing and no history. This
is the answer that a graph compiled from it has to give while nothing changes.
-/

namespace LiveExpr

/-- What a binary operator makes of its operands when one of them is absent, or both: two absent
ones make an absent result, but an ordering holds of nothing that is absent; equality tells an
absent operand from a present one; and a connective of booleans is known when the operand that is
there settles it. -/
def BinaryOp.onAbsent (op : BinaryOp) (booleans : Bool) : Result → Result → Result
  | none, none => if op.isRelational then some (.bool false) else none
  | l, r =>
    match op with
    | .equal => some (.bool false)
    | .notEqual => some (.bool true)
    | .lessThan | .lessThanOrEqual | .greaterThan | .greaterThanOrEqual => some (.bool false)
    | .and =>
      if booleans && (l.or r).any (·.asBool? == some false) then some (.bool false) else none
    | .or =>
      if booleans && (l.or r).any (·.asBool? == some true) then some (.bool true) else none
    | _ => none

namespace Expr

/-- The result of an expression whose parameter is `bound`, where `read` gives the members of
values. Static members, conditionals, calls and undefined operators have none. -/
def meaning (read : (member : String) → Value → Value) (bound : Value) : Expr → Result
  | parameter .. => some bound
  | constant _ _ v => some v
  | member _ _ target _ reads =>
    match target.meaning read bound with
    | none | some .null => none
    | some v => some (read reads v)
  | unary _ t op operand => do
    let kernel ← (UnaryKernel.build op operand.type t).toOption
    return kernel.apply (← operand.meaning read bound)
  | binary _ _ op left right => do
    let kernel ← (BinaryKernel.build op left.type right.type).toOption
    match left.meaning read bound, right.meaning read bound with
    | some a, some b => some (kernel.apply a b)
    | l, r => op.onAbsent (left.type.isBoolean && right.type.isBoolean) l r
  | staticMember .. | conditional .. | call .. => none

end Expr

end LiveExpr
