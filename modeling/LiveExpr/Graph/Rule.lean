import LiveExpr.Graph.Basic
import LiveExpr.Result.Connective

/-!
What an operator node makes of the results of its operands, when one or both of them are absent.
-/

namespace LiveExpr.Result

def mapPresent (f : Value → Value) (x : Result) : Result :=
  x.map f

def mapBoth (f : Value → Value → Value) : Result → Result → Result
  | some a, some b => some (f a b)
  | _, _ => none

/-- Both present, and the operator decides; both absent, and so is the result; otherwise the
operands differ. -/
def compareEqual (f : Value → Value → Value) (negated : Bool) : Result → Result → Result
  | some a, some b => some (f a b)
  | none, none => none
  | _, _ => some (.bool negated)

def compareOrder (f : Value → Value → Value) : Result → Result → Result
  | some a, some b => some (f a b)
  | _, _ => some (.bool false)

end LiveExpr.Result

namespace LiveExpr.NodeKind

/-- The rule of an operator node; a unary one takes the first operand. Parameters, constants and
member accesses have none. -/
def combine : NodeKind → Result → Result → Result
  | unaryOp _ k, x, _ => Result.mapPresent k.apply x
  | binaryDefault _ k, x, y => Result.mapBoth k.apply x y
  | binaryEqual k, x, y => Result.compareEqual k.apply false x y
  | binaryNotEqual k, x, y => Result.compareEqual k.apply true x y
  | binaryRelational _ k, x, y => Result.compareOrder k.apply x y
  | binaryLogicalAnd k, x, y => (Result.conjunction x y).resolve k.apply
  | binaryLogicalOr k, x, y => (Result.disjunction x y).resolve k.apply
  | parameter, _, _ | constant _, _, _ | memberAccess .., _, _ => none

end LiveExpr.NodeKind
