import LiveExpr.Operator
import LiveExpr.Typing.Promotion

/-!
The static types of operators: which operands each one takes and what it yields. A result is
nullable when an operand is, except where the operator answers for null itself.
-/

namespace LiveExpr

inductive TypeError
  | undefinedOperator (symbol : String) (operands : List ValueType)
  | invalidConversion (source target : ValueType)
deriving DecidableEq

namespace TypeError

def message : TypeError → String
  | undefinedOperator symbol operands =>
    "operator `" ++ symbol ++ "` is not defined for (" ++
      ", ".intercalate (operands.map ValueType.render) ++ ")"
  | invalidConversion source target =>
    "cannot convert " ++ source.render ++ " to " ++ target.render

end TypeError

def ValueType.isOrdered (t : ValueType) : Bool :=
  match t.nonNullable with
  | .timestamp | .duration | .enum _ => true
  | t => t.isNumeric

namespace UnaryOp

/-- The result on a type that is not nullable, before lifting. Conversions have none of their own,
as their result is what they are asked for. -/
def resultOn? (op : UnaryOp) (operand : ValueType) : Option ValueType :=
  match op with
  | not =>
    if operand = .bool then some .bool
    else if operand.isIntegral && operand != .char then operand.promoteUnary?
    else none
  | negate => operand.promoteNegate?
  | unaryPlus => operand.promoteUnary?
  | arrayLength | convert | typeAs => none

def resultType (op : UnaryOp) (operand : ValueType) : Except TypeError ValueType :=
  match op, operand.nonNullable with
  | arrayLength, .array _ => .ok .i32
  | _, inner =>
    match op.resultOn? inner with
    | some t => .ok (t.lifted operand.isNullable)
    | none => .error (.undefinedOperator op.symbol [operand])

end UnaryOp

/-- Numbers and enumerations convert into each other, reference types into each other, and every
type to itself, with or without the null. -/
def checkConversion (source target : ValueType) : Except TypeError Unit :=
  let numberLike : ValueType → Bool
    | .enum _ => true
    | t => t.isNumeric
  let s := source.nonNullable
  let t := target.nonNullable
  if s = t || (numberLike s && numberLike t) || (source.isReference && target.isReference) then
    .ok ()
  else
    .error (.invalidConversion source target)

namespace BinaryOp

/-- Sums and differences of times, and strings on either side of a plus; anything else in this
family is numeric. -/
def arithmeticResult? (op : BinaryOp) (l r : ValueType) (lift : Bool) : Option ValueType :=
  let numeric := (l.promote? r).map (·.lifted lift)
  match op, l, r with
  | add, .str, _ | add, _, .str => some .str
  | add, .timestamp, .duration | subtract, .timestamp, .duration =>
    some (ValueType.timestamp.lifted lift)
  | subtract, .timestamp, .timestamp => some (ValueType.duration.lifted lift)
  | add, .duration, .duration | subtract, .duration, .duration =>
    some (ValueType.duration.lifted lift)
  | _, _, _ => numeric

/-- The bitwise operators on two booleans, two members of one enumeration, or two integers. -/
def bitwiseResult? (l r : ValueType) (lift : Bool) : Option ValueType :=
  if l ≠ r then
    none
  else
    match l with
    | .bool | .enum _ => some (l.lifted lift)
    | .char => none
    | _ => if l.isIntegral then (l.promote? r).map (·.lifted lift) else none

def resultType? (op : BinaryOp) (left right : ValueType) : Option ValueType :=
  let lift := left.isNullable || right.isNullable
  let l := left.nonNullable
  let r := right.nonNullable
  match op with
  | equal | notEqual =>
    if l = r || (left.isReference && right.isReference) then some .bool else none
  | lessThan | lessThanOrEqual | greaterThan | greaterThanOrEqual =>
    if l = r && l.isOrdered then some .bool else none
  | and | or | exclusiveOr => bitwiseResult? l r lift
  | andAlso | orElse => if left = .bool && right = .bool then some .bool else none
  | arrayIndex =>
    match left, right with
    | .array element, .int .i32 | .array element, .int .i64 => some element
    | _, _ => none
  | add | subtract | multiply | divide | modulo => op.arithmeticResult? l r lift
  | leftShift | rightShift =>
    if r = .i32 && l.isIntegral then l.promoteUnary?.map (·.lifted lift) else none
  | coalesce => if left.isNullable || left.isReference then some right else none

/-- The type of `left op right`; numeric operands are expected in their common type. -/
def resultType (op : BinaryOp) (left right : ValueType) : Except TypeError ValueType :=
  match op.resultType? left right with
  | some t => .ok t
  | none => .error (.undefinedOperator op.symbol [left, right])

end BinaryOp

end LiveExpr
