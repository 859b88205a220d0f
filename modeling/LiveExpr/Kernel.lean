import LiveExpr.Typing.Rules
import LiveExpr.Value.Equality

/-!
Scalar functions of the operators, chosen once from the static operand types and then applied to
values. They are total: null operands give null or compare as false, and nothing can fail.
-/

namespace LiveExpr

namespace Value

/-! ## Conversion

Integers wrap to the width of the target, floats are truncated toward zero, and null stays null. -/

/-- The range a float is truncated into before it wraps: 128 bits, signed. -/
def truncationRange : Int × Int :=
  (-170141183460469231731687303715884105728, 170141183460469231731687303715884105727)

def toIntegral? : Value → Option Int
  | float _ x => some (x.truncate truncationRange.1 truncationRange.2)
  | v => v.asInt?

/-- Null stays null, and a reference type takes the value as it is. A value without a number in it
becomes null under a numeric type, and any other type leaves it unchanged. -/
def convert (v : Value) (target : ValueType) : Value :=
  if v.isNull || target.isReference then
    v
  else
    match target.nonNullable with
    | .float p => (v.asDouble?.map fun x => float p (x.convert p)).getD null
    | t =>
      if t.isIntegral || t matches .enum _ then
        (v.toIntegral?.map (ofInt t)).getD null
      else
        v

/-! ## Comparison

Null equals only null and is not ordered, numbers of all types are compared as the numbers they stand
for, and the rest by content or identity. -/

/-- The operators' equality: a float that is not a number differs from everything, itself
included. -/
def looselyEqual : Value → Value → Bool
  | null, null => true
  | null, _ | _, null => false
  | a, b =>
    match a, b with
    | float .., _ | _, float .. =>
      match a.asDouble?, b.asDouble? with
      | some x, some y => x.numericallyEqual y
      | x, y => x.isNone && y.isNone
    | _, _ =>
      match a.asInt?, b.asInt? with
      | some m, some n => m == n
      | _, _ => a == b

/-- The order of two values; none for null, for what is not a number, and for types that do not
compare. -/
def order? : Value → Value → Option Ordering
  | null, _ | _, null => none
  | timestamp s, timestamp t => some (s.compare t)
  | duration s, duration t => some (s.compare t)
  | a, b =>
    match a, b with
    | float .., _ | _, float .. => do (← a.asDouble?).compare? (← b.asDouble?)
    | _, _ => do return compare (← a.asInt?) (← b.asInt?)

end Value

/-! ## Kernels -/

inductive UnaryKernel
  | convert (target : ValueType)
  | complement (target : ValueType)
  | negate (target : ValueType)
  | arrayLength
deriving DecidableEq

namespace UnaryKernel

/-- The function for `op`, from an operand type to the type the result is to have. -/
def build (op : UnaryOp) (operand result : ValueType) : Except TypeError UnaryKernel :=
  match op with
  | .convert | .typeAs => (checkConversion operand result).map fun _ => convert result
  | .unaryPlus => (op.resultType operand).map fun _ => convert result
  | .not => (op.resultType operand).map fun _ => complement result
  | .negate => (op.resultType operand).map fun _ => negate result
  | .arrayLength => (op.resultType operand).map fun _ => arrayLength

def onInt (target : ValueType) (f : Int → Int) (v : Value) : Value :=
  (v.asInt?.map fun n => Value.ofInt target (f n)).getD .null

def apply : UnaryKernel → Value → Value
  | convert target, v => v.convert target
  | complement _, .bool b => .bool !b
  | complement target, v => onInt target (fun n => -n - 1) v
  | negate _, .float p x => .float p x.neg
  | negate target, v => onInt target (- ·) v
  | arrayLength, .array _ items => .i32 items.length
  | arrayLength, _ => .null

end UnaryKernel

inductive Relation
  | lt | le | gt | ge
deriving DecidableEq

namespace Relation

def holds : Relation → Ordering → Bool
  | lt, o => o.isLT
  | le, o => o.isLE
  | gt, o => o.isGT
  | ge, o => o.isGE

end Relation

inductive Bitwise
  | and | or | xor
deriving DecidableEq

namespace Bitwise

def onInts (op : Bitwise) (m n : Int) : Int :=
  let x := BitVec.ofInt 128 m
  let y := BitVec.ofInt 128 n
  match op with
  | and => (x &&& y).toInt
  | or => (x ||| y).toInt
  | xor => (x ^^^ y).toInt

/-- On truth values of which one may be unknown: an operand that decides the result decides it
whatever the other one is. -/
def onBools : Bitwise → Option Bool → Option Bool → Option Bool
  | and, some false, _ | and, _, some false => some false
  | and, some true, some true => some true
  | or, some true, _ | or, _, some true => some true
  | or, some false, some false => some false
  | xor, some a, some b => some (a ^^ b)
  | _, _, _ => none

end Bitwise

inductive BinaryKernel
  | equality (negated : Bool)
  | relational (relation : Relation)
  | bitwise (op : Bitwise) (result : ValueType)
  | logical (op : Bitwise)
  | index
deriving DecidableEq

namespace BinaryKernel

def ofBitwise (op : Bitwise) (t : ValueType) : BinaryKernel :=
  if t.isBoolean then logical op else bitwise op t

/-- The function for `left op right`; operators that only have a type have none. -/
def build (op : BinaryOp) (left right : ValueType) : Except TypeError BinaryKernel := do
  let result ← op.resultType left right
  match op with
  | .equal => return equality false
  | .notEqual => return equality true
  | .lessThan => return relational .lt
  | .lessThanOrEqual => return relational .le
  | .greaterThan => return relational .gt
  | .greaterThanOrEqual => return relational .ge
  | .and => return ofBitwise .and result
  | .or => return ofBitwise .or result
  | .exclusiveOr => return ofBitwise .xor result
  | .arrayIndex => return index
  | _ => throw (.undefinedOperator op.symbol [left, right])

def itemAt (items : List Value) (i : Int) : Value :=
  if i < 0 then .null else (items[i.toNat]?).getD .null

def apply : BinaryKernel → Value → Value → Value
  | equality negated, a, b => .bool (a.looselyEqual b != negated)
  | relational r, a, b => .bool ((a.order? b).any r.holds)
  | bitwise op result, a, b =>
    match a.asInt?, b.asInt? with
    | some m, some n => .ofInt result (op.onInts m n)
    | _, _ => .null
  | logical op, a, b => ((op.onBools a.asBool? b.asBool?).map .bool).getD .null
  | index, .array _ items, b => (b.asInt?.map (itemAt items)).getD .null
  | index, _, _ => .null

end BinaryKernel

end LiveExpr
