import LiveExpr.Expr.Basic
import LiveExpr.Typing.Rules

/-!
Builders of expressions. Each one takes a fresh identity for the node it makes, infers the static
type, and brings numeric operands to a common type with conversions of its own.
-/

namespace LiveExpr

abbrev Build := StateM Nat

namespace Build

def node (make : Nat → Expr) : Build Expr := do
  let id ← get
  set (id + 1)
  return make id

def parameter (name : String) (t : ValueType) : Build Expr :=
  node (.parameter · t name)

def constantOf (v : Value) (t : ValueType) : Build Expr :=
  node (.constant · t v)

def anyObject : ValueType :=
  .object "object" true

/-- The type of a constant: its value's own, for an array that of the first item that has one. -/
def constantType : Value → ValueType
  | .array _ items => .array ((items.findSome? Value.naturalType?).getD anyObject)
  | v => v.naturalType?.getD anyObject

def constant (v : Value) : Build Expr :=
  constantOf v (constantType v)

def null : Build Expr :=
  constant .null

def memberReading (target : Expr) (name : String) (t : ValueType) (reads : String) : Build Expr :=
  node (.member · t target name reads)

def member (target : Expr) (name : String) (t : ValueType) : Build Expr :=
  memberReading target name t name

def staticMember (owner name : String) (t : ValueType) : Build Expr :=
  node (.staticMember · t owner name)

/-- Where the operator is not defined the operand's type stands in, and compiling reports it. -/
def unary (op : UnaryOp) (operand : Expr) : Build Expr :=
  let t := (op.resultType operand.type).toOption.getD operand.type
  node (.unary · t op operand)

def convert (operand : Expr) (t : ValueType) : Build Expr :=
  node (.unary · t .convert operand)

def typeAs (operand : Expr) (t : ValueType) : Build Expr :=
  node (.unary · t .typeAs operand)

/-- A null constant takes the type of the operand beside it, made nullable; two of them stay. -/
def adoptType (left right : Expr) : Build (Expr × Expr) := do
  if left.isNullConstant && !right.isNullConstant then
    return (← constantOf .null right.type.toNullable, right)
  else if right.isNullConstant && !left.isNullConstant then
    return (left, ← constantOf .null left.type.toNullable)
  else
    return (left, right)

def widen (e : Expr) (t : ValueType) : Build Expr :=
  if e.type = t then return e else convert e t

/-- Both operands in their common numeric type, where the operator wants one and there is one. -/
def coerceOperands (op : BinaryOp) (left right : Expr) : Build (Expr × Expr) := do
  let (left, right) ← adoptType left right
  if !op.promotesOperands then
    return (left, right)
  match left.type.promote? right.type with
  | none => return (left, right)
  | some common =>
    let target := common.lifted (left.type.isNullable || right.type.isNullable)
    return (← widen left target, ← widen right target)

/-- What an operator is taken to yield on operands it is not defined for. -/
def fallbackType (op : BinaryOp) (left : ValueType) : ValueType :=
  if op.isRelational || op = .equal || op = .notEqual then .bool else left

def binary (op : BinaryOp) (left right : Expr) : Build Expr := do
  let (left, right) ← coerceOperands op left right
  let t := (op.resultType left.type right.type).toOption.getD (fallbackType op left.type)
  node (.binary · t op left right)

def conditional (test ifTrue ifFalse : Expr) : Build Expr :=
  node (.conditional · ifTrue.type test ifTrue ifFalse)

def call (target : Option Expr) (method : String) (args : List Expr) (t : ValueType) : Build Expr :=
  node (.call · t target method args)

end Build

end LiveExpr
