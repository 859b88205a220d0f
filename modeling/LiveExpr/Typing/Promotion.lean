import LiveExpr.Value.Type

/-!
Numeric promotion: the common type that operands of different numeric types are brought to. The
classes look through one layer of nullability.
-/

namespace LiveExpr.ValueType

/-- Integers, and characters, which count as unsigned ones. -/
def isIntegral (t : ValueType) : Bool :=
  match t.nonNullable with
  | .int _ | .char => true
  | _ => false

def isFloat (t : ValueType) : Bool :=
  match t.nonNullable with
  | .float _ => true
  | _ => false

def isNumeric (t : ValueType) : Bool :=
  t.isIntegral || t.isFloat

def isSigned : ValueType → Bool
  | .int k => k.signed
  | _ => false

/-- Floats win, the wider one first. Among integers `u64` does not mix with a signed type, `u32`
and a signed type widen to `i64`, and whatever is narrower than 32 bits widens to `i32`. -/
def promote? (left right : ValueType) : Option ValueType :=
  let l := left.nonNullable
  let r := right.nonNullable
  if !l.isNumeric || !r.isNumeric then
    none
  else
    let either (t : ValueType) : Bool := l = t || r = t
    let signed := l.isSigned || r.isSigned
    if either f64 then some f64
    else if either f32 then some f32
    else if either (.int .u64) then if signed then none else some (.int .u64)
    else if either i64 then some i64
    else if either (.int .u32) then if signed then some i64 else some (.int .u32)
    else some i32

/-- For the complement and the unary plus: integers below 32 bits widen to `i32`. -/
def promoteUnary? (operand : ValueType) : Option ValueType :=
  match operand.nonNullable with
  | .int .i8 | .int .i16 | .int .u8 | .int .u16 | .char => some i32
  | t => if t.isNumeric then some t else none

/-- For the negation: `u32` widens to `i64` besides, and `u64` has no negative. -/
def promoteNegate? (operand : ValueType) : Option ValueType :=
  match operand.nonNullable with
  | .int .u32 => some i64
  | .int .u64 => none
  | _ => operand.promoteUnary?

end LiveExpr.ValueType
