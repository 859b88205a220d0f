import LiveExpr.Numeric.MachineInt
import LiveExpr.Numeric.Binary
import LiveExpr.Text

/-!
Static types of the values that flow through a graph. A nullable type adds the null to a value
type; reference types hold it anyway.
-/

namespace LiveExpr

/-- An `object` type that is not `observable` never announces changes; a `struct` type is a record
without identity. -/
inductive ValueType
  | bool
  | char
  | int (kind : IntKind)
  | float (precision : Precision)
  | str
  | timestamp
  | duration
  | uuid
  | enum (name : String)
  | nullable (inner : ValueType)
  | array (element : ValueType)
  | object (name : String) (observable : Bool)
  | struct (name : String)
deriving DecidableEq

namespace ValueType

abbrev i32 : ValueType := .int .i32
abbrev i64 : ValueType := .int .i64
abbrev f32 : ValueType := .float .single
abbrev f64 : ValueType := .float .double

def isNullable : ValueType → Bool
  | nullable _ => true
  | _ => false

def nonNullable : ValueType → ValueType
  | nullable inner => inner
  | t => t

def isReference : ValueType → Bool
  | str | array _ | object .. => true
  | _ => false

def isBoolean (t : ValueType) : Bool :=
  t.nonNullable = bool

def toNullable (t : ValueType) : ValueType :=
  if t.isReference || t.isNullable then t else nullable t

def lifted (t : ValueType) (lift : Bool) : ValueType :=
  if lift then t.toNullable else t

def render : ValueType → String
  | bool => "bool"
  | char => "char"
  | int k => k.name
  | float p => p.name
  | str => "string"
  | timestamp => "timestamp"
  | duration => "duration"
  | uuid => "uuid"
  | enum name | struct name | object name _ => name
  | nullable inner => inner.render ++ "?"
  | array element => element.render ++ "[]"

def debug : ValueType → String
  | bool => "Bool"
  | char => "Char"
  | int k => k.name.capitalize
  | float p => p.name.capitalize
  | str => "Str"
  | timestamp => "Timestamp"
  | duration => "Duration"
  | uuid => "Uuid"
  | enum name => "Enum(" ++ Text.quote name ++ ")"
  | nullable inner => "Nullable(" ++ inner.debug ++ ")"
  | array element => "Array(" ++ element.debug ++ ")"
  | object name observable =>
    "Object(ObjectType \x7b name: " ++ Text.quote name ++ ", observable: " ++
      toString observable ++ " \x7d)"
  | struct name => "Struct(" ++ Text.quote name ++ ")"

end ValueType

end LiveExpr
