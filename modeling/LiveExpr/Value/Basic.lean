import LiveExpr.Value.Type
import LiveExpr.Time.Timestamp
import LiveExpr.Time.Span

/-!
The values that flow through a graph. Strings and arrays carry the number of their allocation, and
objects are references into a heap, so that two values can be told apart that hold the same data.
-/

namespace LiveExpr

structure ObjectRef where
  id : Nat
  typeName : String
deriving DecidableEq

inductive Value
  | null
  | bool (b : Bool)
  | char (c : Char)
  | int (n : MachineInt)
  | float (p : Precision) (x : Binary p)
  | str (allocation : Nat) (text : String)
  | timestamp (t : Timestamp)
  | duration (d : Span)
  | uuid (bits : BitVec 128)
  | enum (typeName : String) (discriminant : BitVec 64)
  | array (allocation : Nat) (items : List Value)
  | object (ref : ObjectRef)
  | struct (ref : ObjectRef)

namespace Value

instance : Inhabited Value := ⟨null⟩

def isNull : Value → Bool
  | null => true
  | _ => false

def asBool? : Value → Option Bool
  | bool b => some b
  | _ => none

/-- The mathematical integer of an integer, a character or a member of an enumeration. -/
def asInt? : Value → Option Int
  | int n => some n.toInt
  | char c => some c.toNat
  | enum _ d => some d.toInt
  | _ => none

def asDouble? : Value → Option (Binary .double)
  | float .double x => some x
  | float .single x => some (x.convert .double)
  | v => v.asInt?.map (Binary.ofInt .double)

/-- The character whose code point is `n` modulo `2 ^ 32`, if there is one. -/
def charOfInt? (n : Int) : Option Char :=
  let code := (BitVec.ofInt 32 n).toNat
  if code.isValidChar then some (Char.ofNat code) else none

/-- The value of type `t` that stands for `n`: integers are taken modulo their width, floats
rounded. Null where `t` holds no numbers, and for a code point that is no character. -/
def ofInt (t : ValueType) (n : Int) : Value :=
  match t.nonNullable with
  | .int k => int (MachineInt.ofInt k n)
  | .float p => float p (Binary.ofInt p n)
  | .char => ((charOfInt? n).map char).getD null
  | .enum name => enum name (BitVec.ofInt 64 n)
  | _ => null

def i32 (n : Int) : Value :=
  int (MachineInt.ofInt .i32 n)

/-- What every value but an object has without declaring it: the `length` of strings and arrays,
and the `value` and `has_value` of what is not null. -/
def builtinMember (v : Value) (name : String) : Value :=
  match v, name with
  | str _ s, "length" => i32 s.length
  | array _ items, "length" => i32 items.length
  | null, _ | object _, _ | struct _, _ => null
  | v, "value" => v
  | _, "has_value" => bool true
  | _, _ => null

def naturalType? : Value → Option ValueType
  | bool _ => some .bool
  | char _ => some .char
  | int n => some (.int n.kind)
  | float p _ => some (.float p)
  | str .. => some .str
  | timestamp _ => some .timestamp
  | duration _ => some .duration
  | uuid _ => some .uuid
  | enum name _ => some (.enum name)
  | object r => some (.object r.typeName true)
  | struct r => some (.struct r.typeName)
  | null | array .. => none

end Value

end LiveExpr
