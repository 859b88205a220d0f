import LiveExpr.Value.Basic

/-!
Three ways to compare values: by content, by identity, and by the policy that a static type puts
on the results of a node.
-/

namespace LiveExpr

namespace Value

/-- Floats of one precision are the same value when they are equal as numbers or both not numbers.
-/
def sameFloat {p q : Precision} (x : Binary p) (y : Binary q) : Bool :=
  if h : q = p then
    let y := h ▸ y
    x.numericallyEqual y || (x.isNaN && y.isNaN)
  else
    false

mutual

/-- Equality by content, and by identity for arrays, objects and structs. An allocation holds one
content, so that the items of one array are equal too. -/
def equal : Value → Value → Bool
  | null, null => true
  | bool a, bool b => a == b
  | char a, char b => a == b
  | int a, int b => a == b
  | float _ a, float _ b => sameFloat a b
  | str _ a, str _ b => a == b
  | timestamp a, timestamp b => a == b
  | duration a, duration b => a == b
  | uuid a, uuid b => a == b
  | enum a m, enum b n => a == b && m == n
  | array a vs, array b ws => a == b && equalAll vs ws
  | object a, object b => a.id == b.id
  | struct a, struct b => a.id == b.id
  | _, _ => false

def equalAll : List Value → List Value → Bool
  | [], [] => true
  | v :: vs, w :: ws => equal v w && equalAll vs ws
  | _, _ => false

end

/-- Identity: the same allocation, with the content it holds, or the same object. Null is identical
to null, and other values have no identity at all. -/
def same : Value → Value → Bool
  | null, null => true
  | object a, object b | struct a, struct b => a.id == b.id
  | array a vs, array b ws => equal (array a vs) (array b ws)
  | str a s, str b t => a == b && s == t
  | _, _ => false

instance : BEq Value := ⟨equal⟩

end Value

/-- When a new result counts as the old one, so that nobody has to be told. -/
inductive EqualityPolicy
  | standard
  | emptyOnly
  | identity
deriving DecidableEq

namespace EqualityPolicy

/-- Immutable types compare by content, structs are equal only when both are null, and reference
types compare by identity. Strings count as immutable. -/
def ofType (t : ValueType) : EqualityPolicy :=
  match t.nonNullable with
  | .struct _ => emptyOnly
  | .array _ | .object .. | .nullable _ => identity
  | _ => standard

def valuesEqual : EqualityPolicy → Value → Value → Bool
  | standard, a, b => a == b
  | emptyOnly, a, b => a.isNull && b.isNull
  | identity, a, b => a.same b

def name : EqualityPolicy → String
  | standard => "Standard"
  | emptyOnly => "EmptyOnly"
  | identity => "Identity"

end EqualityPolicy

end LiveExpr
