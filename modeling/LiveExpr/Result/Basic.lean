import LiveExpr.Value.Equality
import LiveExpr.Value.Render

/-!
The result of a node: absent while something it needs is missing, or present with a value. A
present null is a result like any other.
-/

namespace LiveExpr

abbrev Result := Option Value

/-- Why a result has no value to read. -/
inductive ResultAccessError
  | absent
deriving DecidableEq

def ResultAccessError.message : ResultAccessError → String
  | absent => "the result is absent"

namespace Result

def value : Result → Except ResultAccessError Value
  | some v => .ok v
  | none => .error .absent

def ofOptional (v : Value) : Result :=
  if v.isNull then none else some v

def object? (r : Result) : Option Value :=
  r.filter (!·.isNull)

/-- Both absent, or both present and equal under the policy. -/
def sameAs (policy : EqualityPolicy) : Result → Result → Bool
  | none, none => true
  | some a, some b => policy.valuesEqual a b
  | _, _ => false

/-- The truth value of a present boolean; anything else leaves it undetermined. -/
def truth? : Result → Option Bool
  | some (.bool b) => some b
  | _ => none

def ofTruth (t : Option Bool) : Result :=
  t.map .bool

def render : Result → String
  | some v => v.quoted
  | none => "(None)"

def debug : Result → String
  | some v => "MaybeResult(Some(" ++ v.quoted ++ "))"
  | none => "MaybeResult(None)"

end Result

structure ResultChange where
  old : Result
  new : Result

def ResultChange.render (c : ResultChange) : String :=
  Result.render c.old ++ " -> " ++ Result.render c.new

end LiveExpr
