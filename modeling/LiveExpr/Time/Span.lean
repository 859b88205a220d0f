import LiveExpr.Text

/-!
Signed lengths of time with nanoseconds, and their ISO 8601 text in seconds alone.
-/

namespace LiveExpr

/-- `seconds` is the length rounded down, `nanoseconds` what is left, less than a billion. -/
structure Span where
  seconds : Int
  nanoseconds : Nat
deriving DecidableEq

namespace Span

def toNanoseconds (d : Span) : Int :=
  d.seconds * 1000000000 + d.nanoseconds

/-- The longest length: `2 ^ 63 - 1` milliseconds. -/
def longest : Int :=
  9223372036854775807 * 1000000

/-- A length of at most `longest` either way. -/
def ofParts? (seconds : Int) (nanoseconds : Nat) : Option Span :=
  let d : Span := ⟨seconds, nanoseconds⟩
  if nanoseconds < 1000000000 ∧ d.toNanoseconds.natAbs ≤ longest.natAbs then some d else none

def compare (a b : Span) : Ordering :=
  (Ord.compare a.seconds b.seconds).then (Ord.compare a.nanoseconds b.nanoseconds)

/-- Nine decimal places without their trailing zeros, after a point; nothing when all are zero. -/
def fractionText (nanoseconds : Nat) : String :=
  let digits := ((Text.zeroPadded 9 nanoseconds).toList.reverse.dropWhile (· = '0')).reverse
  if digits = [] then "" else "." ++ String.ofList digits

/-- A sign before the `P`, and `0D` for no time at all. -/
def render (d : Span) : String :=
  let magnitude := d.toNanoseconds.natAbs
  let body :=
    if magnitude = 0 then "0D"
    else "T" ++ toString (magnitude / 1000000000) ++ fractionText (magnitude % 1000000000) ++ "S"
  (if d.seconds < 0 then "-" else "") ++ "P" ++ body

end Span

end LiveExpr
