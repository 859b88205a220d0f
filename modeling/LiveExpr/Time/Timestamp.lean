import LiveExpr.Text

/-!
Instants of the civil calendar in coordinated universal time, from seconds since 1970, and their
RFC 3339 text. A leap second is the second before it with a billion nanoseconds or more.
-/

namespace LiveExpr

structure Timestamp where
  seconds : Int
  nanoseconds : Nat
deriving DecidableEq

structure CivilDate where
  year : Int
  month : Nat
  day : Nat
deriving DecidableEq

namespace CivilDate

/-- The date `days` days after 1970-01-01. Counting years from March puts the leap day last, so
that the day of the year alone gives the month. -/
def ofDays (days : Int) : CivilDate :=
  let shifted := days + 719468
  let era := Int.fdiv shifted 146097
  let dayOfEra := (Int.fmod shifted 146097).toNat
  let yearOfEra :=
    (dayOfEra - dayOfEra / 1460 + dayOfEra / 36524 - dayOfEra / 146096) / 365
  let dayOfYear := dayOfEra - (365 * yearOfEra + yearOfEra / 4 - yearOfEra / 100)
  let fromMarch := (5 * dayOfYear + 2) / 153
  let month := if fromMarch < 10 then fromMarch + 3 else fromMarch - 9
  let year := era * 400 + yearOfEra
  ⟨if month ≤ 2 then year + 1 else year, month, dayOfYear - (153 * fromMarch + 2) / 5 + 1⟩

end CivilDate

namespace Timestamp

open Text (zeroPadded)

/-- The first second of the year -262143 and the last one of the year 262142. -/
def secondsRange : Int × Int :=
  (-8334601228800, 8210266876799)

/-- An instant of the calendar's range; a leap second only ends a minute. -/
def ofParts? (seconds : Int) (nanoseconds : Nat) : Option Timestamp :=
  if secondsRange.1 ≤ seconds ∧ seconds ≤ secondsRange.2 ∧ nanoseconds < 2000000000 ∧
      (nanoseconds < 1000000000 ∨ Int.fmod seconds 60 = 59) then
    some ⟨seconds, nanoseconds⟩
  else
    none

def compare (a b : Timestamp) : Ordering :=
  (Ord.compare a.seconds b.seconds).then (Ord.compare a.nanoseconds b.nanoseconds)

/-- Four digits for the years 0 to 9999; a sign and at least four digits for the others. -/
def yearText (year : Int) : String :=
  if 0 ≤ year ∧ year ≤ 9999 then zeroPadded 4 year.toNat
  else (if year < 0 then "-" else "+") ++ zeroPadded 4 year.natAbs

/-- No fraction, or milliseconds, microseconds or nanoseconds, the fewest places that are exact. -/
def fractionText (nanoseconds : Nat) : String :=
  if nanoseconds = 0 then ""
  else if nanoseconds % 1000000 = 0 then "." ++ zeroPadded 3 (nanoseconds / 1000000)
  else if nanoseconds % 1000 = 0 then "." ++ zeroPadded 6 (nanoseconds / 1000)
  else "." ++ zeroPadded 9 nanoseconds

def render (t : Timestamp) : String :=
  let date := CivilDate.ofDays (Int.fdiv t.seconds 86400)
  let ofDay := (Int.fmod t.seconds 86400).toNat
  let leap := if 1000000000 ≤ t.nanoseconds then 1 else 0
  yearText date.year ++ "-" ++ zeroPadded 2 date.month ++ "-" ++ zeroPadded 2 date.day ++ "T" ++
    zeroPadded 2 (ofDay / 3600) ++ ":" ++ zeroPadded 2 (ofDay / 60 % 60) ++ ":" ++
    zeroPadded 2 (ofDay % 60 + leap) ++ fractionText (t.nanoseconds - leap * 1000000000) ++ "+00:00"

end Timestamp

end LiveExpr
