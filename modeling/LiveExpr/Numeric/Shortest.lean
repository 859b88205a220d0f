import LiveExpr.Numeric.Binary

/-!
The shortest decimal that reads back as a given floating-point number: the fewest digits that lie
in the interval of reals rounding to the number, and of those the nearest, a tie going up. It is
written positionally, without an exponent.
-/

namespace LiveExpr

structure Decimal where
  digits : Nat
  exponent : Int
deriving DecidableEq

namespace Decimal

def strip : Nat → Decimal → Decimal
  | 0, d => d
  | fuel + 1, d =>
    if d.digits ≠ 0 ∧ d.digits % 10 = 0 then strip fuel ⟨d.digits / 10, d.exponent + 1⟩ else d

/-- Positional text: zeros fill up to the units, and a fraction starts with `0.`. -/
def positional (d : Decimal) : String :=
  let s := toString d.digits
  if 0 ≤ d.exponent then
    s ++ String.ofList (List.replicate d.exponent.toNat '0')
  else
    let places := (-d.exponent).toNat
    if places < s.length then
      String.ofList (s.toList.take (s.length - places)) ++ "." ++
        String.ofList (s.toList.drop (s.length - places))
    else
      "0." ++ String.ofList (List.replicate (places - s.length) '0') ++ s

end Decimal

/-- A positive number `value / unit` and the interval of reals that round to it. -/
structure RoundingInterval where
  low : Nat
  value : Nat
  high : Nat
  unit : Nat
  /-- Whether the two ends round to the number as well. -/
  closed : Bool

namespace RoundingInterval

/-- The interval of `m · 2 ^ e`: half a gap to each neighbour, the gap below a power of two being
half as wide, and the ends included when the significand is even. -/
def ofScaled (p : Precision) (m : Nat) (e : Int) : RoundingInterval :=
  let below := if m = Nat.pow 2 p.fractionBits ∧ p.minExponent < e then 1 else 2
  let scale := Nat.pow 2 (e - 2).toNat
  ⟨(4 * m - below) * scale, 4 * m * scale, (4 * m + 2) * scale, Nat.pow 2 (2 - e).toNat, m % 2 = 0⟩

def contains (i : RoundingInterval) (c : Nat) : Bool :=
  if i.closed then i.low ≤ c ∧ c ≤ i.high else i.low < c ∧ c < i.high

def onGrid (i : RoundingInterval) (k : Int) : RoundingInterval :=
  let up := Nat.pow 10 (-k).toNat
  ⟨i.low * up, i.value * up, i.high * up, i.unit * Nat.pow 10 k.toNat, i.closed⟩

/-- The multiple of `10 ^ k` in the interval that is nearest to the value, if there is one; only
the value's two neighbours on that grid can be. -/
def gridPoint? (i : RoundingInterval) (k : Int) : Option Nat :=
  let g := i.onGrid k
  let c := g.value / g.unit
  let down := c * g.unit
  let up := (c + 1) * g.unit
  match g.contains down, g.contains up with
  | true, true => if g.value - down < up - g.value then some c else some (c + 1)
  | true, false => some c
  | false, true => some (c + 1)
  | false, false => none

def topGrid (i : RoundingInterval) : Int :=
  Int.fdiv (((i.value.log2 : Int) - i.unit.log2 + 1) * 1233) 4096 + 1

/-- The first hit on the grids `10 ^ k`, `10 ^ (k - 1)`, …; the last one is taken unseen. -/
def search (i : RoundingInterval) : Nat → Int → Decimal
  | 0, k => ⟨(i.onGrid k).value / (i.onGrid k).unit, k⟩
  | fuel + 1, k =>
    match i.gridPoint? k with
    | some c => ⟨c, k⟩
    | none => search i fuel (k - 1)

/-- Seventeen digits always read back, and the top grid is at most three places too high. -/
def shortest (i : RoundingInterval) : Decimal :=
  (i.search 24 i.topGrid).strip 24

end RoundingInterval

namespace Binary

variable {p : Precision}

def render (x : Binary p) : String :=
  let signed (negative : Bool) (s : String) := if negative then "-" ++ s else s
  match x.datum with
  | .nan => "NaN"
  | .infinite negative => signed negative "inf"
  | .finite negative m e =>
    signed negative <|
      if m = 0 then "0" else (RoundingInterval.ofScaled p m e).shortest.positional

end Binary

end LiveExpr
