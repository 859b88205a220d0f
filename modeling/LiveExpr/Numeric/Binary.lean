/-!
Binary floating-point numbers of single and double precision, kept as bit patterns and computed
with exactly: a pattern is read as `m · 2 ^ e`, and an exact result is rounded once, to the
nearest pattern, a tie going to the even one.
-/

namespace LiveExpr

inductive Precision
  | single | double
deriving DecidableEq

namespace Precision

def width : Precision → Nat
  | single => 32
  | double => 64

def exponentBits : Precision → Nat
  | single => 8
  | double => 11

def fractionBits : Precision → Nat
  | single => 23
  | double => 52

def minExponent : Precision → Int
  | single => -149
  | double => -1074

def name : Precision → String
  | single => "f32"
  | double => "f64"

/-- The pattern of positive infinity; every larger one, the sign bit apart, is not a number. -/
def infinityCode (p : Precision) : Nat :=
  (Nat.pow 2 p.exponentBits - 1) * Nat.pow 2 p.fractionBits

end Precision

structure Binary (p : Precision) where
  bits : BitVec p.width
deriving DecidableEq

/-- What a bit pattern stands for; `finite negative m e` is `m · 2 ^ e` with a sign. -/
inductive Datum
  | nan
  | infinite (negative : Bool)
  | finite (negative : Bool) (significand : Nat) (exponent : Int)
deriving DecidableEq

/-- `n / d` to the nearest integer, a tie to the even one. -/
def roundQuotient (n d : Nat) : Nat :=
  let q := n / d
  let r := n % d
  if 2 * r < d then q else if d < 2 * r then q + 1 else q + q % 2

namespace Binary

variable {p : Precision}

def ofCode (negative : Bool) (code : Nat) : Binary p :=
  ⟨BitVec.ofNat p.width ((if negative then Nat.pow 2 (p.width - 1) else 0) + code)⟩

def nan : Binary p :=
  ofCode false (p.infinityCode + Nat.pow 2 (p.fractionBits - 1))

def datum (x : Binary p) : Datum :=
  let n := x.bits.toNat
  let negative := x.bits.msb
  let fraction := n % Nat.pow 2 p.fractionBits
  let exponent := n / Nat.pow 2 p.fractionBits % Nat.pow 2 p.exponentBits
  if exponent = Nat.pow 2 p.exponentBits - 1 then
    if fraction = 0 then .infinite negative else .nan
  else if exponent = 0 then
    .finite negative fraction p.minExponent
  else
    .finite negative (fraction + Nat.pow 2 p.fractionBits) (p.minExponent + (exponent - 1 : Nat))

def isNaN (x : Binary p) : Bool :=
  x.datum = .nan

/-- `m · 2 ^ e` with a sign, rounded to the nearest number; beyond the largest one, infinity. -/
def ofScaled (p : Precision) (negative : Bool) (m : Nat) (e : Int) : Binary p :=
  if m = 0 then
    ofCode negative 0
  else
    let last := max p.minExponent (e + (m.log2 : Int) - p.fractionBits)
    let rounded :=
      if last ≤ e then m * Nat.pow 2 (e - last).toNat
      else roundQuotient m (Nat.pow 2 (last - e).toNat)
    let code := (last - p.minExponent).toNat * Nat.pow 2 p.fractionBits + rounded
    ofCode negative (min code p.infinityCode)

def ofInt (p : Precision) (n : Int) : Binary p :=
  ofScaled p (n < 0) n.natAbs 0

def convert (x : Binary p) (q : Precision) : Binary q :=
  match x.datum with
  | .nan => nan
  | .infinite negative => ofCode negative q.infinityCode
  | .finite negative m e => ofScaled q negative m e

def neg (x : Binary p) : Binary p :=
  ⟨x.bits ^^^ BitVec.ofNat p.width (Nat.pow 2 (p.width - 1))⟩

def sign (negative : Bool) : Int :=
  if negative then -1 else 1

/-- The integer part, kept within `lo` and `hi`; zero for what is not a number. -/
def truncate (x : Binary p) (lo hi : Int) : Int :=
  match x.datum with
  | .nan => 0
  | .infinite negative => if negative then lo else hi
  | .finite negative m e =>
    let n := if 0 ≤ e then m * Nat.pow 2 e.toNat else m / Nat.pow 2 (-e).toNat
    max lo (min hi (sign negative * n))

def compare? (x y : Binary p) : Option Ordering :=
  match x.datum, y.datum with
  | .nan, _ | _, .nan => none
  | .infinite s, .infinite t => some (compare (sign s) (sign t))
  | .infinite s, .finite .. => some (compare (sign s) 0)
  | .finite .., .infinite t => some (compare 0 (sign t))
  | .finite s m e, .finite t n f =>
    let base := min e f
    let x : Nat := m * Nat.pow 2 (e - base).toNat
    let y : Nat := n * Nat.pow 2 (f - base).toNat
    some (compare (sign s * x) (sign t * y))

/-- Equality as numbers: zeros of both signs are equal, and what is not a number equals nothing. -/
def numericallyEqual (x y : Binary p) : Bool :=
  x.compare? y == some .eq

end Binary

end LiveExpr
