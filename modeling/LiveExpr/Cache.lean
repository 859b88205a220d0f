/-!
A cache that builds what it lacks. A build may itself ask the cache, and then the entry that was
stored first is kept and handed to both; a build that fails leaves nothing behind.
-/

namespace LiveExpr

/-- `builds` counts the builds that succeeded, also those whose result came too late. -/
structure Cache (κ ν : Type) where
  entries : List (κ × ν)
  builds : Nat

namespace Cache

variable {κ ν ε : Type} [BEq κ]

def empty : Cache κ ν :=
  ⟨[], 0⟩

def size (c : Cache κ ν) : Nat :=
  c.entries.length

def lookup (c : Cache κ ν) (key : κ) : Option ν :=
  c.entries.lookup key

def store (c : Cache κ ν) (key : κ) (built : ν) : ν × Cache κ ν :=
  let builds := c.builds + 1
  match c.lookup key with
  | some first => (first, { c with builds })
  | none => (built, ⟨(key, built) :: c.entries, builds⟩)

def getOrTryBuild (key : κ) (build : Cache κ ν → Except ε ν × Cache κ ν) (c : Cache κ ν) :
    Except ε ν × Cache κ ν :=
  match c.lookup key with
  | some hit => (.ok hit, c)
  | none =>
    match build c with
    | (.error e, c) => (.error e, c)
    | (.ok built, c) =>
      let (v, c) := c.store key built
      (.ok v, c)

/-- The same with a build that cannot fail. -/
def getOrBuild (key : κ) (build : Cache κ ν → ν × Cache κ ν) (c : Cache κ ν) : ν × Cache κ ν :=
  let (answer, c) := c.getOrTryBuild (ε := Empty) key fun c =>
    let (built, c) := build c
    (.ok built, c)
  match answer with
  | .ok v => (v, c)

end Cache

/-- A request for `key` whose build first makes the `nested` requests and then ends in `outcome`.
-/
inductive CacheRequest (κ ν ε : Type)
  | mk (key : κ) (outcome : Except ε ν) (nested : List (CacheRequest κ ν ε))

namespace CacheRequest

variable {κ ν ε : Type} [BEq κ]

mutual

def run : CacheRequest κ ν ε → Cache κ ν → Except ε ν × Cache κ ν
  | mk key outcome nested => Cache.getOrTryBuild key fun c => (outcome, runAll nested c)

def runAll : List (CacheRequest κ ν ε) → Cache κ ν → Cache κ ν
  | [], c => c
  | r :: rest, c => runAll rest (r.run c).2

end

end CacheRequest

end LiveExpr
