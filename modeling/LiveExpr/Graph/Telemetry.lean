import LiveExpr.Graph.Basic

/-!
Reachability and depth, and a structural summary of a graph with a parameter and a body, with its
text as an indented JSON object.
-/

namespace LiveExpr

namespace Graph

/-! ## Topology

Since inputs have smaller numbers than their readers, one pass in ascending order settles both. -/

def downstream (g : Graph) (start : List Nat) : List Nat :=
  (List.range g.size).foldl
    (fun reached id =>
      if start.contains id || (g.inputs id).any reached.contains then reached ++ [id] else reached)
    []

def depths (g : Graph) : List Nat :=
  (List.range g.size).foldl
    (fun ds id => ds ++ [((g.inputs id).map fun i => ds.getD i 0).foldl max 0 + 1])
    []

def depthOf (g : Graph) (id : Nat) : Nat :=
  g.depths.getD id 0

end Graph

/-! ## Summary -/

/-- `depth` is that of the body, and `parameterDependent` counts the nodes downstream of the
parameter. -/
structure Telemetry where
  nodeCount : Nat
  kindCounts : List (String × Nat)
  sharedNodes : Nat
  observedMembers : Nat
  depth : Nat
  parameterDependent : Nat
deriving DecidableEq

namespace Telemetry

/-- How many nodes there are of each kind that occurs, in the order of the kinds' names. -/
def countKinds (g : Graph) : List (String × Nat) :=
  NodeTag.byName.filterMap fun t =>
    let n := g.nodes.toList.countP (·.kind.tag = t)
    if n = 0 then none else some (t.name, n)

def analyze (g : Graph) (parameter body : Nat) : Telemetry where
  nodeCount := g.size
  kindCounts := countKinds g
  sharedNodes := g.shared.length
  observedMembers := g.nodes.toList.countP (·.kind.observes)
  depth := g.depthOf body
  parameterDependent := (g.downstream [parameter]).length

def field (indent : Nat) (key value : String) : String :=
  String.ofList (List.replicate indent ' ') ++ "\"" ++ key ++ "\": " ++ value

def braces (indent : Nat) (lines : List String) : String :=
  if lines.isEmpty then "\x7b\x7d"
  else
    "\x7b\n" ++ ",\n".intercalate lines ++ "\n" ++
      String.ofList (List.replicate indent ' ') ++ "\x7d"

def render (t : Telemetry) : String :=
  braces 0
    [ field 2 "node_count" (toString t.nodeCount),
      field 2 "kind_counts" (braces 2 (t.kindCounts.map fun (k, n) => field 4 k (toString n))),
      field 2 "shared_nodes" (toString t.sharedNodes),
      field 2 "observed_members" (toString t.observedMembers),
      field 2 "depth" (toString t.depth),
      field 2 "parameter_dependent" (toString t.parameterDependent) ]

end Telemetry

end LiveExpr
