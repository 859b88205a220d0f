import LiveExpr.Graph.Basic
import LiveExpr.Result.Ledger

/-!
The graph below a node as a tree of lines, each with the node's current result. A node met again
is shown as a reference to the level of its first line.
-/

namespace LiveExpr

/-- A line of a trace; `lead` is what is drawn before it. -/
inductive TraceEntry
  | node (lead : String) (level id : Nat)
  | reference (lead : String) (id firstLevel : Nat)

inductive TracePosition
  | root | inner | last

namespace TracePosition

def connector : TracePosition → String
  | root => ""
  | inner => "|--"
  | last => "`--"

def continuation : TracePosition → String
  | root => ""
  | inner => "|  "
  | last => "   "

end TracePosition

structure TraceWalk where
  levels : List (Nat × Nat)
  entries : List TraceEntry

namespace Graph

/-- The inputs that a trace shows below a node; parameters and constants are leaves. -/
def tracedInputs (g : Graph) (id : Nat) : List Nat :=
  match g.nodes[id]? with
  | none => []
  | some n =>
    match n.kind with
    | .parameter | .constant _ => []
    | _ => g.inputs id

theorem lt_of_mem_tracedInputs {g : Graph} {id i : Nat} (h : i ∈ g.tracedInputs id) : i < id := by
  unfold tracedInputs at h
  split at h
  · cases h
  · split at h
    · cases h
    · cases h
    · exact lt_of_mem_inputs h

def traceFrom (g : Graph) (id level : Nat) (stem : String) (position : TracePosition)
    (w : TraceWalk) : TraceWalk :=
  let lead := stem ++ position.connector
  match w.levels.lookup id with
  | some first => { w with entries := w.entries ++ [.reference lead id first] }
  | none =>
    let w : TraceWalk := ⟨(id, level) :: w.levels, w.entries ++ [.node lead level id]⟩
    let count := (g.tracedInputs id).length
    (g.tracedInputs id).attach.zipIdx.foldl
      (fun w (⟨i, _⟩, k) =>
        let below := if k + 1 = count then TracePosition.last else .inner
        traceFrom g i (level + 1) (stem ++ position.continuation) below w)
      w
termination_by id
decreasing_by exact lt_of_mem_tracedInputs ‹_›

def traceEntries (g : Graph) (target : Nat) : List TraceEntry :=
  (g.traceFrom target 1 "" .root ⟨[], []⟩).entries

def traceRemark : NodeKind → String
  | .parameter => " (parameter)"
  | .constant _ => " (constant)"
  | k => if k.observes then " (observed)" else ""

def traceResult (l : Ledger) (id : Nat) : String :=
  "[" ++ (if id < l.size then Result.render (l.get id) else "?") ++ "]"

def traceLine (g : Graph) (l : Ledger) : TraceEntry → String
  | .reference lead _ first => lead ++ "-> (Ref to L" ++ toString first ++ ")\n"
  | .node lead level id =>
    match g.nodes[id]? with
    | none => ""
    | some n =>
      lead ++ "[L" ++ toString level ++ "] " ++ n.label ++ " : " ++ n.type.render ++ " " ++
        traceResult l id ++ traceRemark n.kind ++ "\n"

/-- A heading with the source of `target`, a rule of fifty dashes, and the lines of the tree. -/
def trace (g : Graph) (l : Ledger) (target : Nat) : String :=
  if target < g.size then
    "TRACE for `" ++ g.sourceOf target ++ "`:\n" ++
      String.ofList (List.replicate 50 '-') ++ "\n" ++
      String.join ((g.traceEntries target).map (g.traceLine l))
  else
    "Error: Invalid Node ID NodeId(" ++ toString target ++ ")\n"

end Graph

end LiveExpr
