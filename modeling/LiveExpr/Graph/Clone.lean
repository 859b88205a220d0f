import LiveExpr.Graph.Basic

/-!
Copying what a node reads, directly and indirectly, into another graph. One cloning session copies
every node at most once, so that nodes shared in the source stay shared in the copy.
-/

namespace LiveExpr

/-- Whether a binding follows changes for as long as it is bound, or evaluates once. -/
inductive BindingMode
  | live
  | oneTime
deriving DecidableEq

def BindingMode.name : BindingMode → String
  | live => "Default"
  | oneTime => "OneTime"

/-- The kind of a copy: in a one-time binding no member is observed. -/
def BindingMode.adapt : BindingMode → NodeKind → NodeKind
  | live, k => k
  | oneTime, k => k.oneTime

structure Cloning where
  mode : BindingMode
  copies : List (Nat × Nat)
  target : Graph

namespace Cloning

def start (mode : BindingMode) (target : Graph) : Cloning :=
  ⟨mode, [], target⟩

def size (c : Cloning) : Nat :=
  c.copies.length

def lookup (c : Cloning) (id : Nat) : Option Nat :=
  c.copies.lookup id

def place (c : Cloning) (id : Nat) (node : Node) (inputs : List Nat) : Nat × Cloning :=
  let copy := { node with kind := c.mode.adapt node.kind, inputs := inputs }
  (c.target.size, ⟨c.mode, (id, c.target.size) :: c.copies, c.target.add copy⟩)

/-- The copy of `id`: the one already made, or a new one after those of its inputs in order. -/
def clone (source : Graph) (id : Nat) (c : Cloning) : Nat × Cloning :=
  match c.lookup id with
  | some copy => (copy, c)
  | none =>
    match source.nodes[id]? with
    | none => (c.target.size, c)
    | some node =>
      let (inputs, c) := (source.inputs id).attach.foldl
        (fun (done, c) ⟨i, _⟩ =>
          let (copy, c) := clone source i c
          (done ++ [copy], c))
        ([], c)
      c.place id node inputs
termination_by id
decreasing_by exact Graph.lt_of_mem_inputs ‹_›

end Cloning

end LiveExpr
