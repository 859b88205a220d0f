import LiveExpr.Compile
import LiveExpr.Graph.Rule
import LiveExpr.Graph.Trace
import LiveExpr.Live.Notice
import LiveExpr.Result.Ledger

/-!
A live graph: the current result of every node, the subscriptions of its member accesses, and the
result of the whole. A node whose result changes passes the change on to its readers, and each of
them only if its own result changes. Nodes are recomputed in ascending order, so that each is
recomputed at most once and after everything it reads has settled.
-/

namespace LiveExpr

/-! ## The world around a graph

A live graph reads members, follows the changes of objects, and reports to somebody. The world is a
state of any type, and every service may change it. -/

structure Watch where
  object : Nat
  key : Nat
deriving DecidableEq

structure Host (σ : Type) where
  /-- Reads a member of a value that is not null. -/
  access : (member : String) → Value → σ → Value × σ
  /-- Subscribes a node to the changes of a member; none when the object announces none. -/
  watch : ObjectRef → (node : Nat) → (member : String) → σ → Option Nat × σ
  unwatch : Watch → σ → σ
  note : Notice → σ → σ

/-! ## The agenda

The nodes that are still to be recomputed, each once and in ascending order. -/

namespace Agenda

def insert (id : Nat) : List Nat → List Nat
  | [] => [id]
  | j :: rest => if id < j then id :: j :: rest else if id = j then j :: rest else j :: insert id rest

def insertAll (ids agenda : List Nat) : List Nat :=
  ids.foldl (fun a id => insert id a) agenda

def ofList (ids : List Nat) : List Nat :=
  insertAll ids []

end Agenda

/-! ## Live graphs -/

/-- `root` is the result of the whole, settled apart from the body's while binding and unbinding,
and `pending` are its changes that nobody has taken yet, oldest first. -/
structure Live where
  graph : Graph
  parameter : Nat
  body : Nat
  mode : BindingMode
  ledger : Ledger
  watches : Array (Option Watch)
  bound : Bool
  root : Result
  pending : List ResultChange

namespace Live

variable {σ : Type}

def watchCount (l : Live) : Nat :=
  l.watches.toList.countP (·.isSome)

def watchAt (l : Live) (id : Nat) : Option Watch :=
  l.watches.getD id none

def setWatch (l : Live) (id : Nat) (w : Option Watch) : Live :=
  { l with watches := l.watches.setIfInBounds id w }

def setResult (l : Live) (id : Nat) (r : Result) : Live :=
  { l with ledger := l.ledger.set id r }

def operand (l : Live) (id k : Nat) : Result :=
  ((l.graph.inputs id)[k]?).elim none l.ledger.get

def evaluate (h : Host σ) (id : Nat) (l : Live) (s : σ) : Result × σ :=
  match l.graph.nodes[id]? with
  | none => (none, s)
  | some n =>
    match n.kind with
    | .parameter => (l.ledger.get id, s)
    | .constant v => (some v, s)
    | .memberAccess _ reads _ =>
      match Result.object? (l.operand id 0) with
      | none => (none, s)
      | some target =>
        let (v, s) := h.access reads target s
        (some v, s)
    | k => (k.combine (l.operand id 0) (l.operand id 1), s)

def observedMember? (l : Live) (id : Nat) : Option String :=
  match l.graph.nodes[id]? with
  | some ⟨.memberAccess member _ true, _, _, _, _, _⟩ => some member
  | _ => none

/-- The object whose changes a member access has to follow: while bound, the one it reads. -/
def watchTarget (l : Live) (id : Nat) : Option ObjectRef :=
  match l.bound, l.operand id 0 with
  | true, some (.object r) => some r
  | _, _ => none

/-- Moves the subscription of an observing member access to the object it reads now; nothing
happens when it is there already. -/
def rewatch (h : Host σ) (id : Nat) (l : Live) (s : σ) : Live × σ :=
  match l.observedMember? id with
  | none => (l, s)
  | some member =>
    let current := l.watchAt id
    let target := l.watchTarget id
    if current.isSome && current.map (·.object) == target.map (·.id) then
      (l, s)
    else
      let s := current.elim s (h.unwatch · s)
      match target with
      | none => (l.setWatch id none, s)
      | some r =>
        let (key, s) := h.watch r id member s
        (l.setWatch id (key.map (⟨r.id, ·⟩)), s)

/-- Stores a result that differs from the current one under the node's policy, and tells whether it
did. -/
def accept (h : Host σ) (id : Nat) (r : Result) (l : Live) (s : σ) : Bool × Live × σ :=
  let old := l.ledger.get id
  let source := l.graph.sourceOf id
  if Result.sameAs (l.graph.policyOf id) old r then
    (false, l, h.note (.unchanged id source) s)
  else
    (true, l.setResult id r, h.note (.changed id source ⟨old, r⟩) s)

def recompute (h : Host σ) (id : Nat) (l : Live) (s : σ) : Bool × Live × σ :=
  let (l, s) := l.rewatch h id s
  let (r, s) := l.evaluate h id s
  l.accept h id r s

/-- Recomputes the nodes of the agenda and the readers of every node that changes, smallest first.
-/
def sweep (h : Host σ) : Nat → List Nat → Live → σ → Live × σ
  | 0, _, l, s => (l, s)
  | _ + 1, [], l, s => (l, s)
  | steps + 1, id :: rest, l, s =>
    let (changed, l, s) := l.recompute h id s
    let agenda := if changed then Agenda.insertAll (l.graph.readersOf id) rest else rest
    sweep h steps agenda l s

/-- A sweep visits no node twice, so that there are steps enough for one with an empty agenda to be
left. -/
def propagate (h : Host σ) (dirty : List Nat) (l : Live) (s : σ) : Live × σ :=
  sweep h (l.graph.size + dirty.length) (Agenda.ofList dirty) l s

/-- Makes `target` the result of the whole; a change under the body's policy becomes pending. -/
def settleRoot (target : Result) (l : Live) : Live :=
  if Result.sameAs (l.graph.policyOf l.body) l.root target then l
  else { l with root := target, pending := l.pending ++ [⟨l.root, target⟩] }

def settleOnBody (l : Live) : Live :=
  l.settleRoot (l.ledger.get l.body)

def copy (p : Prototype) (mode : BindingMode) : Live × Nat :=
  let (parameter, c) := Cloning.clone p.graph p.parameter (.start mode .empty)
  let (body, c) := Cloning.clone p.graph p.body c
  let size := c.target.size
  ({ graph := c.target, parameter, body, mode
     ledger := Ledger.empty.ensureCapacity size
     watches := Array.replicate size none
     bound := false, root := none, pending := [] },
    c.size)

def store (h : Host σ) (t : Live × σ) (id : Nat) : Live × σ :=
  let (r, s) := t.1.evaluate h id t.2
  (t.1.setResult id r, s)

def adopt (h : Host σ) (p : Prototype) (mode : BindingMode) (s : σ) : Live × σ :=
  let (l, copied) := copy p mode
  (List.range l.graph.size).foldl (store h) (l, h.note (.cloned copied mode) s)

/-- What a binding recomputes: the readers of the parameter, and all observing nodes, as those that
start from a constant have to subscribe too. -/
def bindAgenda (l : Live) : List Nat :=
  l.graph.readersOf l.parameter ++ (List.range l.graph.size).filter l.graph.observes

def bind (h : Host σ) (v : Value) (l : Live) (s : σ) : Live × σ :=
  let s := h.note (.binding v) s
  let l := { l with bound := true }.setResult l.parameter (some v)
  let (l, s) := l.propagate h l.bindAgenda s
  (l.settleOnBody, s)

def releaseWatches (h : Host σ) (l : Live) (s : σ) : Live × σ :=
  ({ l with watches := l.watches.map fun _ => none },
    l.watches.toList.foldl (fun s w => w.elim s (h.unwatch · s)) s)

/-- Leaves the bound value and every subscription; done twice, the second time changes nothing. -/
def unbind (h : Host σ) (l : Live) (s : σ) : Live × σ :=
  let s := if l.bound then h.note (.unbinding l.watchCount) s else s
  let (l, s) := { l with bound := false }.releaseWatches h s
  let l := l.setResult l.parameter none
  let (l, s) := l.propagate h (l.graph.readersOf l.parameter) s
  (l.settleRoot none, s)

/-- The object that `node` reads has announced a change; unbound graphs do not listen. -/
def memberChanged (h : Host σ) (node : Nat) (l : Live) (s : σ) : Live × σ :=
  if l.bound then
    let (l, s) := l.propagate h [node] s
    (l.settleOnBody, s)
  else
    (l, s)

def takePending (l : Live) : List ResultChange × Live :=
  (l.pending, { l with pending := [] })

def evaluateOnce (h : Host σ) (v : Value) (l : Live) (s : σ) : Result × Live × σ :=
  let (l, s) := l.bind h v s
  let result := l.root
  let (l, s) := l.unbind h s
  (result, l.takePending.2, s)

def trace (l : Live) : String :=
  l.graph.trace l.ledger l.body

def telemetry (l : Live) : Telemetry :=
  .analyze l.graph l.parameter l.body

def debug (l : Live) : String :=
  "RootBinding \x7b bound: " ++ toString l.bound ++ ", result: " ++ Result.debug l.root ++
    ", watches: " ++ toString l.watchCount ++ " \x7d"

end Live

end LiveExpr
