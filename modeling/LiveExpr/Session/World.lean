import LiveExpr.Live.State
import LiveExpr.Object.Heap
import LiveExpr.Session.Action

/-!
The state of a run: the heap of objects, the bindings with their observers, and what has been seen
to happen. A binding is a cell that its name owns; the cell outlives the name for as long as a call
into it is in progress.
-/

namespace LiveExpr

/-- What can subscribe to an object: a node of a binding, a node that only records that it was
told, a node whose binding is gone, or a reaction. -/
inductive Handler
  | sink (cell node : Nat) (member : String)
  | recorder (node : Nat) (member : String)
  | deaf
  | reaction (index : Nat)

structure Reaction where
  label : String
  script : List Action
  times : Nat
  onlyWhen : Option Result
  started : Nat

structure Observer where
  binding : String
  label : String
  reaction : Nat
deriving DecidableEq

/-- What is done about the observers of a cell: one is subscribed under a number, or a number is
unsubscribed, which removes somebody or not; the next change is handed to those there are, and one of
them is told of it. -/
inductive RosterEntry
  | subscribed (cell id : Nat) (o : Observer)
  | unsubscribed (cell id : Nat) (removed : Bool)
  | opened (cell : Nat) (change : ResultChange)
  | told (cell id : Nat) (o : Observer) (change : ResultChange)

/-- `busy` holds while the graph is propagating, `delivering` while changes of the outbox are being
handed to the observers, and `activations` counts the calls in progress. `reported` are all changes of
the result so far, oldest first; nothing that runs depends on it. -/
structure Cell where
  live : Live
  observers : List (Nat × Observer)
  nextObserver : Nat
  outbox : List ResultChange
  reported : List ResultChange
  busy : Bool
  delivering : Bool
  owned : Bool
  activations : Nat

namespace Cell

def ofLive (l : Live) : Cell where
  live := l
  observers := []
  nextObserver := 0
  outbox := []
  reported := []
  busy := false
  delivering := false
  owned := true
  activations := 0

def isDead (c : Cell) : Bool :=
  !c.owned && c.activations == 0

def debug (c : Cell) : String :=
  if c.busy then "RootBinding \x7b <propagating> \x7d" else c.live.debug

end Cell

structure Guard where
  watch : Watch
  typeName : String

def Guard.debug (g : Guard) : String :=
  "Subscription \x7b target: " ++ Text.quote g.typeName ++ ", key: SubscriptionKey(" ++
    toString g.watch.key ++ ") \x7d"

/-- `roster` is all that has been done about observers so far, oldest first; nothing that runs depends
on it. `exhausted` tells that callbacks were nested, or changes delivered, beyond the bound of the run;
what would have come then was left out. -/
structure World where
  objects : Array (HostObject Handler)
  cells : Array Cell
  reactions : Array Reaction
  prototypes : List (String × Prototype)
  bindings : List (String × Nat)
  guards : List (String × Guard)
  observerIds : List ((String × String) × Nat)
  nextAllocation : Nat
  notified : List Nat
  events : List Event
  log : List Notice
  roster : List RosterEntry
  exhausted : Bool

def bindName {κ ν : Type} [BEq κ] (table : List (κ × ν)) (name : κ) (v : ν) : List (κ × ν) :=
  (name, v) :: table.filter (·.1 != name)

namespace World

def empty : World where
  objects := #[]
  cells := #[]
  reactions := #[]
  prototypes := []
  bindings := []
  guards := []
  observerIds := []
  nextAllocation := 0
  notified := []
  events := []
  log := []
  roster := []
  exhausted := false

def note (n : Notice) (w : World) : World :=
  { w with log := w.log ++ [n] }

def record (e : Event) (w : World) : World :=
  { w with events := w.events ++ [e] }

def enter (e : RosterEntry) (w : World) : World :=
  { w with roster := w.roster ++ [e] }

def clearReports (w : World) : World :=
  { w with events := [], log := [], notified := [] }

def modifyObject (id : Nat) (f : HostObject Handler → HostObject Handler) (w : World) : World :=
  { w with objects := w.objects.modify id f }

def modifyCell (c : Nat) (f : Cell → Cell) (w : World) : World :=
  { w with cells := w.cells.modify c f }

def objectRef (w : World) (id : Nat) : ObjectRef :=
  ⟨id, (w.objects[id]?).elim "" (·.typeName)⟩

def addObject (o : HostObject Handler) (w : World) : Nat × World :=
  (w.objects.size, { w with objects := w.objects.push o })

def addReaction (label : String) (script : List Action) (times : Nat) (onlyWhen : Option Result)
    (w : World) : Nat × World :=
  (w.reactions.size, { w with reactions := w.reactions.push ⟨label, script, times, onlyWhen, 0⟩ })

def bindingCell? (w : World) (name : String) : Option Nat :=
  w.bindings.lookup name

def allocate (w : World) : Nat × World :=
  (w.nextAllocation, { w with nextAllocation := w.nextAllocation + 1 })

def notifier (id : Nat) (w : World) : Notifier Handler :=
  ((w.objects[id]?).bind (·.notifier)).getD .empty

/-- Subscribes a handler; none when the object has no notifier. -/
def subscribe (id : Nat) (handler : Handler) (w : World) : Option Nat × World :=
  match (w.objects[id]?).bind (·.notifier) with
  | none => (none, w)
  | some n =>
    let (key, n) := n.subscribe handler
    (some key, w.modifyObject id fun o => { o with notifier := some n })

/-- Tells whether there was a handler to remove. -/
def unsubscribe (watch : Watch) (w : World) : Bool × World :=
  (((w.notifier watch.object).unsubscribe watch.key).1,
    w.modifyObject watch.object fun o =>
      { o with notifier := o.notifier.map fun n => (n.unsubscribe watch.key).2 })

/-- Gives up a subscription, which may be gone already. -/
def unwatch (watch : Watch) (w : World) : World :=
  (w.unsubscribe watch).2

end World

mutual

/-- The value of a literal; texts and lists are allocated, a list after its items. -/
def Literal.instantiate : Literal → World → Value × World
  | .fixed v, w => (v, w)
  | .text s, w =>
    let (id, w) := w.allocate
    (.str id s, w)
  | .list items, w =>
    let (vs, w) := Literal.instantiateAll items w
    let (id, w) := w.allocate
    (.array id vs, w)

def Literal.instantiateAll : List Literal → World → List Value × World
  | [], w => ([], w)
  | l :: rest, w =>
    let (v, w) := l.instantiate w
    let (vs, w) := Literal.instantiateAll rest w
    (v :: vs, w)

end

def Literal.instantiateResult : Option Literal → World → Result × World
  | none, w => (none, w)
  | some l, w =>
    let (v, w) := l.instantiate w
    (some v, w)

end LiveExpr
