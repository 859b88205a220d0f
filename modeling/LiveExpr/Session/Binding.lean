import LiveExpr.Session.Services

/-!
Calls into the bindings. A graph that is propagating turns every other request down; the changes of
its result go to an outbox, and are delivered one after the other once the graph has settled, also
those that an observer causes meanwhile.
-/

namespace LiveExpr.World

def bury (d : Dispatcher) (c : Nat) (w : World) : World :=
  match w.cells[c]? with
  | none => w
  | some cell =>
    if cell.isDead then
      let (live, w) := cell.live.releaseWatches (cellHost d c) w
      w.modifyCell c ({ · with live })
    else
      w

/-- Runs `op` as a call into a cell, which lives at least until the call ends. -/
def activate (d : Dispatcher) (c : Nat) (op : World → World) (w : World) : World :=
  let w := w.modifyCell c fun cell => { cell with activations := cell.activations + 1 }
  let w := op w
  let w := w.modifyCell c fun cell => { cell with activations := cell.activations - 1 }
  w.bury d c

/-- Runs `op` on the graph of a cell, which is busy meanwhile; its new changes go to the outbox. -/
def propagating (c : Nat) (op : Live → World → Live × World) (live : Live) (w : World) : World :=
  let w := w.modifyCell c ({ · with busy := true })
  let (live, w) := op live w
  let (changes, live) := live.takePending
  w.modifyCell c fun cell => { cell with
    live
    busy := false
    outbox := cell.outbox ++ changes
    reported := cell.reported ++ changes }

/-- Delivers the outbox, unless that is being done already further out. -/
def flush (d : Dispatcher) (c : Nat) (w : World) : World :=
  match w.cells[c]? with
  | none => w
  | some cell =>
    if cell.delivering then
      w
    else
      let w := w.modifyCell c ({ · with delivering := true })
      let w := d (.deliver c) w
      w.modifyCell c ({ · with delivering := false })

def request (d : Dispatcher) (c : Nat) (r : Request) (op : Live → World → Live × World) (w : World) :
    World :=
  match w.cells[c]? with
  | none => w
  | some cell =>
    if cell.busy then
      w.note (.ignored r)
    else
      w.activate d c fun w => (w.propagating c op cell.live).flush d c

def bindCell (d : Dispatcher) (c : Nat) (v : Value) (w : World) : World :=
  w.request d c .bind (Live.bind (cellHost d c) v)

def unbindCell (d : Dispatcher) (c : Nat) (w : World) : World :=
  w.request d c .unbind (Live.unbind (cellHost d c))

def memberChanged (d : Dispatcher) (c node : Nat) (w : World) : World :=
  w.request d c .memberNotification (Live.memberChanged (cellHost d c) node)

/-- The oldest change of the outbox goes to the observers there are at that moment, then the next
one, until the outbox is empty. -/
def deliver (d : Dispatcher) (c : Nat) (w : World) : World :=
  match w.cells[c]? with
  | none => w
  | some cell =>
    match cell.outbox with
    | [] => w
    | change :: rest =>
      let w := (w.modifyCell c ({ · with outbox := rest })).enter (.opened c change)
      let w := cell.observers.foldl (fun w (id, o) => d (.observer c id o change) w) w
      d (.deliver c) w

def disown (d : Dispatcher) (c : Nat) (w : World) : World :=
  (w.modifyCell c ({ · with owned := false })).bury d c

/-- A new binding of a prototype, under a name that gives up the cell it had. The graph reads what
it can while it is made, but follows nothing yet. -/
def cloneBinding (d : Dispatcher) (p : Prototype) (name : String) (mode : BindingMode) (w : World) :
    World :=
  let (live, w) := Live.adopt (host d fun _ _ => .deaf) p mode w
  let old := w.bindingCell? name
  let w := { w with
    cells := w.cells.push (.ofLive live)
    bindings := bindName w.bindings name w.cells.size }
  old.elim w (w.disown d)

def dropBinding (d : Dispatcher) (name : String) (c : Nat) (w : World) : World :=
  { w with bindings := w.bindings.filter (·.1 != name) }.disown d c

def addObserver (c : Nat) (o : Observer) (w : World) : Option Nat × World :=
  match w.cells[c]? with
  | none => (none, w)
  | some cell =>
    let id := cell.nextObserver
    let w := w.modifyCell c fun cell =>
      { cell with observers := cell.observers ++ [(id, o)], nextObserver := id + 1 }
    (some id, w.enter (.subscribed c id o))

/-- Tells whether there was an observer to remove. -/
def removeObserver (c id : Nat) (w : World) : Bool × World :=
  let removed := (w.cells[c]?).any fun cell => cell.observers.any (·.1 == id)
  let w := w.modifyCell c fun cell =>
    { cell with observers := cell.observers.filter (·.1 != id) }
  (removed, w.enter (.unsubscribed c id removed))

/-- A copy of a prototype for one evaluation after the other, nobody's binding. -/
def evaluator (d : Dispatcher) (p : Prototype) (w : World) : Live × World :=
  Live.adopt (host d fun _ _ => .deaf) p .oneTime w

def evaluateWith (d : Dispatcher) (v : Value) (live : Live) (w : World) : Result × Live × World :=
  live.evaluateOnce (host d fun _ _ => .deaf) v w

end LiveExpr.World
