import LiveExpr.Session.World

/-!
The services that the world offers to the graphs in it. Announcing a change and reading an object
that announces reads may call handlers, and what they do is left to a dispatcher.
-/

namespace LiveExpr

/-- Work that is handed out while another operation is in progress: a handler to be told of a
change, an observer of a cell of a new result, or the outbox of a binding to be delivered. -/
inductive Call
  | handler (h : Handler) (changed : Option String)
  | observer (cell id : Nat) (o : Observer) (change : ResultChange)
  | deliver (cell : Nat)

abbrev Dispatcher := Call → World → World

namespace World

def announce (d : Dispatcher) (id : Nat) (changed : Option String) (w : World) : World :=
  let w := w.modifyObject id (·.announced changed)
  Notifier.dispatch (World.notifier id) (fun h w => d (.handler h changed) w) w

/-- A member of an object; an echo announces the read before the value is handed over. -/
def readMember (d : Dispatcher) (id : Nat) (member : String) (w : World) : Option Value × World :=
  match w.objects[id]? with
  | none => (none, w)
  | some o =>
    let v := o.members.get? member
    match o.kind with
    | .echo => (v, w.announce d id (some member))
    | _ => (v, w)

def writeMember (d : Dispatcher) (id : Nat) (member : String) (v : Value) (w : World) : World :=
  match w.objects[id]? with
  | none => w
  | some o =>
    let w := w.modifyObject id (·.write member v)
    match o.kind with
    | .bag => w.announce d id (some member)
    | _ => w

/-- Reads a member of any value: of an object from the heap, where a missing one is null. -/
def access (d : Dispatcher) (member : String) (v : Value) (w : World) : Value × World :=
  match v with
  | .object r | .struct r =>
    let (m, w) := w.readMember d r.id member
    (m.getD .null, w)
  | v => (v.builtinMember member, w)

def host (d : Dispatcher) (handler : (node : Nat) → (member : String) → Handler) : Host World where
  access := access d
  watch r node member w := w.subscribe r.id (handler node member)
  unwatch := unwatch
  note := note

def cellHost (d : Dispatcher) (c : Nat) : Host World :=
  host d (.sink c)

end World

end LiveExpr
