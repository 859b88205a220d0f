import LiveExpr.Session.Perform

/-!
A live graph driven by hand: requests go to it directly, and its nodes only record that an object
told them of a change.
-/

namespace LiveExpr

/-- With `listening` unset not even that is recorded. -/
structure Bench where
  world : World
  live : Live
  listening : Bool

namespace Bench

inductive Step
  | bind (value : Literal)
  | unbind
  | memberChanged (node : Nat)
  | takePending
  | act (a : Action)

inductive Reply
  | plain (r : LiveExpr.Reply)
  | changes (cs : List ResultChange)

def host (listening : Bool) : Host World :=
  World.host (World.dispatch World.callDepth)
    (if listening then .recorder else fun _ _ => .deaf)

def adopt (p : Prototype) (mode : BindingMode) (listening : Bool) (w : World) : Bench :=
  let (live, world) := Live.adopt (host listening) p mode w
  ⟨world, live, listening⟩

def clearReports (b : Bench) : Bench :=
  { b with world := b.world.clearReports }

def onLive (b : Bench) (op : Host World → Live → World → Live × World) : Bench :=
  let (live, world) := op (host b.listening) b.live b.world
  { b with live, world }

def step (s : Step) (b : Bench) : Reply × Bench :=
  match s with
  | .bind value =>
    let (v, world) := value.instantiate b.world
    (.plain .nothing, { b with world }.onLive (Live.bind · v))
  | .unbind => (.plain .nothing, b.onLive Live.unbind)
  | .memberChanged node => (.plain .nothing, b.onLive (Live.memberChanged · node))
  | .takePending =>
    let (changes, live) := b.live.takePending
    (.changes changes, { b with live })
  | .act a =>
    let (reply, world) := b.world.perform (World.dispatch World.callDepth) a
    (.plain reply, { b with world })

end Bench

end LiveExpr
