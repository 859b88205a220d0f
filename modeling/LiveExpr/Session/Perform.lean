import LiveExpr.Session.Binding

/-!
Actions and callbacks: what each of them does to the world, and the run of a list of actions in
which callbacks may start further ones.
-/

namespace LiveExpr

namespace World

/-- Evaluates the values one after the other with one copy of the prototype. -/
def evaluateAll (d : Dispatcher) : List Value → Live → World → List Result × World
  | [], _, w => ([], w)
  | v :: rest, live, w =>
    let (r, live, w) := w.evaluateWith d v live
    let (rs, w) := evaluateAll d rest live w
    (r :: rs, w)

def react (object : Nat) (label : String) (script : List Action) (times : Nat) (w : World) :
    Option Nat × World :=
  let (r, w) := w.addReaction label script times none
  w.subscribe object (.reaction r)

/-- The subscription is kept under its name once it is made, and only then the one that had the
name is released. -/
def keepGuard (name : String) (g : Guard) (w : World) : World :=
  let old := w.guards.lookup name
  let w := { w with guards := bindName w.guards name g }
  old.elim w fun old => w.unwatch old.watch

def onBinding (name : String) (w : World) (act : Nat → Cell → World → Reply × World) :
    Reply × World :=
  match w.bindingCell? name with
  | none => (.nothing, w)
  | some c =>
    match w.cells[c]? with
    | none => (.nothing, w)
    | some cell => act c cell w

def onPrototype (name : String) (w : World) (act : Prototype → World → Reply × World) :
    Reply × World :=
  match w.prototypes.lookup name with
  | none => (.nothing, w)
  | some p => act p w

def onObject (id : Nat) (w : World) (act : HostObject Handler → World → Reply × World) :
    Reply × World :=
  match w.objects[id]? with
  | none => (.nothing, w)
  | some o => act o w

def performOnObject (d : Dispatcher) : Action → World → Reply × World
  | .set object member value, w =>
    let (v, w) := value.instantiate w
    (.nothing, w.writeMember d object member v)
  | .touch object, w => w.onObject object fun o w =>
    (.nothing, if o.kind.isBag then w.announce d object none else w)
  | .announce object member, w => w.onObject object fun o w =>
    (.nothing, if o.kind.isBag then w else w.announce d object member)
  | .getMember object member, w => w.onObject object fun o w =>
    (.result (if o.kind.isBag then o.members.get? member else none), w)
  | .readMember object member, w =>
    let (v, w) := w.readMember d object member
    (.result v, w)
  | .typeName object, w => w.onObject object fun o w => (.text o.typeName, w)
  | .isObservable object, w => w.onObject object fun o w => (.flag o.notifier.isSome, w)
  | .debugObject object, w => w.onObject object fun o w => (o.debug?.elim .nothing .text, w)
  | .subscribe object handler script times, w =>
    let (key, w) := w.react object handler script times
    (key.elim .nothing .key, w)
  | .unsubscribe object key, w => w.onObject object fun o w =>
    match o.notifier with
    | none => (.nothing, w)
    | some _ =>
      let (removed, w) := w.unsubscribe ⟨object, key⟩
      (.flag removed, w)
  | .watch object guard script times, w =>
    let (key, w) := w.react object guard script times
    match key with
    | none => (.flag false, w)
    | some key => (.flag true, w.keepGuard guard ⟨⟨object, key⟩, (w.objectRef object).typeName⟩)
  | .release guard, w =>
    match w.guards.lookup guard with
    | none => (.flag false, w)
    | some g =>
      (.flag true, { w with guards := w.guards.filter (·.1 != guard) }.unwatch g.watch)
  | .isOn guard object, w =>
    ((w.guards.lookup guard).elim .nothing fun g => .flag (g.watch.object == object), w)
  | .debugGuard guard, w => ((w.guards.lookup guard).elim .nothing (.text ·.debug), w)
  | _, w => (.nothing, w)

def performOnPrototype (d : Dispatcher) : Action → World → Reply × World
  | .compile name lambda, w =>
    match lambda.compile with
    | .error e => (.failure e, w)
    | .ok p =>
      let w := w.note (.compiled lambda.render p.graph.size p.graph.shared.length)
      (.nothing, { w with prototypes := bindName w.prototypes name p })
  | .describe name, w => w.onPrototype name fun p w => (.prototype p, w)
  | .evaluate name value, w => w.onPrototype name fun p w =>
    let (v, w) := value.instantiate w
    let (live, w) := w.evaluator d p
    let (r, _, w) := w.evaluateWith d v live
    (.result r, w)
  | .evaluateMany name values, w => w.onPrototype name fun p w =>
    let (vs, w) := Literal.instantiateAll values w
    let (live, w) := w.evaluator d p
    let (rs, w) := w.evaluateAll d vs live
    (.results rs, w)
  | .clone name binding mode, w => w.onPrototype name fun p w =>
    (.nothing, w.cloneBinding d p binding mode)
  | _, w => (.nothing, w)

def performOnBinding (d : Dispatcher) : Action → World → Reply × World
  | .bind name value, w => w.onBinding name fun c _ w =>
    let (v, w) := value.instantiate w
    (.nothing, w.bindCell d c v)
  | .unbind name, w => w.onBinding name fun c _ w => (.nothing, w.unbindCell d c)
  | .drop name, w =>
    match w.bindingCell? name with
    | none => (.flag false, w)
    | some c => (.flag true, w.dropBinding d name c)
  | .observe name observer script times onlyWhen, w => w.onBinding name fun c _ w =>
    let (onlyWhen, w) :=
      match onlyWhen with
      | none => (none, w)
      | some r =>
        let (r, w) := Literal.instantiateResult r w
        (some r, w)
    let (reaction, w) := w.addReaction observer script times onlyWhen
    match w.addObserver c ⟨name, observer, reaction⟩ with
    | (none, w) => (.nothing, w)
    | (some id, w) =>
      (.text ("ObserverId(" ++ toString id ++ ")"),
        { w with observerIds := bindName w.observerIds (name, observer) id })
  | .unobserve name observer, w => w.onBinding name fun c _ w =>
    match w.observerIds.lookup (name, observer) with
    | none => (.flag false, w)
    | some id =>
      let (removed, w) := w.removeObserver c id
      (.flag removed, w)
  | .value name, w => w.onBinding name fun _ cell w => (.reading (Result.value cell.live.root), w)
  | .trace name, w => w.onBinding name fun _ cell w => (.text cell.live.trace, w)
  | .debugBinding name, w => w.onBinding name fun _ cell w => (.text cell.debug, w)
  | .info name, w => w.onBinding name fun _ cell w =>
    (.info cell.live.mode cell.live.graph.size cell.live.telemetry, w)
  | _, w => (.nothing, w)

def perform (d : Dispatcher) (a : Action) (w : World) : Reply × World :=
  match a with
  | .set .. | .touch _ | .announce .. | .getMember .. | .readMember .. | .typeName _
  | .isObservable _ | .debugObject _ | .subscribe .. | .unsubscribe .. | .watch .. | .release _
  | .isOn .. | .debugGuard _ => performOnObject d a w
  | .compile .. | .describe _ | .evaluate .. | .evaluateMany .. | .clone .. =>
    performOnPrototype d a w
  | .bind .. | .unbind _ | .drop _ | .observe .. | .unobserve .. | .value _ | .trace _
  | .debugBinding _ | .info _ => performOnBinding d a w

/-- An action of a script; its reply is an event, unless there is nothing to show. -/
def performScripted (d : Dispatcher) (w : World) (a : Action) : World :=
  let (reply, w) := w.perform d a
  if reply.isNothing then w else w.record (.reply reply)

/-- Starts the script of a reaction once more, if it may start; `news` is the result an observer
has been told of. -/
def startScript (d : Dispatcher) (reaction : Nat) (news : Option Result) (w : World) : World :=
  match w.reactions[reaction]? with
  | none => w
  | some r =>
    let awaited := r.onlyWhen.all fun expected => news.any (· == expected)
    if r.started < r.times && awaited then
      let w := { w with reactions := w.reactions.modify reaction fun r =>
        { r with started := r.started + 1 } }
      r.script.foldl (performScripted d) w
    else
      w

def handle (d : Dispatcher) (changed : Option String) : Handler → World → World
  | .sink c node member, w => if concerns changed member then w.memberChanged d c node else w
  | .recorder node member, w =>
    if concerns changed member then { w with notified := w.notified ++ [node] } else w
  | .deaf, w => w
  | .reaction r, w =>
    let label := (w.reactions[r]?).elim "" (·.label)
    (w.record (.notified label changed)).startScript d r none

def answer (d : Dispatcher) : Call → World → World
  | .handler h changed, w => w.handle d changed h
  | .observer c id o change, w =>
    ((w.enter (.told c id o change)).record (.change o.binding o.label change)).startScript d o.reaction
      (some change.new)
  | .deliver c, w => w.deliver d c

/-- Answers calls that are nested, or follow each other in one delivery, at most `depth` deep;
what goes deeper is left out and marks the world as exhausted. -/
def dispatch : Nat → Dispatcher
  | 0, _, w => { w with exhausted := true }
  | depth + 1, call, w => answer (dispatch depth) call w

/-- Far deeper than any script of a run can get. -/
def callDepth : Nat :=
  1000000000

def step (a : Action) (w : World) : Reply × World :=
  w.clearReports.perform (dispatch callDepth) a

end World

end LiveExpr
