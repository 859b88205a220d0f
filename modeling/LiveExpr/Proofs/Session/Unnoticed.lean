import LiveExpr.Proofs.Live.Services
import LiveExpr.Proofs.Session.Pairing
import LiveExpr.Proofs.Session.Silence

/-!
What a binding cannot tell. In a world where callbacks do nothing, a request to another binding, and
whatever else is called that is not one of its own nodes, leaves its graph, its subscriptions and their
order, the objects and what its observers have been told as they are.
-/

namespace LiveExpr

/-- No bounds on what is set and bound. -/
def Scope.unbounded : Scope where
  binds _ _ := True
  holds _ _ _ := True
  changes _ := True

namespace World

variable {w w' w'' : World} {c : Nat} {name : String}

/-! ## Subscriptions of others -/

/-- Nothing has been added to a notifier but at the end, and there only through `handler`. -/
def Appends (handler : Nat → String → Handler) (w w' : World) : Prop :=
  ∀ id, ∃ kept new, (w'.notifier id).handlers = kept ++ new ∧
    kept.Sublist (w.notifier id).handlers ∧ ∀ x ∈ new, ∃ node member, x.2 = handler node member

theorem Appends.refl (handler : Nat → String → Handler) (w : World) : Appends handler w w :=
  fun _ => ⟨_, [], (List.append_nil _).symm, .refl _, nofun⟩

theorem host_appends (d : Dispatcher) (handler : Nat → String → Handler) (w : World) :
    (host d handler).Preserves fun u => u.Quiet ∧ Appends handler w u where
  access {u} member v hu := by
    rw [show (host d handler).access member v u = (u.read member v, u) from
      access_of_quiet hu.1 member v]
    exact hu
  watch {u} r node member hu := by
    refine ⟨(subscribe_sameHeap r.id _ u).quiet hu.1, fun id => ?_⟩
    change ∃ kept new, ((u.subscribe r.id (handler node member)).2.notifier id).handlers = _ ∧ _
    cases hc : u.capable r.id with
    | false =>
        rw [subscribe_of_not_capable hc]
        exact hu.2 id
    | true =>
        obtain ⟨kept, new, hhandlers, hkept, hnew⟩ := hu.2 id
        rw [notifier_subscribe hc]
        split
        · subst id
          refine ⟨kept, new ++ [((u.notifier r.id).nextKey, handler node member)], ?_, hkept, ?_⟩
          · simp only [Notifier.subscribe, hhandlers, List.append_assoc]
          · intro x hx
            rcases List.mem_append.mp hx with hx | hx
            · exact hnew x hx
            · exact ⟨node, member, congrArg Prod.snd (List.mem_singleton.mp hx)⟩
        · exact ⟨kept, new, hhandlers, hkept, hnew⟩
  unwatch {u} watch hu := by
    refine ⟨(unwatch_sameHeap watch u).quiet hu.1, fun id => ?_⟩
    change ∃ kept new, ((u.unwatch watch).notifier id).handlers = _ ∧ _
    obtain ⟨kept, new, hhandlers, hkept, hnew⟩ := hu.2 id
    rw [notifier_unwatch]
    split
    · refine ⟨kept.filter (·.1 != watch.key), new.filter (·.1 != watch.key), ?_,
        List.filter_sublist.trans hkept, fun x hx => hnew x (List.mem_filter.mp hx).1⟩
      simp only [Notifier.unsubscribe, hhandlers, List.filter_append]
    · exact ⟨kept, new, hhandlers, hkept, hnew⟩
  note n hu := ⟨hu.1, hu.2⟩

theorem nodup_hooks {id : Nat} (hk : (w.notifier id).Keyed) (c : Nat) : (w.hooks c id).Nodup := by
  refine List.Nodup.filterMap (fun x y k hx hy => ?_) (List.Nodup.of_map _ hk.nodup)
  rw [Handler.hook?_eq_some.mp hx, Handler.hook?_eq_some.mp hy]

/-- The subscriptions of a cell are there still, so that what is left of them is all of them. -/
theorem Resubscribed.hooks {a : Nat} (hr : Resubscribed (.sink a) w w')
    (happends : Appends (.sink a) w w') (hne : a ≠ c) {id : Nat} (hk : (w.notifier id).Keyed) :
    w'.hooks c id = w.hooks c id := by
  obtain ⟨kept, new, hhandlers, hkept, hnew⟩ := happends id
  have hforeign : new.filterMap (Handler.hook? c) = [] := by
    refine List.filterMap_eq_nil_iff.mpr fun x hx => ?_
    obtain ⟨node, member, hx⟩ := hnew x hx
    refine Option.eq_none_iff_forall_ne_some.mpr fun k hk => hne ?_
    rw [Handler.hook?_eq_some.mp hk] at hx
    injection hx with hcell
    exact hcell.symm
  have hsublist : (w'.hooks c id).Sublist (w.hooks c id) := by
    rw [World.hooks, hhandlers, List.filterMap_append, hforeign, List.append_nil]
    exact hkept.filterMap _
  have hsubset : w.hooks c id ⊆ w'.hooks c id := by
    intro x hx
    rw [mem_hooks] at hx ⊢
    refine (hr.others id x.key _ fun node member h => hne ?_).mpr hx
    injection h with hcell
    exact hcell.symm
  exact hsublist.eq_of_length_le ((nodup_hooks hk c).subperm hsubset).length_le

end World

/-! ## Tasks of a binding -/

namespace Task

theorem confined (t : Task) (d : Dispatcher) (c : Nat) :
    World.Confined c (t.run (World.cellHost d c)) := by
  cases t with
  | bind v => exact World.confined_bind d c v
  | unbind => exact World.confined_unbind d c
  | memberChanged node => exact World.confined_memberChanged d c node

/-- The same graph in two worlds does the same in both. -/
theorem paired (t : Task) (d : Dispatcher) {c : Nat} {since since' : Nat → Nat} {capable : Nat → Bool}
    {l l' : Live} {w w' : World} (hp : Live.Paired c since since' capable l w l' w') :
    Live.Paired c since since' capable (t.run (World.cellHost d c) l w).1
      (t.run (World.cellHost d c) l w).2 (t.run (World.cellHost d c) l' w').1
      (t.run (World.cellHost d c) l' w').2 := by
  cases t with
  | bind v => exact hp.bind d v
  | unbind => exact hp.unbind d
  | memberChanged node => exact hp.memberChanged d node

end Task

/-- It gives back what it is bound to. -/
def Lambda.itself : Lambda :=
  ⟨.parameter 0 .bool "p", .parameter 0 .bool "p"⟩

def Prototype.itself : Prototype :=
  Lambda.itself.compile.toOption.get rfl

/-- A binding that follows nothing, so that anything may be set and bound. -/
def Subject.bystander : Subject where
  scope := .unbounded
  name := ""
  cell := 0
  lambda := .itself
  prototype := .itself
  compiles := rfl
  followable := by
    intro id n member reads observe hn hk
    rcases id with _ | id
    · cases hn
      cases hk
    · cases hn

namespace World

variable {w w' w'' : World} {c : Nat} {name : String}

def ask (d : Dispatcher) (c : Nat) (task : Task) (w : World) : World :=
  w.request d c task.request (task.run (cellHost d c))

theorem ask_none (hc : w.cells[c]? = none) (d : Dispatcher) (task : Task) : w.ask d c task = w := by
  simp only [ask, request, hc]

/-! ## Worlds where callbacks do nothing -/

/-- Between calls nothing is running or waits to be delivered, and whatever is called back does
nothing. -/
structure Calm (w : World) : Prop where
  orderly : w.Orderly .unbounded
  silent : w.Silent
  rested : w.Rested

theorem Calm.ask_concludes (hw : w.Calm) (depth : Nat) {cell : Cell} (hc : w.cells[c]? = some cell)
    (task : Task) :
    let t := task.run (cellHost (dispatch (depth + 2)) c) cell.live (w.entered c)
    Concludes c t.1 t.2 (tidings cell.observers t.1.pending) w (w.ask (dispatch (depth + 2)) c task) ∧
      Resubscribed (.sink c) (w.entered c) t.2 := by
  obtain ⟨-, -, hpending⟩ := hw.rested c cell hc
  exact request_concludes hw.orderly hw.silent hw.rested depth hc task.request (task.confined _ c)
    (task.pending_le _ hpending _)

theorem Calm.ask (hw : w.Calm) (depth c : Nat) (task : Task) :
    (w.ask (dispatch (depth + 2)) c task).Calm := by
  cases hc : w.cells[c]? with
  | none =>
      rw [ask_none hc]
      exact hw
  | some cell =>
      obtain ⟨hdone, hresub⟩ := hw.ask_concludes depth hc task
      have hanswers := hdone.answers hresub
      refine ⟨?_, hdone.silent, hanswers.rested hc hw.rested⟩
      have hd := dispatch_obeys .bystander (depth + 2)
      cases task with
      | bind v => exact (bindCell_evolves hd hw.orderly fun _ => trivial).orderly
      | unbind => exact (unbindCell_evolves hd hw.orderly c).orderly
      | memberChanged node => exact (memberChanged_evolves hd hw.orderly c node).orderly

end World

/-! ## What goes unnoticed -/

/-- The change that an observer of the binding is told of, with the name of the observer. -/
def Event.news? (name : String) : Event → Option (String × ResultChange)
  | .change binding observer news => if binding = name then some (observer, news) else none
  | _ => none

/-- What the observers of a binding have been told, one change after the other. -/
def newsOf (name : String) (events : List Event) : List (String × ResultChange) :=
  events.filterMap (Event.news? name)

theorem newsOf_append (name : String) (es es' : List Event) :
    newsOf name (es ++ es') = newsOf name es ++ newsOf name es' :=
  List.filterMap_append

namespace World

variable {w w' w'' : World} {c : Nat} {name : String}

theorem newsOf_tidings_nil {observers : List (Nat × Observer)}
    (h : ∀ x ∈ observers, x.2.binding ≠ name) (changes : List ResultChange) :
    newsOf name (tidings observers changes) = [] := by
  refine List.filterMap_eq_nil_iff.mpr fun e he => ?_
  obtain ⟨change, -, he⟩ := List.mem_flatMap.mp he
  obtain ⟨x, hx, rfl⟩ := List.mem_map.mp he
  exact if_neg (h x hx)

/-- Keys that have been given out are not given out again. -/
structure Later (w w' : World) : Prop where
  nextKey : ∀ id, (w.notifier id).nextKey ≤ (w'.notifier id).nextKey
  old : ∀ id, ∀ x ∈ (w'.notifier id).handlers, x.1 < (w.notifier id).nextKey →
    x ∈ (w.notifier id).handlers

theorem Later.ofNotifiers (h : ∀ id, w'.notifier id = w.notifier id) : Later w w' :=
  ⟨fun id => Nat.le_of_eq (congrArg Notifier.nextKey (h id)).symm, fun id _ hx _ => h id ▸ hx⟩

theorem Later.refl (w : World) : Later w w :=
  .ofNotifiers fun _ => rfl

theorem Later.trans (h : Later w w') (h' : Later w' w'') : Later w w'' where
  nextKey id := Nat.le_trans (h.nextKey id) (h'.nextKey id)
  old id x hx hlt := h.old id x (h'.old id x hx (Nat.lt_of_lt_of_le hlt (h.nextKey id))) hlt

/-- From one calm world to another without anything that the binding `name`, whose graph is in cell `c`,
could tell. -/
structure Unnoticed (name : String) (c : Nat) (w w' : World) : Prop where
  calm : w'.Calm
  heap : SameHeap w w'
  later : Later w w'
  hooks : ∀ id, w'.hooks c id = w.hooks c id
  cell : w'.cells[c]? = w.cells[c]?
  bindings : w'.bindings = w.bindings
  ids : ∀ observer, w'.observerIds.lookup (name, observer) = w.observerIds.lookup (name, observer)
  news : newsOf name w'.events = newsOf name w.events

theorem Unnoticed.refl (hw : w.Calm) : Unnoticed name c w w :=
  ⟨hw, .refl w, .refl w, fun _ => rfl, rfl, rfl, fun _ => rfl, rfl⟩

theorem Unnoticed.trans (h : Unnoticed name c w w') (h' : Unnoticed name c w' w'') :
    Unnoticed name c w w'' where
  calm := h'.calm
  heap := h.heap.trans h'.heap
  later := h.later.trans h'.later
  hooks id := (h'.hooks id).trans (h.hooks id)
  cell := h'.cell.trans h.cell
  bindings := h'.bindings.trans h.bindings
  ids observer := (h'.ids observer).trans (h.ids observer)
  news := h'.news.trans h.news

theorem Unnoticed.ofObjects (hw : w'.Calm) (ho : w'.objects = w.objects)
    (hc : w'.cells[c]? = w.cells[c]?) (hb : w'.bindings = w.bindings)
    (hi : ∀ observer, w'.observerIds.lookup (name, observer) = w.observerIds.lookup (name, observer))
    (ht : newsOf name w'.events = newsOf name w.events) : Unnoticed name c w w' where
  calm := hw
  heap := .ofObjects ho
  later := .ofNotifiers (notifier_of_objects ho)
  hooks id := hooks_of_objects ho c id
  cell := hc
  bindings := hb
  ids := hi
  news := ht

/-- Another binding answers a request, and tells none but its own observers. -/
theorem Calm.ask_unnoticed (hw : w.Calm) (hname : w.bindingCell? name = some c) {a : Nat}
    (hne : a ≠ c) (depth : Nat) (task : Task) :
    Unnoticed name c w (w.ask (dispatch (depth + 2)) a task) := by
  cases ha : w.cells[a]? with
  | none =>
      rw [ask_none ha]
      exact .refl hw
  | some cell =>
      have hcalm := hw.ask depth a task
      obtain ⟨hdone, hresub⟩ := hw.ask_concludes depth ha task
      have hanswers := hdone.answers hresub
      have hrest := hdone.rest
      have hstart : (w.entered a).Quiet ∧ Appends (.sink a) (w.entered a) (w.entered a) :=
        ⟨hw.orderly.quiet, .refl _ _⟩
      have happends := ((task.conducts (cellHost (dispatch (depth + 2)) a)).preserves (host_appends _ _ _)
        cell.live hstart).2
      generalize task.run (cellHost (dispatch (depth + 2)) a) cell.live (w.entered a) = t at *
      generalize w.ask (dispatch (depth + 2)) a task = u at *
      have hobjects : u.objects = t.2.objects := by rw [hrest]
      have hlater : Later t.2 u := .ofNotifiers (notifier_of_objects hobjects)
      refine ⟨hcalm, hanswers.heap, Later.trans ⟨hresub.nextKey, hresub.old⟩ hlater, fun id => ?_,
        hanswers.cell_of_ne hne, ?_, fun observer => ?_, ?_⟩
      · rw [hooks_of_objects hobjects]
        exact hresub.hooks happends hne (hw.orderly.keyed id)
      · rw [hrest]
        rfl
      · rw [hrest]
        rfl
      · have hothers : ∀ x ∈ cell.observers, x.2.binding ≠ name := by
          rintro x hx rfl
          have hown := hw.orderly.named a cell ha x hx
          exact hne (Option.some.inj (hown.symm.trans hname))
        rw [hrest]
        simp only [newsOf_append, newsOf_tidings_nil hothers, List.append_nil]

/-! ## Handlers of others -/

theorem Calm.handler (hw : w.Calm) (depth : Nat) (changed : Option String) (h : Handler) :
    (dispatch (depth + 3) (.handler h changed) w).Calm := by
  have hripples := handler_ripples hw.orderly hw.silent hw.rested depth 0 changed h
  exact ⟨((dispatch_obeys .bystander (depth + 3)).call (.handler h changed) hw.orderly).orderly,
    hripples.silent, hripples.rested⟩

/-- A handler that is none of the binding's nodes is called. -/
theorem Calm.handler_unnoticed (hw : w.Calm) (hname : w.bindingCell? name = some c) (depth : Nat)
    (changed : Option String) {x : Nat × Handler} (hx : Handler.hook? c x = none) :
    Unnoticed name c w (dispatch (depth + 3) (.handler x.2 changed) w) := by
  have hcalm := hw.handler depth changed x.2
  obtain ⟨key, h⟩ := x
  change Unnoticed name c w (w.handle (dispatch (depth + 2)) changed h)
  cases h with
  | sink a node member =>
      have hne : a ≠ c := by
        rintro rfl
        simp [Handler.hook?] at hx
      rw [handle]
      split
      · exact hw.ask_unnoticed hname hne depth (.memberChanged node)
      · exact .refl hw
  | recorder node member =>
      rw [handle]
      split
      · rename_i hconcerns
        change World.Calm (if _ then _ else _) at hcalm
        rw [if_pos hconcerns] at hcalm
        exact .ofObjects hcalm rfl rfl rfl (fun _ => rfl) rfl
      · exact .refl hw
  | deaf => exact .refl hw
  | reaction r =>
      let e := Event.notified ((w.reactions[r]?).elim "" (·.label)) changed
      have hrecorded := Recites.record hw.silent e
      have hrest := (hrecorded.trans
        (startScript_recites hrecorded.silent (dispatch (depth + 2)) r none)).rest
      change World.Calm ((w.record e).startScript (dispatch (depth + 2)) r none) at hcalm
      change Unnoticed name c w ((w.record e).startScript (dispatch (depth + 2)) r none)
      generalize (w.record e).startScript (dispatch (depth + 2)) r none = u at *
      refine .ofObjects hcalm ?_ ?_ ?_ (fun _ => ?_) ?_ <;> rw [hrest]
      simp [newsOf, Event.news?, e]

end World

/-! ## Actions on other bindings -/

/-- The binding that an action is for. -/
def Action.binding? : Action → Option String
  | .bind name _ | .unbind name | .drop name | .observe name .. | .unobserve name _ | .value name
  | .trace name | .debugBinding name | .info name => some name
  | _ => none

/-- Values are set and bound as they are, changes announced, and bindings unbound and observed by
observers that only record what they are told. -/
inductive Action.Plain : Action → Prop
  | set (object : Nat) (member : String) (v : Value) : Plain (.set object member (.fixed v))
  | touch (object : Nat) : Plain (.touch object)
  | bind (name : String) (v : Value) : Plain (.bind name (.fixed v))
  | unbind (name : String) : Plain (.unbind name)
  | observe (name observer : String) : Plain (.observe name observer [] 0 none)
  | unobserve (name observer : String) : Plain (.unobserve name observer)

theorem Action.Plain.within {x : Action} (hx : x.Plain) : x.Within .unbounded := by
  cases hx with
  | set object member v => exact .set trivial fun _ => trivial
  | touch object => exact .touch object
  | bind name v => exact .bind fun _ => trivial
  | unbind name => exact .unbind name
  | observe name observer => exact .observe name observer 0 none nofun
  | unobserve name observer => exact .unobserve name observer

namespace World

variable {w w' w'' : World} {c : Nat} {name : String}

theorem Rested.modifyCell (hw : w.Rested) (c : Nat) {f : Cell → Cell}
    (hf : ∀ cell, (f cell).delivering = cell.delivering ∧ (f cell).outbox = cell.outbox ∧
      (f cell).live = cell.live) : (w.modifyCell c f).Rested := by
  intro j cell' hc
  rw [World.modifyCell, Array.getElem?_modify] at hc
  split at hc
  · obtain ⟨cell, hcell, rfl⟩ := Option.map_eq_some_iff.mp hc
    obtain ⟨hdel, hout, hlive⟩ := hf cell
    rw [hdel, hout, hlive]
    exact hw j cell hcell
  · exact hw j cell' hc

theorem perform_bind {a : Nat} {cell : Cell} {other : String} (hname : w.bindingCell? other = some a)
    (ha : w.cells[a]? = some cell) (d : Dispatcher) (v : Value) :
    (w.perform d (.bind other (.fixed v))).2 = w.ask d a (.bind v) := by
  simp only [perform, performOnBinding, onBinding, hname, ha]
  rfl

theorem perform_unbind {a : Nat} {cell : Cell} {other : String}
    (hname : w.bindingCell? other = some a) (ha : w.cells[a]? = some cell) (d : Dispatcher) :
    (w.perform d (.unbind other)).2 = w.ask d a .unbind := by
  simp only [perform, performOnBinding, onBinding, hname, ha]
  rfl

/-- What observing does, where the cell is `cell`. -/
def observed (a : Nat) (cell : Cell) (name observer : String) (w : World) : World :=
  let o : Observer := ⟨name, observer, w.reactions.size⟩
  let added := w.modifyCell a fun old => { old with
    observers := old.observers ++ [(cell.nextObserver, o)]
    nextObserver := cell.nextObserver + 1 }
  { added.enter (.subscribed a cell.nextObserver o) with
    reactions := w.reactions.push ⟨observer, [], 0, none, 0⟩
    observerIds := bindName w.observerIds (name, observer) cell.nextObserver }

theorem perform_observe {a : Nat} {cell : Cell} {other : String} (hname : w.bindingCell? other = some a)
    (ha : w.cells[a]? = some cell) (d : Dispatcher) (observer : String) :
    (w.perform d (.observe other observer [] 0 none)).2 = w.observed a cell other observer := by
  have hadded : (w.addReaction observer [] 0 none).2.cells[a]? = some cell := ha
  simp only [perform, performOnBinding, onBinding, hname, ha, addObserver, hadded]
  rfl

/-- What no longer observing does. -/
def unobserved (a : Nat) (name observer : String) (w : World) : World :=
  match w.observerIds.lookup (name, observer) with
  | none => w
  | some id => (w.removeObserver a id).2

theorem perform_unobserve {a : Nat} {cell : Cell} {other : String}
    (hname : w.bindingCell? other = some a) (ha : w.cells[a]? = some cell) (d : Dispatcher)
    (observer : String) :
    (w.perform d (.unobserve other observer)).2 = w.unobserved a other observer := by
  simp only [perform, performOnBinding, onBinding, hname, ha, unobserved]
  cases w.observerIds.lookup (other, observer) with
  | none => rfl
  | some id => rfl

/-- Nothing that is done to a binding goes beyond the calm. -/
theorem Calm.observe (hw : w.Calm) {a : Nat} {cell : Cell} {other : String}
    (hname : w.bindingCell? other = some a) (ha : w.cells[a]? = some cell) (observer : String) :
    (w.observed a cell other observer).Calm := by
  have hdone := perform_evolves (dispatch_obeys .bystander 0) hw.orderly
    (Action.Plain.observe other observer).within
  rw [perform_observe hname ha] at hdone
  refine ⟨hdone.orderly, fun r reaction hr => ?_,
    hw.rested.modifyCell a fun _ => ⟨rfl, rfl, rfl⟩⟩
  simp only [observed, Array.getElem?_push] at hr
  split at hr
  · cases hr
    rfl
  · exact hw.silent r reaction hr

theorem Calm.unobserve (hw : w.Calm) {a : Nat} {cell : Cell} {other : String}
    (hname : w.bindingCell? other = some a) (ha : w.cells[a]? = some cell) (observer : String) :
    (w.unobserved a other observer).Calm := by
  have hdone := perform_evolves (dispatch_obeys .bystander 0) hw.orderly
    (Action.Plain.unobserve other observer).within
  rw [perform_unobserve hname ha] at hdone
  refine ⟨hdone.orderly, ?_, ?_⟩ <;> unfold unobserved <;> split
  · exact hw.silent
  · exact hw.silent
  · exact hw.rested
  · exact hw.rested.modifyCell a fun _ => ⟨rfl, rfl, rfl⟩

theorem perform_of_free {x : Action} {other : String} (hb : x.binding? = some other)
    (hnone : w.bindingCell? other = none ∨
      ∃ a, w.bindingCell? other = some a ∧ w.cells[a]? = none) (hx : x.Plain) (d : Dispatcher) :
    (w.perform d x).2 = w := by
  cases hx <;> cases hb <;> rcases hnone with hname | ⟨a, hname, ha⟩ <;>
    simp only [perform, performOnBinding, onBinding, *]

/-- Whatever is done to another binding goes unnoticed. -/
theorem Calm.other_unnoticed (hw : w.Calm) (hname : w.bindingCell? name = some c) (depth : Nat)
    {x : Action} (hx : x.Plain) {other : String} (hb : x.binding? = some other) (hne : other ≠ name) :
    Unnoticed name c w (w.perform (dispatch (depth + 2)) x).2 := by
  cases hother : w.bindingCell? other with
  | none =>
      rw [perform_of_free hb (.inl hother) hx]
      exact .refl hw
  | some a =>
      have hcell : a ≠ c := by
        rintro rfl
        exact hne (hw.orderly.distinct other name a hother hname)
      have hlt := hw.orderly.names other a hother
      have ha := Array.getElem?_eq_getElem hlt
      generalize w.cells[a] = cell at ha
      cases hx with
      | set | touch => cases hb
      | bind _ v =>
          cases hb
          rw [perform_bind hother ha]
          exact hw.ask_unnoticed hname hcell depth (.bind v)
      | unbind _ =>
          cases hb
          rw [perform_unbind hother ha]
          exact hw.ask_unnoticed hname hcell depth .unbind
      | observe _ observer =>
          cases hb
          rw [perform_observe hother ha]
          refine .ofObjects (hw.observe hother ha observer) rfl (cells_modifyCell_of_ne hcell _) rfl
            (fun o => ?_) rfl
          rw [observed, lookup_bindName, if_neg fun h => hne (congrArg Prod.fst h).symm]
      | unobserve _ observer =>
          cases hb
          have hcalm := hw.unobserve hother ha observer
          rw [perform_unobserve hother ha]
          unfold unobserved at hcalm ⊢
          split at hcalm
          · exact .refl hw
          · exact .ofObjects hcalm rfl (cells_modifyCell_of_ne hcell _) rfl (fun _ => rfl) rfl

end World

end LiveExpr
