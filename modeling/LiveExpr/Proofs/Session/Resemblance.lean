import LiveExpr.Proofs.Session.Unnoticed

/-!
Two worlds that one binding cannot tell apart. What goes unnoticed in either of them keeps them so; the
binding itself does the same in both; and when a change is announced, its nodes are called in the same
order, those that have given up their subscription meanwhile in neither.
-/

namespace LiveExpr

/-- Which observers a binding has. -/
def Cell.attendance (cell : Cell) : List (Nat × String × String) :=
  cell.observers.map fun x => (x.1, x.2.binding, x.2.label)

/-- What there is to a subscription but its key. -/
def Hook.tag (x : Hook) : Nat × String :=
  (x.node, x.member)

/-- The graphs differ at most in the keys of their subscriptions, and the observers in what they are
known by to the world. -/
structure Cell.Resembles (cell cell' : Cell) : Prop where
  live : ∃ watches, cell'.live = { cell.live with watches }
  watched : ∀ node, (cell'.live.watchAt node).map (·.object) = (cell.live.watchAt node).map (·.object)
  attendance : cell'.attendance = cell.attendance
  nextObserver : cell'.nextObserver = cell.nextObserver

theorem Cell.Resembles.symm {cell cell' : Cell} (h : cell.Resembles cell') : cell'.Resembles cell where
  live := by
    obtain ⟨watches, heq⟩ := h.live
    exact ⟨cell.live.watches, by rw [heq]⟩
  watched node := (h.watched node).symm
  attendance := h.attendance.symm
  nextObserver := h.nextObserver.symm

namespace World

variable {name : String} {c : Nat} {since since' : Nat → Nat} {u u' w w' : World}

theorem tidings_congr {cell cell' : Cell} (h : cell'.attendance = cell.attendance)
    (changes : List ResultChange) :
    tidings cell'.observers changes = tidings cell.observers changes := by
  have htold : ∀ (k : Cell) change,
      (k.observers.map fun x => Event.change x.2.binding x.2.label change) =
        k.attendance.map fun y => .change y.2.1 y.2.2 change := by
    intro k change
    simp [Cell.attendance]
  simp only [tidings, htold, h]

/-- The binding `name`, whose graph is in cell `c`, cannot tell the worlds apart: it is the same in both
but for keys, the objects are, and its nodes follow them in the same order, the same of them since
before `since`. -/
structure Alike (name : String) (c : Nat) (since since' : Nat → Nat) (w w' : World) : Prop where
  left : w.Calm
  right : w'.Calm
  found : w.bindingCell? name = some c
  found' : w'.bindingCell? name = some c
  cell : ∃ cell cell', w.cells[c]? = some cell ∧ w'.cells[c]? = some cell' ∧ cell.Resembles cell'
  heap : SameHeap w w'
  hooks : ∀ id, (w'.hooks c id).map (Hook.face (since' id)) = (w.hooks c id).map (Hook.face (since id))
  since : ∀ id, since id ≤ (w.notifier id).nextKey
  since' : ∀ id, since' id ≤ (w'.notifier id).nextKey
  ids : ∀ observer, w'.observerIds.lookup (name, observer) = w.observerIds.lookup (name, observer)
  news : newsOf name w'.events = newsOf name w.events

namespace Alike

theorem symm (h : Alike name c since since' w w') : Alike name c since' since w' w where
  left := h.right
  right := h.left
  found := h.found'
  found' := h.found
  cell := by
    obtain ⟨cell, cell', hc, hc', hsame⟩ := h.cell
    exact ⟨cell', cell, hc', hc, hsame.symm⟩
  heap := h.heap.symm
  hooks id := (h.hooks id).symm
  since := h.since'
  since' := h.since
  ids observer := (h.ids observer).symm
  news := h.news.symm

theorem paired (h : Alike name c since since' w w') {cell cell' : Cell}
    (hc : w.cells[c]? = some cell) (hc' : w'.cells[c]? = some cell') :
    Live.Paired c since since' w.capable cell.live w cell'.live w' := by
  obtain ⟨_, _, hfound, hfound', hsame⟩ := h.cell
  cases hc.symm.trans hfound
  cases hc'.symm.trans hfound'
  obtain ⟨-, -, ht⟩ := h.left.orderly.cells c cell hc
  obtain ⟨-, -, ht'⟩ := h.right.orderly.cells c cell' hc'
  exact ⟨hsame.live, hsame.watched, h.heap, h.hooks,
    ⟨ht.hooked, ⟨h.left.orderly.quiet, h.since⟩, fun _ => rfl⟩,
    ⟨ht'.hooked, ⟨h.right.orderly.quiet, h.since'⟩, h.heap.capable⟩⟩

/-! ## What goes unnoticed -/

theorem unnoticed (h : Alike name c since since' w w') (hu : Unnoticed name c w u) :
    Alike name c since since' u w' where
  left := hu.calm
  right := h.right
  found := by
    rw [bindingCell?, hu.bindings]
    exact h.found
  found' := h.found'
  cell := by
    obtain ⟨cell, cell', hc, hc', hsame⟩ := h.cell
    exact ⟨cell, cell', hu.cell.trans hc, hc', hsame⟩
  heap := hu.heap.symm.trans h.heap
  hooks id := by rw [h.hooks id, hu.hooks id]
  since id := Nat.le_trans (h.since id) (hu.later.nextKey id)
  since' := h.since'
  ids observer := (h.ids observer).trans (hu.ids observer).symm
  news := h.news.trans hu.news.symm

theorem unnoticed_right (h : Alike name c since since' w w') (hu : Unnoticed name c w' u') :
    Alike name c since since' w u' :=
  (h.symm.unnoticed hu).symm

/-! ## Requests to the binding -/

theorem ask (h : Alike name c since since' w w') (depth : Nat) (task : Task) :
    Alike name c since since' (w.ask (dispatch (depth + 2)) c task)
      (w'.ask (dispatch (depth + 2)) c task) := by
  obtain ⟨cell, cell', hc, hc', hsame⟩ := h.cell
  have hcalm := h.left.ask depth c task
  have hcalm' := h.right.ask depth c task
  have hentered : Live.Paired c since since' w.capable cell.live (w.entered c) cell'.live
      (w'.entered c) := (h.paired hc hc').ofObjects rfl rfl
  have hserved := task.paired (dispatch (depth + 2)) hentered
  obtain ⟨hdone, hresub⟩ := h.left.ask_concludes depth hc task
  obtain ⟨hdone', hresub'⟩ := h.right.ask_concludes depth hc' task
  generalize task.run (cellHost (dispatch (depth + 2)) c) cell.live (w.entered c) = t at *
  generalize task.run (cellHost (dispatch (depth + 2)) c) cell'.live (w'.entered c) = t' at *
  generalize w.ask (dispatch (depth + 2)) c task = v at *
  generalize w'.ask (dispatch (depth + 2)) c task = v' at *
  have hanswers := hdone.answers hresub
  have hanswers' := hdone'.answers hresub'
  have hrest := hdone.rest
  have hrest' := hdone'.rest
  have hobjects : v.objects = t.2.objects := by rw [hrest]
  have hobjects' : v'.objects = t'.2.objects := by rw [hrest']
  have hend := hserved.ofObjects hobjects hobjects'
  have htaken := hend.update (f := fun l => l.takePending.2) (fun _ _ => rfl) (fun _ => rfl)
    fun _ => rfl
  have hpending : t'.1.pending = t.1.pending := by
    obtain ⟨watches, heq⟩ := hserved.live
    rw [heq]
  refine ⟨hcalm, hcalm', ?_, ?_,
    ⟨_, _, hanswers.own hc, hanswers'.own hc',
      ⟨htaken.live, htaken.watched, hsame.attendance, hsame.nextObserver⟩⟩,
    hend.heap, hend.hooks, hend.left.safe.2, hend.right.safe.2, fun observer => ?_, ?_⟩
  · rw [hrest]
    exact h.found
  · rw [hrest']
    exact h.found'
  · rw [hrest, hrest']
    exact h.ids observer
  · rw [hrest, hrest']
    simp only [newsOf_append, h.news, hpending, tidings_congr hsame.attendance]

end Alike

/-! ## Announcements -/

/-- The keys that are still to be given out. -/
def keys (w : World) (id : Nat) : Nat :=
  (w.notifier id).nextKey

namespace Alike

theorem tags (h : Alike name c since since' w w') (id : Nat) :
    (w'.hooks c id).map Hook.tag = (w.hooks c id).map Hook.tag := by
  have htag : ∀ (s : Nat) (xs : List Hook), xs.map Hook.tag =
      (xs.map (Hook.face s)).map fun f => (f.1, f.2.1) := by
    intro s xs
    rw [List.map_map]
    rfl
  rw [htag (since' id), htag (since id), h.hooks]

/-- Where all or none of the subscriptions are marked as old, the marks make no difference. -/
theorem remark (h : Alike name c since since' w w') {s s' : Nat → Nat} (old : Bool)
    (hs : ∀ id, s id ≤ w.keys id ∧ ∀ x ∈ w.hooks c id, decide (x.key < s id) = old)
    (hs' : ∀ id, s' id ≤ w'.keys id ∧ ∀ x ∈ w'.hooks c id, decide (x.key < s' id) = old) :
    Alike name c s s' w w' := by
  have hface : ∀ {s : Nat} {xs : List Hook}, (∀ x ∈ xs, decide (x.key < s) = old) →
      xs.map (Hook.face s) = (xs.map Hook.tag).map fun t => (t.1, t.2, old) := by
    intro s xs hxs
    rw [List.map_map]
    exact List.map_congr_left fun x hx => by simp only [Hook.face, hxs x hx]; rfl
  exact { h with
    hooks := fun id => by rw [hface (hs' id).2, hface (hs id).2, h.tags]
    since := fun id => (hs id).1
    since' := fun id => (hs' id).1 }

theorem lt_keys (hw : w.Calm) {id : Nat} {x : Hook} (hx : x ∈ w.hooks c id) : x.key < w.keys id :=
  (hw.orderly.keyed id).lt_nextKey _ (mem_hooks.mp hx)

/-- From now on, what is there already counts as old. -/
theorem mark (h : Alike name c since since' w w') : Alike name c w.keys w'.keys w w' :=
  h.remark true (fun _ => ⟨Nat.le_refl _, fun _ hx => decide_eq_true (lt_keys h.left hx)⟩)
    fun _ => ⟨Nat.le_refl _, fun _ hx => decide_eq_true (lt_keys h.right hx)⟩

theorem unmark (h : Alike name c since since' w w') : Alike name c (fun _ => 0) (fun _ => 0) w w' :=
  h.remark false (fun _ => ⟨Nat.zero_le _, fun _ _ => decide_eq_false (Nat.not_lt_zero _)⟩)
    fun _ => ⟨Nat.zero_le _, fun _ _ => decide_eq_false (Nat.not_lt_zero _)⟩

end Alike

/-- A subscription that there was in `u` is there still just if the node that had it is among those
that have been there since then. -/
theorem holds_iff_face (hu : u.Calm) {cell : Cell} (hc : u.cells[c]? = some cell) (hlater : Later u w)
    {object : Nat} {x : Hook} (hx : x ∈ u.hooks c object) :
    (w.notifier object).holds x.key = true ↔
      (x.node, x.member, true) ∈ (w.hooks c object).map (Hook.face (u.keys object)) := by
  have hlt := Alike.lt_keys hu hx
  rw [mem_hooks] at hx
  obtain ⟨-, -, ht⟩ := hu.orderly.cells c cell hc
  rw [Notifier.holds_iff, List.mem_map]
  constructor
  · rintro ⟨h, hmem⟩
    obtain rfl := (hu.orderly.keyed object).unique (hlater.old object _ hmem hlt) hx
    exact ⟨x, mem_hooks.mpr hmem, by simp [Hook.face, hlt]⟩
  · rintro ⟨y, hy, hface⟩
    obtain ⟨hnode, hmember, hold⟩ : y.node = x.node ∧ y.member = x.member ∧ y.key < u.keys object := by
      simpa [Hook.face] using hface
    rw [mem_hooks] at hy
    have hy' := hlater.old object _ hy hold
    -- in `u` the node had a single subscription
    have hkeys := ((ht.hooked.hooks object _ _ _).mp hy').1
    rw [hnode, ((ht.hooked.hooks object _ _ _).mp hx).1] at hkeys
    have hkey : x.key = y.key := congrArg Watch.key (Option.some.inj hkeys)
    exact ⟨_, hkey ▸ hy⟩

/-- The turn of a handler that was there when an announcement began. -/
def turn (depth object : Nat) (changed : Option String) (w : World) (x : Nat × Handler) : World :=
  if (w.notifier object).holds x.1 then dispatch (depth + 3) (.handler x.2 changed) w else w

theorem Calm.turn_later (hw : w.Calm) (depth object : Nat) (changed : Option String)
    (x : Nat × Handler) : Later w (w.turn depth object changed x) := by
  unfold turn
  split
  · have hdone := (dispatch_obeys .bystander (depth + 3)).call (.handler x.2 changed) hw.orderly
    exact ⟨hdone.nextKey, hdone.old⟩
  · exact .refl w

theorem Calm.turns_unnoticed (hw : w.Calm) (hname : w.bindingCell? name = some c)
    (depth object : Nat) (changed : Option String) {xs : List (Nat × Handler)}
    (hxs : ∀ x ∈ xs, Handler.hook? c x = none) :
    Unnoticed name c w (xs.foldl (turn depth object changed) w) := by
  induction xs generalizing w with
  | nil => exact .refl hw
  | cons x xs ih =>
      have hturn : Unnoticed name c w (w.turn depth object changed x) := by
        unfold turn
        split
        · exact hw.handler_unnoticed hname depth changed (hxs x List.mem_cons_self)
        · exact .refl hw
      have hname' : (w.turn depth object changed x).bindingCell? name = some c := by
        rw [bindingCell?, hturn.bindings]
        exact hname
      exact hturn.trans (ih hturn.calm hname' fun y hy => hxs y (List.mem_cons_of_mem x hy))

namespace Alike

variable (hu : u.Calm) (hu' : u'.Calm) {cell cell' : Cell} (hc : u.cells[c]? = some cell)
  (hc' : u'.cells[c]? = some cell')

include hu hu' hc hc'

/-- A node of the binding has its turn in both worlds, or has lost it in both. -/
theorem turn (h : Alike name c u.keys u'.keys w w') (hl : Later u w) (hl' : Later u' w')
    (depth object : Nat) (changed : Option String) {x x' : Nat × Handler} {k k' : Hook}
    (hx : x ∈ (u.notifier object).handlers) (hx' : x' ∈ (u'.notifier object).handlers)
    (hk : Handler.hook? c x = some k) (hk' : Handler.hook? c x' = some k') (htag : k'.tag = k.tag) :
    Alike name c u.keys u'.keys (w.turn depth object changed x)
      (w'.turn depth object changed x') := by
  obtain rfl := Handler.hook?_eq_some.mp hk
  obtain rfl := Handler.hook?_eq_some.mp hk'
  obtain ⟨hnode, hmember⟩ := Prod.mk.inj htag
  have hleft := holds_iff_face hu hc hl (mem_hooks.mpr hx)
  have hright := holds_iff_face hu' hc' hl' (mem_hooks.mpr hx')
  have hholds : (w'.notifier object).holds k'.key = (w.notifier object).holds k.key := by
    rw [Bool.eq_iff_iff, hleft, hright, h.hooks, hnode, hmember]
  have hasked : ∀ v : World, dispatch (depth + 3) (.handler (.sink c k.node k.member) changed) v =
      if concerns changed k.member then
        v.ask (dispatch (depth + 2)) c (.memberChanged k.node) else v := fun _ => rfl
  simp only [World.turn, hholds, hnode, hmember, hasked]
  split
  · split
    · exact h.ask depth (.memberChanged k.node)
    · exact h
  · exact h

/-- The handlers that were there when an announcement began have their turns. Those of the binding are
in the same order in both worlds, however the others stand between them. -/
theorem turns (depth object : Nat) (changed : Option String) {xs xs' : List (Nat × Handler)}
    (hxs : ∀ x ∈ xs, x ∈ (u.notifier object).handlers)
    (hxs' : ∀ x ∈ xs', x ∈ (u'.notifier object).handlers)
    (hsame : (xs'.filterMap (Handler.hook? c)).map Hook.tag =
      (xs.filterMap (Handler.hook? c)).map Hook.tag)
    (h : Alike name c u.keys u'.keys w w') (hl : Later u w) (hl' : Later u' w') :
    Alike name c u.keys u'.keys (xs.foldl (World.turn depth object changed) w)
      (xs'.foldl (World.turn depth object changed) w') := by
  -- the second list follows the first: handlers of others are passed over in either world, and the
  -- binding's own are called together
  induction xs generalizing xs' w w' with
  | nil =>
      have hforeign : ∀ x ∈ xs', Handler.hook? c x = none := by
        simpa [List.filterMap_eq_nil_iff] using hsame
      exact h.unnoticed_right (h.right.turns_unnoticed h.found' depth object changed hforeign)
  | cons x xs ih =>
      have hrest := fun y hy => hxs y (List.mem_cons_of_mem x hy)
      rw [List.foldl_cons]
      cases hk : Handler.hook? c x with
      | none =>
          rw [List.filterMap_cons_none hk] at hsame
          have hforeign : ∀ y ∈ [x], Handler.hook? c y = none := by simpa using hk
          have hturn := h.left.turns_unnoticed h.found depth object changed hforeign
          exact ih hrest hxs' hsame (h.unnoticed hturn) (hl.trans hturn.later) hl'
      | some k =>
          rw [List.filterMap_cons_some hk, List.map_cons] at hsame
          obtain ⟨k', rest, heq, htag, hrest'⟩ := List.map_eq_cons_iff.mp hsame
          obtain ⟨before, x', after, rfl, hbefore, hk', rfl⟩ := List.filterMap_eq_cons_iff.mp heq
          have hskipped := h.right.turns_unnoticed h.found' depth object changed hbefore
          have halike := h.unnoticed_right hskipped
          have hlater := hl'.trans hskipped.later
          have hturn := halike.turn hu hu' hc hc' hl hlater depth object changed
            (hxs x List.mem_cons_self) (hxs' x' (by simp)) hk hk' htag
          rw [List.foldl_append, List.foldl_cons]
          exact ih hrest (fun y hy => hxs' y (by simp [hy])) hrest' hturn
            (hl.trans (h.left.turn_later depth object changed x))
            (hlater.trans (hskipped.calm.turn_later depth object changed x'))

omit hu hu' hc hc'

theorem announced_turns (h : Alike name c since since' w w') (depth object : Nat)
    (changed : Option String) :
    Alike name c (fun _ => 0) (fun _ => 0)
      ((w.notifier object).handlers.foldl (World.turn depth object changed) w)
      ((w'.notifier object).handlers.foldl (World.turn depth object changed) w') := by
  obtain ⟨cell, cell', hc, hc', -⟩ := h.cell
  have hturns := turns h.left h.right hc hc' depth object changed (fun _ hx => hx) (fun _ hx => hx)
    (h.tags object) h.mark (.refl w) (.refl w')
  exact hturns.unmark

end Alike

/-! ## Changes of members -/

theorem Calm.modifyObject (hw : w.Calm) (object : Nat) {f : HostObject Handler → HostObject Handler}
    (hk : ∀ o, (f o).kind = o.kind) (hn : ∀ o, (f o).notifier = o.notifier) :
    (w.modifyObject object f).Calm :=
  ⟨hw.orderly.modifyObject object hk hn fun _ _ _ _ => .inr trivial, hw.silent, hw.rested⟩

/-- The object changes in the same way in both worlds, but for who follows it. -/
theorem Alike.modifyObject (h : Alike name c since since' w w') (object : Nat)
    {f : HostObject Handler → HostObject Handler} (hk : ∀ o, (f o).kind = o.kind)
    (hn : ∀ o, (f o).notifier = o.notifier)
    (hf : ∀ o o' : HostObject Handler, o'.unfollowed = o.unfollowed →
      o'.notifier.isSome = o.notifier.isSome → (f o').unfollowed = (f o).unfollowed) :
    Alike name c since since' (w.modifyObject object f) (w'.modifyObject object f) := by
  have hnotifier := notifier_modifyObject w object hn
  have hnotifier' := notifier_modifyObject w' object hn
  refine { h with
    left := h.left.modifyObject object hk hn
    right := h.right.modifyObject object hk hn
    heap := ⟨fun id => ?_, fun id => ?_⟩
    hooks := fun id => ?_
    since := fun id => ?_
    since' := fun id => ?_ }
  · have hcapable := h.heap.capable id
    rw [objects_modifyObject, objects_modifyObject]
    split
    · obtain ⟨ho, ho'⟩ | ⟨o, o', ho, ho', heq⟩ := h.heap.lookup id
      · rw [ho, ho']
      · simp only [capable, ho, ho', Option.bind_some] at hcapable
        simp only [ho, ho', Option.map_some, hf o o' heq hcapable]
    · exact h.heap.objects id
  · rw [capable_modifyObject _ _ hn, capable_modifyObject _ _ hn]
    exact h.heap.capable id
  · rw [World.hooks, World.hooks, hnotifier, hnotifier']
    exact h.hooks id
  · rw [hnotifier]
    exact h.since id
  · rw [hnotifier']
    exact h.since' id

theorem Alike.announce (h : Alike name c since since' w w') (depth object : Nat)
    (changed : Option String) :
    Alike name c (fun _ => 0) (fun _ => 0) (w.announce (dispatch (depth + 3)) object changed)
      (w'.announce (dispatch (depth + 3)) object changed) := by
  have hkeep : ∀ o : HostObject Handler, (o.announced changed).kind = o.kind ∧
      (o.announced changed).notifier = o.notifier := by
    intro o
    rw [HostObject.announced]
    split <;> exact ⟨rfl, rfl⟩
  have hannounced := h.modifyObject object (f := (·.announced changed)) (fun o => (hkeep o).1)
    (fun o => (hkeep o).2) fun o o' heq hsome => by
      simp only [HostObject.announced, hsome]
      split
      · exact congrArg (fun o : HostObject Handler =>
          { o with unannounced := o.unannounced.filter fun m => !concerns changed m }) heq
      · exact heq
  exact hannounced.announced_turns depth object changed

theorem Alike.writeMember (h : Alike name c (fun _ => 0) (fun _ => 0) w w') (depth object : Nat)
    (member : String) (v : Value) :
    Alike name c (fun _ => 0) (fun _ => 0) (w.writeMember (dispatch (depth + 3)) object member v)
      (w'.writeMember (dispatch (depth + 3)) object member v) := by
  have hwritten := h.modifyObject object (f := (·.write member v)) (fun _ => rfl) (fun _ => rfl)
    fun o o' heq _ => congrArg (·.write member v) heq
  unfold World.writeMember
  obtain ⟨ho, ho'⟩ | ⟨o, o', ho, ho', heq⟩ := h.heap.lookup object
  · simp only [ho, ho']
    exact h
  · have hkind : o'.kind = o.kind := congrArg (·.kind) heq
    simp only [ho, ho', hkind]
    split
    · exact hwritten.announce depth object (some member)
    · exact hwritten

end World

end LiveExpr
