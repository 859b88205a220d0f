import LiveExpr.Proofs.Session.Agreement
import LiveExpr.Proofs.Live.Services

/-!
A run as one binding sees it. Whatever runs, to any depth of calls, is for the cell of a binding a
course of steps: most of them pass the cell by, and the others are requests that its graph answers,
one after the other. What a step preserves is therefore preserved by everything.
-/

namespace LiveExpr

/-- The action binds the cell, in the world as it is. -/
def Action.Rebinds (c : Nat) (w : World) : Action → Prop
  | .bind name _ => w.bindingCell? name = some c
  | _ => False

namespace World

variable {c : Nat} {d : Dispatcher} {w w' w'' : World} {x : Prop}

theorem lookup_of_filter {table : List (String × Nat)} {name key : String} {v : Nat}
    (h : (table.filter (·.1 != name)).lookup key = some v) : table.lookup key = some v := by
  by_cases hkey : key = name
  · have hnone : (table.filter (·.1 != name)).lookup key = none := by
      rw [List.lookup_eq_none_iff]
      intro y hy
      have hother := (List.mem_filter.mp hy).2
      rw [hkey]
      exact bne_iff_ne.mpr (bne_iff_ne.mp hother).symm
    rw [hnone] at h
    cases h
  · have hother := lookup_bindName table name key 0
    rw [bindName, List.lookup_cons, beq_false_of_ne hkey, if_neg hkey] at hother
    exact hother.symm.trans h

/-! ## Steps that pass by -/

/-- Cells stay, `c` gets no further name, and scripts stay as they are but may be started. -/
structure Grows (c : Nat) (w w' : World) : Prop where
  size : w.cells.size ≤ w'.cells.size
  names : ∀ name, w'.bindingCell? name = some c → w.bindingCell? name = some c
  reactions : ∀ (r : Nat) (old : Reaction), w.reactions[r]? = some old →
    ∃ new : Reaction, w'.reactions[r]? = some new ∧ new.script = old.script ∧
      old.started ≤ new.started

theorem Grows.ofFields (hc : w'.cells.size = w.cells.size) (hb : w'.bindings = w.bindings)
    (hr : w'.reactions = w.reactions) : Grows c w w' where
  size := Nat.le_of_eq hc.symm
  names name h := by rwa [bindingCell?, ← hb]
  reactions r old h := ⟨old, by rwa [hr], rfl, Nat.le_refl _⟩

theorem Grows.refl (c : Nat) (w : World) : Grows c w w :=
  .ofFields rfl rfl rfl

theorem Grows.trans (h : Grows c w w') (h' : Grows c w' w'') : Grows c w w'' where
  size := Nat.le_trans h.size h'.size
  names name hname := h.names name (h'.names name hname)
  reactions r old hold := by
    obtain ⟨mid, hmid, hscript, hstarted⟩ := h.reactions r old hold
    obtain ⟨new, hnew, hscript', hstarted'⟩ := h'.reactions r mid hmid
    exact ⟨new, hnew, hscript'.trans hscript, Nat.le_trans hstarted hstarted'⟩

theorem Grows.lt_size (h : Grows c w w') (hc : c < w.cells.size) : c < w'.cells.size :=
  Nat.lt_of_lt_of_le hc h.size

theorem Grows.rebinds {a : Action} (h : Grows c w w') (ha : a.Rebinds c w') : a.Rebinds c w := by
  cases a with
  | bind name value => exact h.names name ha
  | _ => exact ha

/-- The graph of cell `c` is left alone, and nothing is registered for it. -/
structure Bypasses (c : Nat) (w w' : World) : Prop extends Grows c w w' where
  cell : ∀ cell : Cell, w.cells[c]? = some cell → ∃ cell' : Cell, w'.cells[c]? = some cell' ∧
    cell'.live = cell.live ∧ cell'.busy = cell.busy ∧ cell'.reported = cell.reported
  handlers : ∀ id key node member, (key, .sink c node member) ∈ (w'.notifier id).handlers →
    (key, .sink c node member) ∈ (w.notifier id).handlers

namespace Bypasses

theorem ofFields (ho : w'.objects = w.objects) (hc : w'.cells = w.cells)
    (hb : w'.bindings = w.bindings) (hr : w'.reactions = w.reactions) : Bypasses c w w' where
  toGrows := .ofFields (by rw [hc]) hb hr
  cell cell h := ⟨cell, by rwa [hc], rfl, rfl, rfl⟩
  handlers id key node member h := by rwa [notifier_of_objects ho] at h

theorem note (n : Notice) (w : World) : Bypasses c w (w.note n) :=
  .ofFields rfl rfl rfl rfl

theorem record (e : Event) (w : World) : Bypasses c w (w.record e) :=
  .ofFields rfl rfl rfl rfl

theorem enter (h : Bypasses c w w') (e : RosterEntry) : Bypasses c w (w'.enter e) :=
  ⟨⟨h.size, h.names, h.reactions⟩, h.cell, h.handlers⟩

theorem modifyObject (w : World) (id : Nat) {f : HostObject Handler → HostObject Handler}
    (hf : ∀ o, (f o).notifier = o.notifier) : Bypasses c w (w.modifyObject id f) where
  toGrows := .ofFields rfl rfl rfl
  cell cell h := ⟨cell, h, rfl, rfl, rfl⟩
  handlers j key node member h := by rwa [notifier_modifyObject w id hf] at h

theorem unwatch (watch : Watch) (w : World) : Bypasses c w (w.unwatch watch) where
  toGrows := .ofFields rfl rfl rfl
  cell cell h := ⟨cell, h, rfl, rfl, rfl⟩
  handlers _ _ _ _ h := (mem_unwatch.mp h).1

theorem subscribe (w : World) (id : Nat) {handler : Handler}
    (hh : ∀ node member, handler ≠ .sink c node member) :
    Bypasses c w (w.subscribe id handler).2 := by
  cases hcapable : w.capable id with
  | false =>
      rw [subscribe_of_not_capable hcapable]
      exact .ofFields rfl rfl rfl rfl
  | true =>
      refine ⟨?_, fun cell h => ⟨cell, ?_, rfl, rfl, rfl⟩, fun j key node member h => ?_⟩
      · rw [subscribe_of_capable hcapable]
        exact .ofFields rfl rfl rfl
      · rwa [subscribe_of_capable hcapable]
      · rcases (mem_subscribe hcapable).mp h with h | ⟨-, heq⟩
        · exact h
        · exact absurd (Prod.mk.inj heq).2.symm (hh node member)

theorem modifyCell (w : World) (c' : Nat) {f : Cell → Cell}
    (hf : c' = c → ∀ cell, (f cell).live = cell.live ∧ (f cell).busy = cell.busy ∧
      (f cell).reported = cell.reported) : Bypasses c w (w.modifyCell c' f) where
  toGrows := .ofFields Array.size_modify rfl rfl
  cell cell h := by
    by_cases hc : c' = c
    · subst c'
      exact ⟨f cell, cells_modifyCell h f, hf rfl cell⟩
    · exact ⟨cell, (cells_modifyCell_of_ne hc f).trans h, rfl, rfl, rfl⟩
  handlers _ _ _ _ h := h

theorem addReaction (label : String) (script : List Action) (times : Nat) (onlyWhen : Option Result)
    (w : World) : Bypasses c w (w.addReaction label script times onlyWhen).2 where
  size := Nat.le_refl _
  names _ h := h
  reactions r old h := by
    have hlt := (Array.getElem?_eq_some_iff.mp h).1
    exact ⟨old, by simpa [World.addReaction, Array.getElem?_push, Nat.ne_of_lt hlt] using h, rfl,
      Nat.le_refl _⟩
  cell cell h := ⟨cell, h, rfl, rfl, rfl⟩
  handlers _ _ _ _ h := h

theorem started (w : World) (i : Nat) :
    Bypasses c w { w with
      reactions := w.reactions.modify i fun r => { r with started := r.started + 1 } } where
  size := Nat.le_refl _
  names _ h := h
  reactions r old h := by
    by_cases hi : i = r
    · subst i
      exact ⟨{ old with started := old.started + 1 }, by simp [Array.getElem?_modify, h], rfl,
        Nat.le_succ _⟩
    · exact ⟨old, by simp [Array.getElem?_modify, hi, h], rfl, Nat.le_refl _⟩
  cell cell h := ⟨cell, h, rfl, rfl, rfl⟩
  handlers _ _ _ _ h := h

theorem instantiate (l : Literal) (w : World) : Bypasses c w (l.instantiate w).2 := by
  obtain ⟨n, hn⟩ := l.instantiate_keeps w
  rw [hn]
  exact .ofFields rfl rfl rfl rfl

theorem instantiateAll (ls : List Literal) (w : World) :
    Bypasses c w (Literal.instantiateAll ls w).2 := by
  obtain ⟨n, hn⟩ := Literal.instantiateAll_keeps ls w
  rw [hn]
  exact .ofFields rfl rfl rfl rfl

end Bypasses

/-! ## Courses -/

/-- A run from `w`, as cell `c` sees it: its graph is passed by, or answers requests that it may be
given, or lets go of what it follows once the cell is dead. -/
inductive Course (c : Nat) (may : Task → Prop) (w : World) : World → Prop
  | refl : Course c may w w
  | bypass {u v : World} : Course c may w u → Bypasses c u v → Course c may w v
  | answer {u : World} {cell : Cell} (depth : Nat) {t : Task} : Course c may w u → may t →
      u.cells[c]? = some cell → cell.busy = false →
      Course c may w (u.propagating c (t.run (cellHost (dispatch depth) c)) cell.live)
  | bury {u : World} (d : Dispatcher) : Course c may w u → Course c may w (u.bury d c)

theorem Course.trans {may : Task → Prop} (h : Course c may w w') (h' : Course c may w' w'') :
    Course c may w w'' := by
  induction h' with
  | refl => exact h
  | bypass _ hstep ih => exact .bypass ih hstep
  | answer depth _ hmay hcell hidle ih => exact .answer depth ih hmay hcell hidle
  | bury d _ ih => exact .bury d ih

/-- A script that binds the cell has been started. -/
def Rebound (c : Nat) (w w' : World) : Prop :=
  ∃ (r : Nat) (reaction : Reaction), w'.reactions[r]? = some reaction ∧
    (w.reactions[r]?).elim 0 (·.started) < reaction.started ∧ ∃ a ∈ reaction.script, a.Rebinds c w

theorem Rebound.before (h : Grows c w w') (h' : Rebound c w' w'') : Rebound c w w'' := by
  obtain ⟨r, reaction, hr, hstarted, a, ha, hbinds⟩ := h'
  refine ⟨r, reaction, hr, Nat.lt_of_le_of_lt ?_ hstarted, a, ha, h.rebinds hbinds⟩
  cases hold : w.reactions[r]? with
  | none => exact Nat.zero_le _
  | some old =>
      obtain ⟨new, hnew, -, hle⟩ := h.reactions r old hold
      rwa [hnew]

theorem Rebound.after (h : Rebound c w w') (h' : Grows c w' w'') : Rebound c w w'' := by
  obtain ⟨r, reaction, hr, hstarted, a, ha, hbinds⟩ := h
  obtain ⟨new, hnew, hscript, hle⟩ := h'.reactions r reaction hr
  exact ⟨r, new, hnew, Nat.lt_of_lt_of_le hstarted hle, a, hscript ▸ ha, hbinds⟩

/-- What happens is a course of cell `c`, and unless that is excused, the graph is bound only by
scripts that are started. -/
structure Passes (c : Nat) (x : Prop) (w w' : World) : Prop extends Grows c w w' where
  course : Course c (fun _ => True) w w'
  bindless : ¬ x → Course c (·.binds = false) w w' ∨ Rebound c w w'

theorem Bypasses.passes (h : Bypasses c w w') : Passes c x w w' :=
  ⟨h.toGrows, .bypass .refl h, fun _ => .inl (.bypass .refl h)⟩

namespace Passes

theorem refl (w : World) : Passes c x w w :=
  ⟨.refl c w, .refl, fun _ => .inl .refl⟩

theorem trans (h : Passes c x w w') (h' : Passes c x w' w'') :
    Passes c x w w'' where
  toGrows := h.toGrows.trans h'.toGrows
  course := h.course.trans h'.course
  bindless hx := by
    rcases h.bindless hx with hcourse | hbound
    · rcases h'.bindless hx with hcourse' | hbound
      · exact .inl (hcourse.trans hcourse')
      · exact .inr (hbound.before h.toGrows)
    · exact .inr (hbound.after h'.toGrows)

theorem mono {y : Prop} (h : Passes c x w w') (hx : x → y) : Passes c y w w' :=
  ⟨h.toGrows, h.course, fun hx' => h.bindless fun hx'' => hx' (hx hx'')⟩

theorem foldl {α : Type} {f : World → α → World} (xs : List α) (hw : Grows c w w')
    (hf : ∀ {u}, Grows c w u → ∀ y ∈ xs, Passes c x u (f u y)) :
    Passes c x w' (xs.foldl f w') := by
  induction xs generalizing w' with
  | nil => exact .refl w'
  | cons y ys ih =>
      have hy := hf hw y List.mem_cons_self
      exact hy.trans (ih (hw.trans hy.toGrows) fun hu z hz => hf hu z (List.mem_cons_of_mem y hz))

end Passes

/-! ## Services -/

/-- What is handed out to any depth of calls is a course. -/
structure Guides (c : Nat) (d : Dispatcher) : Prop where
  depth : ∃ depth, d = dispatch depth
  call : ∀ (call : Call) {w}, c < w.cells.size → Passes c False w (d call w)

theorem Guides.passes (hd : Guides c d) (call : Call) (hc : c < w.cells.size) :
    Passes c x w (d call w) :=
  (hd.call call hc).mono False.elim

section

variable (hd : Guides c d) (hc : c < w.cells.size)

include hd hc

/-- Also as long as only some of the handlers have been told. -/
theorem tell_passes (id : Nat) (changed : Option String) (handlers : List (Nat × Handler)) :
    Passes c x w (handlers.foldl
      (fun w y => if (w.notifier id).holds y.1 then d (.handler y.2 changed) w else w)
      (w.modifyObject id (·.announced changed))) := by
  have hannounced : Bypasses c w (w.modifyObject id (·.announced changed)) := by
    refine .modifyObject w id fun o => ?_
    rw [HostObject.announced]
    split <;> rfl
  refine hannounced.passes.trans (.foldl _ hannounced.toGrows fun {u} hu y _ => ?_)
  split
  · exact hd.passes _ (hu.lt_size hc)
  · exact .refl u

theorem announce_passes (id : Nat) (changed : Option String) :
    Passes c x w (w.announce d id changed) :=
  tell_passes hd hc id changed _

theorem readMember_passes (id : Nat) (member : String) :
    Passes c x w (w.readMember d id member).2 := by
  unfold readMember
  split
  · exact .refl w
  · simp only
    split
    · exact announce_passes hd hc id (some member)
    · exact .refl w

theorem writeMember_passes (id : Nat) (member : String) (v : Value) :
    Passes c x w (w.writeMember d id member v) := by
  unfold writeMember
  split
  · exact .refl w
  · have hwritten : Bypasses c w (w.modifyObject id (·.write member v)) :=
      .modifyObject w id fun _ => rfl
    simp only
    split
    · exact hwritten.passes.trans (announce_passes hd (hwritten.lt_size hc) id (some member))
    · exact hwritten.passes

theorem access_passes (member : String) (v : Value) :
    Passes c x w (w.access d member v).2 := by
  cases v with
  | object r | struct r => exact readMember_passes hd hc r.id member
  | _ => exact .refl w

/-- Graphs that subscribe for others pass the cell by, whatever they do. -/
theorem host_passes (handler : Nat → String → Handler)
    (hh : ∀ node member n m, handler node member ≠ .sink c n m) :
    (World.host d handler).Preserves (Passes c x w) where
  access member v hu := hu.trans (access_passes hd (hu.lt_size hc) member v)
  watch r node member hu := hu.trans (Bypasses.subscribe _ r.id (hh node member)).passes
  unwatch watch hu := hu.trans (Bypasses.unwatch watch _).passes
  note n hu := hu.trans (Bypasses.note n _).passes

theorem host_grows (handler : Nat → String → Handler) :
    (World.host d handler).Preserves (Grows c w) where
  access member v hu := hu.trans (access_passes (x := False) hd (hu.lt_size hc) member v).toGrows
  watch r node member hu := by
    refine hu.trans ?_
    change Grows c _ (subscribe r.id (handler node member) _).2
    unfold subscribe
    split
    · exact .refl c _
    · exact .ofFields rfl rfl rfl
  unwatch watch hu := hu.trans (.ofFields rfl rfl rfl)
  note n hu := hu.trans (.ofFields rfl rfl rfl)

/-! ## Requests -/

theorem propagating_other {c' : Nat} (hne : c' ≠ c) {op : Live → World → Live × World}
    (hop : (cellHost d c').Conducts op) (l : Live) : Passes c x w (w.propagating c' op l) := by
  have hengaged : Bypasses c w (w.engaged c') := .modifyCell w c' fun h => absurd h hne
  have hother : ∀ node member n m, Handler.sink c' node member ≠ .sink c n m := by
    intro node member n m h
    cases h
    exact hne rfl
  have hdone := hop.preserves (host_passes (x := x) hd (hengaged.lt_size hc) (.sink c') hother) l
    (.refl _)
  rw [propagating_eq]
  exact (hengaged.passes.trans hdone).trans
    (Bypasses.modifyCell _ c' fun h => absurd h hne).passes

theorem propagating_grows {op : Live → World → Live × World} (hop : (cellHost d c).Conducts op)
    (l : Live) : Grows c w (w.propagating c op l) := by
  have hengaged : Grows c w (w.engaged c) := .ofFields Array.size_modify rfl rfl
  have hdone := hop.preserves (host_grows hd (hengaged.lt_size hc) (.sink c)) l (.refl c _)
  rw [propagating_eq]
  exact (hengaged.trans hdone).trans (.ofFields Array.size_modify rfl rfl)

theorem propagating_own {cell : Cell} (hcell : w.cells[c]? = some cell) (hidle : cell.busy = false)
    (t : Task) :
    Passes c (t.binds = true) w (w.propagating c (t.run (cellHost d c)) cell.live) := by
  have hgrows := propagating_grows hd hc (t.conducts (cellHost d c)) cell.live
  obtain ⟨depth, rfl⟩ := hd.depth
  refine ⟨hgrows, .answer depth .refl trivial hcell hidle, fun hbinds => .inl ?_⟩
  exact .answer depth .refl (by simpa using hbinds) hcell hidle

theorem flush_passes (c' : Nat) : Passes c x w (w.flush d c') := by
  unfold flush
  split
  · exact .refl w
  · split
    · exact .refl w
    · have hstart : Bypasses c w (w.modifyCell c' ({ · with delivering := true })) :=
        .modifyCell w c' fun _ _ => ⟨rfl, rfl, rfl⟩
      have hcall := hd.passes (x := x) (.deliver c') (hstart.lt_size hc)
      refine (hstart.passes.trans hcall).trans (Bypasses.passes ?_)
      exact .modifyCell _ c' fun _ _ => ⟨rfl, rfl, rfl⟩

omit hd hc

theorem bury_grows (d : Dispatcher) (c' : Nat) (w : World) : Grows c w (w.bury d c') := by
  unfold bury
  split
  · exact .refl c w
  · simp only [cellHost, Live.releaseWatches_eq]
    split
    · rename_i cell _ _
      obtain ⟨-, hrest, -⟩ := @release_keeps cell.live.watches.toList w
      rw [hrest]
      exact .ofFields Array.size_modify rfl rfl
    · exact .refl c w

theorem bury_other (d : Dispatcher) {c' : Nat} (hne : c' ≠ c) (w : World) :
    Bypasses c w (w.bury d c') := by
  refine ⟨bury_grows d c' w, fun cell h => ⟨cell, ?_, rfl, rfl, rfl⟩, fun id key node member h => ?_⟩
  · unfold bury
    split
    · exact h
    · simp only [cellHost, Live.releaseWatches_eq]
      split
      · rename_i dead _ _
        obtain ⟨-, hrest, -⟩ := @release_keeps dead.live.watches.toList w
        rw [cells_modifyCell_of_ne hne, hrest]
        exact h
      · exact h
  · unfold bury at h
    split at h
    · exact h
    · simp only [cellHost, Live.releaseWatches_eq] at h
      split at h
      · exact (mem_release.mp h).1
      · exact h

theorem bury_passes (d : Dispatcher) (c' : Nat) (w : World) : Passes c x w (w.bury d c') := by
  by_cases hne : c' = c
  · subst c'
    exact ⟨bury_grows d c w, .bury d .refl, fun _ => .inl (.bury d .refl)⟩
  · exact (bury_other d hne w).passes

def activated (c : Nat) (w : World) : World :=
  w.modifyCell c fun cell => { cell with activations := cell.activations + 1 }

/-- The graph of the cell has answered, and nobody has been told yet. -/
def answered (d : Dispatcher) (c : Nat) (t : Task) (cell : Cell) (w : World) : World :=
  (w.activated c).propagating c (t.run (cellHost d c)) cell.live

theorem request_of_idle {c' : Nat} {cell : Cell} (hcell : w.cells[c']? = some cell)
    (hidle : cell.busy = false) (d : Dispatcher) (r : Request) (t : Task) :
    w.request d c' r (t.run (cellHost d c')) =
      (((w.answered d c' t cell).flush d c').modifyCell c' fun cell =>
        { cell with activations := cell.activations - 1 }).bury d c' := by
  rw [request, hcell]
  simp only [hidle, activate, answered]
  rfl

include hd hc

section

variable {c' : Nat} {cell : Cell} (hcell : w.cells[c']? = some cell) (hidle : cell.busy = false)

include hcell hidle

/-- Only a request to bind this very cell needs an excuse. -/
theorem answered_passes (t : Task) :
    Passes c (c' = c ∧ t.binds = true) w (w.answered d c' t cell) := by
  have hstart : Bypasses c w (w.activated c') := .modifyCell w c' fun _ _ => ⟨rfl, rfl, rfl⟩
  refine hstart.passes.trans ?_
  by_cases hne : c' = c
  · subst c'
    have hown := propagating_own hd (hstart.lt_size hc)
      (cells_modifyCell hcell fun cell => { cell with activations := cell.activations + 1 }) hidle t
    exact hown.mono fun h => ⟨rfl, h⟩
  · exact propagating_other hd (hstart.lt_size hc) hne (t.conducts (cellHost d c')) cell.live

/-- A request ends with telling the observers. -/
theorem told_passes (r : Request) (t : Task) :
    Passes c x (w.answered d c' t cell) (w.request d c' r (t.run (cellHost d c'))) := by
  have hanswered := answered_passes hd hc hcell hidle t
  have hflushed := flush_passes (x := x) hd (hanswered.lt_size hc) c'
  have hended := Bypasses.modifyCell (c := c) ((w.answered d c' t cell).flush d c') c'
    (f := fun cell => { cell with activations := cell.activations - 1 }) fun _ _ => ⟨rfl, rfl, rfl⟩
  rw [request_of_idle hcell hidle]
  exact (hflushed.trans hended.passes).trans (bury_passes d c' _)

end

theorem request_passes (c' : Nat) (r : Request) (t : Task) :
    Passes c (c' = c ∧ t.binds = true) w (w.request d c' r (t.run (cellHost d c'))) := by
  cases hcell : w.cells[c']? with
  | none =>
      rw [request, hcell]
      exact .refl w
  | some cell =>
      cases hbusy : cell.busy with
      | true =>
          rw [request, hcell]
          simp only [hbusy, if_true]
          exact (Bypasses.note _ w).passes
      | false =>
          exact (answered_passes hd hc hcell hbusy t).trans (told_passes hd hc hcell hbusy r t)

/-- Also as long as only some of the observers have been told. -/
theorem observe_change_passes (c' : Nat) (change : ResultChange) (rest : List ResultChange)
    (observers : List (Nat × Observer)) :
    Passes c x w (observers.foldl (fun w y => d (.observer c' y.1 y.2 change) w)
      ((w.modifyCell c' ({ · with outbox := rest })).enter (.opened c' change))) := by
  have hpopped : Bypasses c w (w.modifyCell c' ({ · with outbox := rest })) :=
    .modifyCell w c' fun _ _ => ⟨rfl, rfl, rfl⟩
  have hopened := hpopped.enter (.opened c' change)
  exact hopened.passes.trans (.foldl _ hopened.toGrows fun hu y _ => hd.passes _ (hu.lt_size hc))

theorem deliver_passes (c' : Nat) : Passes c x w (w.deliver d c') := by
  unfold deliver
  split
  · exact .refl w
  · split
    · exact .refl w
    · rename_i cell _ _ change rest _
      have htold := observe_change_passes (x := x) hd hc c' change rest cell.observers
      exact htold.trans (hd.passes _ (htold.lt_size hc))

/-! ## Actions -/

omit hd hc in
theorem onObject_passes (id : Nat) {act : HostObject Handler → World → Reply × World}
    (hact : ∀ o, Passes c x w (act o w).2) : Passes c x w (w.onObject id act).2 := by
  unfold onObject
  split
  · exact .refl w
  · exact hact _

omit hd hc in
theorem onPrototype_passes (name : String) {act : Prototype → World → Reply × World}
    (hact : ∀ p, Passes c x w (act p w).2) : Passes c x w (w.onPrototype name act).2 := by
  unfold onPrototype
  split
  · exact .refl w
  · exact hact _

omit hd hc in
theorem onBinding_passes (name : String) {act : Nat → Cell → World → Reply × World}
    (hact : ∀ c' cell, w.bindingCell? name = some c' → Passes c x w (act c' cell w).2) :
    Passes c x w (w.onBinding name act).2 := by
  unfold onBinding
  split
  · exact .refl w
  · rename_i c' hc'
    split
    · exact .refl w
    · exact hact c' _ hc'

omit hd hc in
theorem react_passes (object : Nat) (label : String) (script : List Action) (times : Nat)
    (w : World) : Passes c x w (w.react object label script times).2 := by
  have hadded := Bypasses.addReaction (c := c) label script times none w
  refine hadded.passes.trans (Bypasses.passes ?_)
  exact .subscribe _ object nofun

omit hd hc in
theorem keepGuard_passes (name : String) (g : Guard) (w : World) :
    Passes c x w (w.keepGuard name g) := by
  have hnamed : Bypasses c w { w with guards := bindName w.guards name g } :=
    .ofFields rfl rfl rfl rfl
  unfold keepGuard
  cases w.guards.lookup name with
  | none => exact hnamed.passes
  | some old => exact hnamed.passes.trans (Bypasses.unwatch old.watch _).passes

theorem performOnObject_passes (a : Action) : Passes c x w (performOnObject d a w).2 := by
  cases a with
  | set object member value =>
      have hmade := Bypasses.instantiate (c := c) value w
      exact hmade.passes.trans (writeMember_passes hd (hmade.lt_size hc) object member _)
  | touch object =>
      refine onObject_passes object fun o => ?_
      simp only
      split
      · exact announce_passes hd hc object none
      · exact .refl w
  | announce object member =>
      refine onObject_passes object fun o => ?_
      simp only
      split
      · exact .refl w
      · exact announce_passes hd hc object member
  | getMember object member => exact onObject_passes object fun _ => .refl w
  | readMember object member => exact readMember_passes hd hc object member
  | typeName object => exact onObject_passes object fun _ => .refl w
  | isObservable object => exact onObject_passes object fun _ => .refl w
  | debugObject object => exact onObject_passes object fun _ => .refl w
  | subscribe object handler script times => exact react_passes object handler script times w
  | unsubscribe object key =>
      refine onObject_passes object fun o => ?_
      split
      · exact .refl w
      · exact (Bypasses.unwatch _ w).passes
  | watch object guard script times =>
      have hreacted := react_passes (c := c) (x := x) object guard script times w
      simp only [performOnObject]
      split
      · exact hreacted
      · exact hreacted.trans (keepGuard_passes guard _ _)
  | release guard =>
      simp only [performOnObject]
      split
      · exact .refl w
      · have hnamed : Bypasses c w { w with guards := w.guards.filter (·.1 != guard) } :=
          .ofFields rfl rfl rfl rfl
        exact hnamed.passes.trans (Bypasses.unwatch _ _).passes
  | _ => exact .refl w

theorem adopt_passes (p : Prototype) (mode : BindingMode) :
    Passes c x w (Live.adopt (World.host d fun _ _ => .deaf) p mode w).2 :=
  (host_passes hd hc (fun _ _ => .deaf) nofun).adopt p mode (.refl w)

theorem evaluateWith_passes (v : Value) (live : Live) :
    Passes c x w (w.evaluateWith d v live).2.2 := by
  have hkept := host_passes (x := x) hd hc (fun _ _ => .deaf) nofun
  unfold evaluateWith
  exact hkept.evaluateOnce v live (.refl w)

theorem evaluateAll_passes (vs : List Value) (live : Live) :
    Passes c x w (w.evaluateAll d vs live).2 := by
  induction vs generalizing live w with
  | nil => exact .refl w
  | cons v rest ih =>
      have hfirst := evaluateWith_passes (x := x) hd hc v live
      unfold evaluateAll
      generalize w.evaluateWith d v live = t at hfirst ⊢
      exact hfirst.trans (ih (hfirst.lt_size hc) t.2.1)

omit hd hc in
theorem disown_passes (d : Dispatcher) (c' : Nat) (w : World) : Passes c x w (w.disown d c') := by
  have hdisowned : Bypasses c w (w.modifyCell c' ({ · with owned := false })) :=
    .modifyCell w c' fun _ _ => ⟨rfl, rfl, rfl⟩
  exact hdisowned.passes.trans (bury_passes d c' _)

omit hd in
/-- A new cell is another one, and so is what its name refers to. -/
theorem pushCell_bypasses (live : Live) (name : String) :
    Bypasses c w { w with
      cells := w.cells.push (.ofLive live)
      bindings := bindName w.bindings name w.cells.size } where
  size := by simp
  names key h := by
    rw [bindingCell?, lookup_bindName] at h
    split at h
    · exact absurd (Option.some.inj h).symm (Nat.ne_of_lt hc)
    · exact h
  reactions r old h := ⟨old, h, rfl, Nat.le_refl _⟩
  cell cell h := by
    refine ⟨cell, ?_, rfl, rfl, rfl⟩
    rw [Array.getElem?_push, if_neg (Nat.ne_of_lt hc), h]
  handlers _ _ _ _ h := h

theorem cloneBinding_passes (p : Prototype) (name : String) (mode : BindingMode) :
    Passes c x w (w.cloneBinding d p name mode) := by
  have hadopted := adopt_passes (x := x) hd hc p mode
  unfold cloneBinding
  generalize Live.adopt (World.host d fun _ _ => .deaf) p mode w = t at hadopted ⊢
  obtain ⟨live, u⟩ := t
  have hpushed := hadopted.trans (pushCell_bypasses (hadopted.lt_size hc) live name).passes
  simp only
  cases u.bindingCell? name with
  | none => exact hpushed
  | some c' => exact hpushed.trans (disown_passes d c' _)

theorem performOnPrototype_passes (a : Action) : Passes c x w (performOnPrototype d a w).2 := by
  cases a with
  | compile name lambda =>
      simp only [performOnPrototype]
      split
      · exact .refl w
      · refine Bypasses.passes ?_
        exact .ofFields rfl rfl rfl rfl
  | describe name => exact onPrototype_passes name fun _ => .refl w
  | evaluate name value =>
      unfold performOnPrototype
      refine onPrototype_passes name fun p => ?_
      have hmade := Bypasses.instantiate (c := c) value w
      generalize value.instantiate w = t at hmade ⊢
      have hadopted := hmade.passes.trans (adopt_passes (x := x) hd (hmade.lt_size hc) p .oneTime)
      simp only [evaluator]
      generalize Live.adopt (World.host d fun _ _ => .deaf) p .oneTime t.2 = u at hadopted ⊢
      have hevaluated := evaluateWith_passes (x := x) hd (hadopted.lt_size hc) t.1 u.1
      generalize u.2.evaluateWith d t.1 u.1 = r at hevaluated ⊢
      exact hadopted.trans hevaluated
  | evaluateMany name values =>
      unfold performOnPrototype
      refine onPrototype_passes name fun p => ?_
      have hmade := Bypasses.instantiateAll (c := c) values w
      generalize Literal.instantiateAll values w = t at hmade ⊢
      have hadopted := hmade.passes.trans (adopt_passes (x := x) hd (hmade.lt_size hc) p .oneTime)
      simp only [evaluator]
      generalize Live.adopt (World.host d fun _ _ => .deaf) p .oneTime t.2 = u at hadopted ⊢
      exact hadopted.trans (evaluateAll_passes hd (hadopted.lt_size hc) t.1 u.1)
  | clone name binding mode =>
      unfold performOnPrototype
      exact onPrototype_passes name fun p => cloneBinding_passes hd hc p binding mode
  | _ => exact .refl w

omit hd hc in
theorem addObserver_bypasses (c' : Nat) (o : Observer) (w : World) :
    Bypasses c w (w.addObserver c' o).2 := by
  unfold addObserver
  split
  · exact .ofFields rfl rfl rfl rfl
  · rename_i cell _
    exact (Bypasses.modifyCell w c' (f := fun cell' => { cell' with
      observers := cell'.observers ++ [(cell.nextObserver, o)]
      nextObserver := cell.nextObserver + 1 }) fun _ _ => ⟨rfl, rfl, rfl⟩).enter _

omit hd hc in
theorem removeObserver_bypasses (c' id : Nat) (w : World) :
    Bypasses c w (w.removeObserver c' id).2 :=
  (Bypasses.modifyCell w c' (f := fun cell => { cell with
    observers := cell.observers.filter (·.1 != id) }) fun _ _ => ⟨rfl, rfl, rfl⟩).enter _

omit hd hc in
theorem observe_passes (c' : Nat) (name observer : String) (script : List Action) (times : Nat)
    (onlyWhen : Option Result) (w : World) :
    let t := w.addReaction observer script times onlyWhen
    Passes c x w (match t.2.addObserver c' ⟨name, observer, t.1⟩ with
      | (none, w) => (Reply.nothing, w)
      | (some id, w) =>
        (.text ("ObserverId(" ++ toString id ++ ")"),
          { w with observerIds := bindName w.observerIds (name, observer) id })).2 := by
  intro t
  have hadded := (Bypasses.addReaction (c := c) observer script times onlyWhen w).passes.trans
    (x := x) (addObserver_bypasses c' ⟨name, observer, t.1⟩ t.2).passes
  split
  · rename_i heq
    rw [heq] at hadded
    exact hadded
  · rename_i heq
    rw [heq] at hadded
    refine hadded.trans (Bypasses.passes ?_)
    exact .ofFields rfl rfl rfl rfl

theorem performOnBinding_passes (a : Action) :
    Passes c (a.Rebinds c w) w (performOnBinding d a w).2 := by
  cases a with
  | bind name value =>
      refine onBinding_passes name fun c' _ hname => ?_
      have hmade := Bypasses.instantiate (c := c) value w
      have hbound := request_passes hd (hmade.lt_size hc) c' .bind (.bind (value.instantiate w).1)
      refine hmade.passes.trans (hbound.mono fun h => ?_)
      rw [← h.1]
      exact hname
  | unbind name =>
      refine onBinding_passes name fun c' _ _ => ?_
      exact (request_passes hd hc c' .unbind .unbind).mono nofun
  | drop name =>
      simp only [performOnBinding]
      split
      · exact .refl w
      · rename_i c' _
        have hdropped : Bypasses c w { w with bindings := w.bindings.filter (·.1 != name) } :=
          ⟨⟨Nat.le_refl _, fun _ h => lookup_of_filter h, fun r old h => ⟨old, h, rfl, Nat.le_refl _⟩⟩,
            fun cell h => ⟨cell, h, rfl, rfl, rfl⟩, fun _ _ _ _ h => h⟩
        exact hdropped.passes.trans (disown_passes d c' _)
  | observe name observer script times onlyWhen =>
      refine onBinding_passes name fun c' _ _ => ?_
      cases onlyWhen with
      | none => exact observe_passes c' name observer script times none w
      | some r =>
          have hmade : Bypasses c w (Literal.instantiateResult r w).2 := by
            cases r with
            | none => exact .ofFields rfl rfl rfl rfl
            | some l => exact .instantiate l w
          exact hmade.passes.trans (observe_passes c' name observer script times (some _) _)
  | unobserve name observer =>
      refine onBinding_passes name fun c' _ _ => ?_
      split
      · exact .refl w
      · exact (removeObserver_bypasses c' _ w).passes
  | value name => exact onBinding_passes name fun _ _ _ => .refl w
  | trace name => exact onBinding_passes name fun _ _ _ => .refl w
  | debugBinding name => exact onBinding_passes name fun _ _ _ => .refl w
  | info name => exact onBinding_passes name fun _ _ _ => .refl w
  | _ => exact .refl w

theorem perform_passes (a : Action) : Passes c (a.Rebinds c w) w (w.perform d a).2 := by
  cases a with
  | set | touch | announce | getMember | readMember | typeName | isObservable | debugObject
  | subscribe | unsubscribe | watch | release | isOn | debugGuard =>
      exact performOnObject_passes hd hc _
  | compile | describe | evaluate | evaluateMany | clone =>
      exact performOnPrototype_passes hd hc _
  | bind | unbind | drop | observe | unobserve | value | trace | debugBinding | info =>
      exact performOnBinding_passes hd hc _

/-! ## Any depth of calls -/

theorem performScripted_passes (a : Action) :
    Passes c (a.Rebinds c w) w (performScripted d w a) := by
  have hdone := perform_passes hd hc a
  unfold performScripted
  simp only
  split
  · exact hdone
  · exact hdone.trans (Bypasses.record _ _).passes

/-- Also as long as only some of the actions have been performed. -/
theorem script_passes (script : List Action) :
    Passes c (∃ a ∈ script, a.Rebinds c w) w (script.foldl (performScripted d) w) :=
  .foldl script (.refl c w) fun hu a ha =>
    (performScripted_passes hd (hu.lt_size hc) a).mono fun h => ⟨a, ha, hu.rebinds h⟩

/-- A script that binds the cell is the excuse itself. -/
theorem startScript_passes (reaction : Nat) (news : Option Result) :
    Passes c x w (w.startScript d reaction news) := by
  unfold startScript
  split
  · exact .refl w
  · rename_i r hr
    simp only
    split
    · have hstarted := Bypasses.started (c := c) w reaction
      have hrun := script_passes hd (hstarted.lt_size hc) r.script
      refine ⟨hstarted.toGrows.trans hrun.toGrows, (Course.refl.bypass hstarted).trans hrun.course,
        fun _ => ?_⟩
      by_cases hx : ∃ a ∈ r.script, a.Rebinds c w
      · obtain ⟨new, hnew, hscript, hcount⟩ := hrun.reactions reaction
          { r with started := r.started + 1 } (by simp [Array.getElem?_modify, hr])
        obtain ⟨a, ha, hbinds⟩ := hx
        refine .inr ⟨reaction, new, hnew, ?_, a, hscript ▸ ha, hbinds⟩
        rw [hr]
        exact hcount
      · exact (hrun.bindless hx).imp (Course.refl.bypass hstarted).trans (.before hstarted.toGrows)
    · exact .refl w

theorem handle_passes (changed : Option String) (h : Handler) :
    Passes c x w (w.handle d changed h) := by
  cases h with
  | sink c' node member =>
      simp only [handle]
      split
      · exact (request_passes hd hc c' .memberNotification (.memberChanged node)).mono
          fun hbinds => absurd hbinds.2 Bool.false_ne_true
      · exact .refl w
  | recorder node member =>
      simp only [handle]
      split
      · refine Bypasses.passes ?_
        exact .ofFields rfl rfl rfl rfl
      · exact .refl w
  | deaf => exact .refl w
  | reaction r =>
      have hrecorded := Bypasses.record (c := c) (.notified ((w.reactions[r]?).elim "" (·.label)) changed) w
      exact hrecorded.passes.trans (startScript_passes hd (hrecorded.lt_size hc) r none)

end

theorem dispatch_guides (c depth : Nat) : Guides c (dispatch depth) := by
  induction depth with
  | zero =>
      refine ⟨⟨0, rfl⟩, fun call w _ => Bypasses.passes ?_⟩
      exact .ofFields rfl rfl rfl rfl
  | succ depth ih =>
      refine ⟨⟨depth + 1, rfl⟩, fun call w hc => ?_⟩
      cases call with
      | handler h changed => exact handle_passes ih hc changed h
      | observer c' id o change =>
          have hrecorded : Bypasses c w
              ((w.enter (.told c' id o change)).record (.change o.binding o.label change)) :=
            .ofFields rfl rfl rfl rfl
          exact hrecorded.passes.trans
            (startScript_passes ih (hrecorded.lt_size hc) o.reaction (some change.new))
      | deliver c' => exact deliver_passes ih hc c'

theorem step_passes (hc : c < w.cells.size) (a : Action) :
    Passes c (a.Rebinds c w) w (w.step a).2 := by
  have hcleared : Bypasses c w w.clearReports := .ofFields rfl rfl rfl rfl
  have hdone := perform_passes (dispatch_guides c callDepth) (hcleared.lt_size hc) a
  exact hcleared.passes.trans (hdone.mono hcleared.rebinds)

end World

end LiveExpr
