import LiveExpr.Proofs.Live.Services
import LiveExpr.Proofs.Session.Registration
import LiveExpr.Session.Perform

/-!
What the observers of one binding are told. The books of a binding balance: what its observers have
been told, and what is still in the outbox for them, is what has been reported of its result. While
the graph is propagating, or a change is being delivered, nothing is told; otherwise nothing is left to
be told when a call returns.
-/

namespace LiveExpr

/-! ## The observers of a binding -/

/-- The names of the binding and of the observer, under which it is recorded what one is told. -/
def Observer.name (o : Observer) : String × String :=
  (o.binding, o.label)

/-- Observers of one cell, whose result is compared under `policy`. -/
structure Audience where
  cell : Nat
  policy : EqualityPolicy
  members : List (Nat × Observer)

namespace Audience

variable (a : Audience)

def names : List (String × String) :=
  a.members.map (·.2.name)

def includes (name : String × String) : Bool :=
  a.names.contains name

def told? : Event → Option ((String × String) × ResultChange)
  | .change binding label change =>
    if a.includes (binding, label) then some ((binding, label), change) else none
  | _ => none

/-- What the members have been told, each time with the name of the member. -/
def heard (events : List Event) : List ((String × String) × ResultChange) :=
  events.filterMap a.told?

/-- Change by change, what it takes to tell all members of them. -/
def tellings (changes : List ResultChange) : List ((String × String) × ResultChange) :=
  changes.flatMap fun change => a.names.map (·, change)

@[simp] theorem tellings_nil : a.tellings [] = [] :=
  rfl

@[simp] theorem tellings_append (cs cs' : List ResultChange) :
    a.tellings (cs ++ cs') = a.tellings cs ++ a.tellings cs' :=
  List.flatMap_append

theorem length_tellings (changes : List ResultChange) :
    (a.tellings changes).length = changes.length * a.members.length := by
  simp [tellings, names, List.length_flatMap]

@[simp] theorem heard_append (es es' : List Event) :
    a.heard (es ++ es') = a.heard es ++ a.heard es' :=
  List.filterMap_append

def attending (cell : Cell) : List (Nat × Observer) :=
  cell.observers.filter fun x => a.includes x.2.name

end Audience

/-- The name under which an action registers an observer. -/
def Action.registered? : Action → Option (String × String)
  | .observe binding observer .. => some (binding, observer)
  | _ => none

/-- The actions that an action leaves behind to be run from a callback. -/
def Action.script : Action → List Action
  | .subscribe _ _ script _ | .watch _ _ script _ | .observe _ _ script _ _ => script
  | _ => []

/-- No observer is registered under one of the names, at once or from a callback. -/
inductive Action.Spares (names : List (String × String)) : Action → Prop
  | intro {x : Action} : (∀ name ∈ x.registered?, name ∉ names) →
      (∀ y ∈ x.script, Spares names y) → Spares names x

theorem Action.Spares.registered {names : List (String × String)} {x : Action}
    (hx : x.Spares names) : ∀ name ∈ x.registered?, name ∉ names := by
  cases hx with
  | intro h _ => exact h

theorem Action.Spares.script {names : List (String × String)} {x : Action} (hx : x.Spares names) :
    ∀ y ∈ x.script, y.Spares names := by
  cases hx with
  | intro _ h => exact h

theorem Action.Spares.set {names : List (String × String)} (object : Nat) (member : String)
    (v : Literal) : (Action.set object member v).Spares names :=
  .intro nofun nofun

theorem Action.spares_nil (x : Action) : x.Spares [] :=
  .intro (fun _ _ => List.not_mem_nil) fun y _ => y.spares_nil
termination_by x
decreasing_by
  rename_i hy
  have := List.sizeOf_lt_of_mem hy
  cases x <;> simp only [script, List.not_mem_nil] at hy this <;>
    simp only [subscribe.sizeOf_spec, watch.sizeOf_spec, observe.sizeOf_spec] <;> omega

/-! ## Scenes -/

/-- What there is to see of a binding from its observers' side. -/
structure Scene where
  root : Result
  reported : List ResultChange
  outbox : List ResultChange
  attending : List (Nat × Observer)
  busy : Bool
  delivering : Bool
  heard : List ((String × String) × ResultChange)
  exhausted : Bool

namespace Scene

variable {a : Audience} {s s' s'' : Scene}

/-- No call has been left out, and all members are still registered. -/
def Complete (a : Audience) (s : Scene) : Prop :=
  s.exhausted = false ∧ s.attending = a.members

/-- What the members have been told, and then what they are about to be told. -/
def account (a : Audience) (s : Scene) : List ((String × String) × ResultChange) :=
  s.heard ++ a.tellings s.outbox

/-- Changes may have been reported, which the members have been told of or are about to be; none have
while the graph is propagating. -/
structure Advances (a : Audience) (s s' : Scene) : Prop where
  complete : s'.Complete a → s.Complete a
  busy : s'.busy = s.busy
  delivering : s'.delivering = s.delivering
  frozen : s.busy = true → s'.reported = s.reported ∧ s'.root = s.root
  books : s'.Complete a → ∃ new, s'.reported = s.reported ++ new ∧
    s'.account a = s.account a ++ a.tellings new

theorem Advances.refl (a : Audience) (s : Scene) : Advances a s s :=
  ⟨id, rfl, rfl, fun _ => ⟨rfl, rfl⟩, fun _ => ⟨[], by simp, by simp⟩⟩

theorem Advances.trans (h : Advances a s s') (h' : Advances a s' s'') : Advances a s s'' where
  complete hc := h.complete (h'.complete hc)
  busy := h'.busy.trans h.busy
  delivering := h'.delivering.trans h.delivering
  frozen hb := by
    obtain ⟨hreported, hroot⟩ := h.frozen hb
    obtain ⟨hreported', hroot'⟩ := h'.frozen (h.busy.trans hb)
    exact ⟨hreported'.trans hreported, hroot'.trans hroot⟩
  books hc := by
    obtain ⟨new, hreported, haccount⟩ := h.books (h'.complete hc)
    obtain ⟨new', hreported', haccount'⟩ := h'.books hc
    exact ⟨new ++ new', by simp [hreported', hreported], by simp [haccount', haccount]⟩

/-- Besides, nothing is told while the graph is propagating or a change is being delivered, and
otherwise nothing is put off. -/
structure Proceeds (a : Audience) (s s' : Scene) : Prop extends Advances a s s' where
  silent : s'.Complete a → s.busy = true ∨ s.delivering = true → s'.heard = s.heard
  drained : s'.Complete a → s.busy = false → s.delivering = false → s.outbox = [] → s'.outbox = []

theorem Proceeds.refl (a : Audience) (s : Scene) : Proceeds a s s :=
  ⟨.refl a s, fun _ _ => rfl, fun _ _ _ h => h⟩

theorem Proceeds.trans (h : Proceeds a s s') (h' : Proceeds a s' s'') : Proceeds a s s'' where
  toAdvances := h.toAdvances.trans h'.toAdvances
  silent hc hs := by
    have hs' : s'.busy = true ∨ s'.delivering = true := by rwa [h.busy, h.delivering]
    exact (h'.silent hc hs').trans (h.silent (h'.complete hc) hs)
  drained hc hb hd ho :=
    h'.drained hc (h.busy.trans hb) (h.delivering.trans hd) (h.drained (h'.complete hc) hb hd ho)

/-- What is told does not change while something is being delivered, so that what is put off is just
what has been reported. -/
theorem Proceeds.put_off (h : Proceeds a s s') (hd : s.busy = true ∨ s.delivering = true)
    (hc : s'.Complete a) : ∃ new, s'.reported = s.reported ++ new ∧
      a.tellings s'.outbox = a.tellings s.outbox ++ a.tellings new := by
  obtain ⟨new, hreported, haccount⟩ := h.books hc
  refine ⟨new, hreported, ?_⟩
  rw [account, account, h.silent hc hd, List.append_assoc] at haccount
  exact List.append_cancel_left haccount

/-- The graph has been propagating, and now that it has settled `new` are its changes. -/
theorem Proceeds.settled (h : Proceeds a { s with busy := true } s') (hb : s.busy = false)
    (root : Result) (new : List ResultChange) :
    Advances a s { s' with
      root
      reported := s'.reported ++ new
      outbox := s'.outbox ++ new
      busy := false } := by
  obtain ⟨hreported, -⟩ := h.frozen rfl
  refine ⟨fun hc => h.complete hc, hb.symm, h.delivering, fun htrue => ?_, fun hc => ⟨new, ?_, ?_⟩⟩
  · rw [hb] at htrue
    cases htrue
  · simp only [hreported]
  · obtain ⟨none, hnone, houtbox⟩ := h.put_off (.inl rfl) hc
    have hempty : none = [] := by simpa [hreported] using hnone
    simp only [hempty, Audience.tellings_nil, List.append_nil] at houtbox
    simp [account, houtbox, h.silent hc (.inl rfl)]

/-- The members have been told what `told` says; what has been reported meanwhile is put off. -/
structure Tells (a : Audience) (told : List ((String × String) × ResultChange)) (s s' : Scene) :
    Prop where
  complete : s'.Complete a → s.Complete a
  busy : s'.busy = s.busy
  delivering : s'.delivering = s.delivering
  frozen : s.busy = true → s'.reported = s.reported ∧ s'.root = s.root
  heard : s'.Complete a → s'.heard = s.heard ++ told
  put_off : s'.Complete a → ∃ new, s'.reported = s.reported ++ new ∧
    a.tellings s'.outbox = a.tellings s.outbox ++ a.tellings new

theorem Tells.refl (a : Audience) (s : Scene) : Tells a [] s s :=
  ⟨id, rfl, rfl, fun _ => ⟨rfl, rfl⟩, fun _ => by simp, fun _ => ⟨[], by simp, by simp⟩⟩

theorem Tells.trans {told told' : List ((String × String) × ResultChange)} (h : Tells a told s s')
    (h' : Tells a told' s' s'') : Tells a (told ++ told') s s'' where
  complete hc := h.complete (h'.complete hc)
  busy := h'.busy.trans h.busy
  delivering := h'.delivering.trans h.delivering
  frozen hb := by
    obtain ⟨hreported, hroot⟩ := h.frozen hb
    obtain ⟨hreported', hroot'⟩ := h'.frozen (h.busy.trans hb)
    exact ⟨hreported'.trans hreported, hroot'.trans hroot⟩
  heard hc := by simp [h'.heard hc, h.heard (h'.complete hc)]
  put_off hc := by
    obtain ⟨new, hreported, houtbox⟩ := h.put_off (h'.complete hc)
    obtain ⟨new', hreported', houtbox'⟩ := h'.put_off hc
    exact ⟨new ++ new', by simp [hreported', hreported], by simp [houtbox', houtbox]⟩

theorem Proceeds.tells {told : List ((String × String) × ResultChange)}
    (h : Proceeds a { s with heard := s.heard ++ told } s') (hd : s.delivering = true) :
    Tells a told s s' :=
  ⟨h.complete, h.busy, h.delivering, h.frozen, fun hc => h.silent hc (.inr hd), h.put_off (.inr hd)⟩

/-- The oldest change is taken out of the outbox and told to all who attend. -/
theorem Tells.advances {change : ResultChange} {rest : List ResultChange}
    (h : Tells a (s.attending.map fun x => (x.2.name, change))
      { s with outbox := rest } s') (ho : s.outbox = change :: rest) : Advances a s s' := by
  refine ⟨h.complete, h.busy, h.delivering, h.frozen, fun hc => ?_⟩
  obtain ⟨new, hreported, houtbox⟩ := h.put_off hc
  refine ⟨new, hreported, ?_⟩
  have hall : (s.attending.map fun x => (x.2.name, change)) = a.tellings [change] := by
    rw [(h.complete hc).2]
    simp [Audience.tellings, Audience.names]
  rw [account, account, houtbox, h.heard hc, hall, ho, ← List.singleton_append (l := rest),
    Audience.tellings_append]
  simp

/-- Once a member is gone, not all of them are registered any more. -/
theorem Proceeds.unregistered {rest : List (Nat × Observer)} (hs : s.attending.Sublist a.members)
    (hrest : rest.Sublist s.attending) : Proceeds a s { s with attending := rest } := by
  refine ⟨⟨fun hc => ⟨hc.1, ?_⟩, rfl, rfl, fun _ => ⟨rfl, rfl⟩, fun _ => ⟨[], ?_, ?_⟩⟩,
    fun _ _ => rfl, fun _ _ _ ho => ho⟩
  · have hall : rest = a.members := hc.2
    exact hs.antisymm (hall ▸ hrest)
  · simp
  · simp [account]

theorem not_complete_of_exhausted (h : s.exhausted = true) : ¬ s.Complete a := by
  intro hc
  rw [hc.1] at h
  cases h

/-- When a call has been left out, nothing is promised but that nothing has happened. -/
theorem Proceeds.exhausted (hb : s'.busy = s.busy) (hd : s'.delivering = s.delivering)
    (hr : s'.reported = s.reported) (hroot : s'.root = s.root) (he : s'.exhausted = true) :
    Proceeds a s s' where
  complete hc := absurd hc (not_complete_of_exhausted he)
  busy := hb
  delivering := hd
  frozen _ := ⟨hr, hroot⟩
  books hc := absurd hc (not_complete_of_exhausted he)
  silent hc := absurd hc (not_complete_of_exhausted he)
  drained hc := absurd hc (not_complete_of_exhausted he)

/-- Whether a delivery is going on matters only to who may be told. -/
theorem Advances.delivered (h : Advances a { s with delivering := true } s')
    (hd : s.delivering = false) : Advances a s { s' with delivering := false } :=
  ⟨h.complete, h.busy, hd.symm, h.frozen, h.books⟩

end Scene

namespace Audience

variable {a : Audience} {w w' w'' : World}

def scene (a : Audience) (w : World) : Scene where
  root := (w.cells[a.cell]?).bind (·.live.root)
  reported := (w.cells[a.cell]?).elim [] (·.reported)
  outbox := (w.cells[a.cell]?).elim [] (·.outbox)
  attending := (w.cells[a.cell]?).elim [] a.attending
  busy := (w.cells[a.cell]?).any (·.busy)
  delivering := (w.cells[a.cell]?).any (·.delivering)
  heard := a.heard w.events
  exhausted := w.exhausted

/-! ## Worlds with an audience -/

/-- The changes that have been reported lead from no result to the present one, and no observer but
members is under one of their names. -/
structure Fits (a : Audience) (cell : Cell) : Prop where
  pending : cell.live.pending = []
  policy : cell.live.graph.policyOf cell.live.body = a.policy
  leads : Leads a.policy none cell.reported cell.live.root
  registered : (a.attending cell).Sublist a.members

structure Sound (a : Audience) (w : World) : Prop where
  exists_cell : a.cell < w.cells.size
  fits : ∀ cell : Cell, w.cells[a.cell]? = some cell → a.Fits cell
  others : ∀ (c : Nat) (cell : Cell), w.cells[c]? = some cell → c ≠ a.cell → a.attending cell = []
  scripts : ∀ (r : Nat) (reaction : Reaction), w.reactions[r]? = some reaction →
    ∀ x ∈ reaction.script, x.Spares a.names

theorem Sound.cell (hs : a.Sound w) : ∃ cell : Cell, w.cells[a.cell]? = some cell :=
  ⟨_, Array.getElem?_eq_getElem hs.exists_cell⟩

/-- From one world to another as far as the audience can tell. -/
structure Proceeds (a : Audience) (w w' : World) : Prop where
  sound : a.Sound w'
  scene : (a.scene w).Proceeds a (a.scene w')

theorem Proceeds.refl (hs : a.Sound w) : a.Proceeds w w :=
  ⟨hs, .refl a _⟩

theorem Proceeds.trans (h : a.Proceeds w w') (h' : a.Proceeds w' w'') : a.Proceeds w w'' :=
  ⟨h'.sound, h.scene.trans h'.scene⟩

theorem Proceeds.foldl {α : Type} {f : World → α → World} (xs : List α)
    (hf : ∀ {u}, ∀ x ∈ xs, a.Sound u → a.Proceeds u (f u x)) (hs : a.Sound w) :
    a.Proceeds w (xs.foldl f w) := by
  induction xs generalizing w with
  | nil => exact .refl hs
  | cons x xs ih =>
      have hx := hf x List.mem_cons_self hs
      exact hx.trans (ih (fun y hy => hf y (List.mem_cons_of_mem x hy)) hx.sound)

theorem Proceeds.of_scene_eq (hs : a.Sound w') (h : a.scene w' = a.scene w) : a.Proceeds w w' :=
  ⟨hs, h ▸ .refl a _⟩

/-! ## Changes that the audience does not notice -/

/-- The same cells, scripts and calls left out, and no member has been told anything. -/
structure Unheard (a : Audience) (w w' : World) : Prop where
  cells : w'.cells = w.cells
  heard : a.heard w'.events = a.heard w.events
  exhausted : w'.exhausted = w.exhausted
  scripts : ∀ (r : Nat) (reaction : Reaction), w'.reactions[r]? = some reaction →
    (∃ old : Reaction, w.reactions[r]? = some old ∧ old.script = reaction.script) ∨
      ∀ x ∈ reaction.script, x.Spares a.names

theorem Unheard.refl (a : Audience) (w : World) : a.Unheard w w :=
  ⟨rfl, rfl, rfl, fun _ reaction hr => .inl ⟨reaction, hr, rfl⟩⟩

theorem Unheard.trans (h : a.Unheard w w') (h' : a.Unheard w' w'') : a.Unheard w w'' where
  cells := h'.cells.trans h.cells
  heard := h'.heard.trans h.heard
  exhausted := h'.exhausted.trans h.exhausted
  scripts r reaction hr := by
    rcases h'.scripts r reaction hr with ⟨old, hold, hscript⟩ | hall
    · rcases h.scripts r old hold with ⟨older, holder, hscript'⟩ | hall
      · exact .inl ⟨older, holder, hscript'.trans hscript⟩
      · exact .inr (hscript ▸ hall)
    · exact .inr hall

theorem Unheard.ofFields (hc : w'.cells = w.cells) (he : w'.events = w.events)
    (hx : w'.exhausted = w.exhausted) (hr : w'.reactions = w.reactions) : a.Unheard w w' :=
  ⟨hc, by rw [he], hx, fun _ reaction h => .inl ⟨reaction, hr ▸ h, rfl⟩⟩

theorem Unheard.sound (h : a.Unheard w w') (hs : a.Sound w) : a.Sound w' where
  exists_cell := by
    rw [h.cells]
    exact hs.exists_cell
  fits cell hc := hs.fits cell (h.cells ▸ hc)
  others c cell hc := hs.others c cell (h.cells ▸ hc)
  scripts r reaction hr := by
    rcases h.scripts r reaction hr with ⟨old, hold, hscript⟩ | hall
    · rw [← hscript]
      exact hs.scripts r old hold
    · exact hall

theorem Unheard.scene (h : a.Unheard w w') : a.scene w' = a.scene w := by
  simp [Audience.scene, h.cells, h.heard, h.exhausted]

theorem Unheard.proceeds (h : a.Unheard w w') (hs : a.Sound w) : a.Proceeds w w' :=
  .of_scene_eq (h.sound hs) h.scene

theorem unheard_record {e : Event} (he : a.heard [e] = []) (w : World) : a.Unheard w (w.record e) where
  cells := rfl
  heard := by simp [World.record, he]
  exhausted := rfl
  scripts _ reaction hr := .inl ⟨reaction, hr, rfl⟩

theorem Sound.record (hs : a.Sound w) (e : Event) : a.Sound (w.record e) :=
  ⟨hs.exists_cell, hs.fits, hs.others, hs.scripts⟩

/-! ## Changes of one cell -/

theorem Sound.modifyCell (hs : a.Sound w) {c : Nat} {f : Cell → Cell}
    (hown : ∀ cell : Cell, w.cells[c]? = some cell → c = a.cell → a.Fits (f cell))
    (hother : ∀ cell : Cell, w.cells[c]? = some cell → a.attending cell = [] →
      a.attending (f cell) = []) : a.Sound (w.modifyCell c f) where
  exists_cell := by
    rw [World.modifyCell, Array.size_modify]
    exact hs.exists_cell
  fits cell hc := by
    rw [World.modifyCell, Array.getElem?_modify] at hc
    split at hc
    · obtain ⟨old, hold, rfl⟩ := Option.map_eq_some_iff.mp hc
      exact hown old (by rwa [‹c = a.cell›]) ‹c = a.cell›
    · exact hs.fits cell hc
  others j cell hc hj := by
    rw [World.modifyCell, Array.getElem?_modify] at hc
    split at hc
    · obtain ⟨old, hold, rfl⟩ := Option.map_eq_some_iff.mp hc
      subst j
      exact hother old hold (hs.others c old hold hj)
    · exact hs.others j cell hc hj
  scripts := hs.scripts

theorem scene_modifyCell_of_ne {c : Nat} (hc : c ≠ a.cell) (f : Cell → Cell) (w : World) :
    a.scene (w.modifyCell c f) = a.scene w := by
  simp [scene, World.modifyCell, Array.getElem?_modify, hc]

theorem scene_modifyCell {cell : Cell} (hc : w.cells[a.cell]? = some cell) (f : Cell → Cell) :
    a.scene (w.modifyCell a.cell f) =
      { root := (f cell).live.root
        reported := (f cell).reported
        outbox := (f cell).outbox
        attending := a.attending (f cell)
        busy := (f cell).busy
        delivering := (f cell).delivering
        heard := a.heard w.events
        exhausted := w.exhausted } := by
  simp [scene, World.modifyCell, Array.getElem?_modify, hc]

theorem scene_of_cell {cell : Cell} (hc : w.cells[a.cell]? = some cell) :
    a.scene w =
      { root := cell.live.root
        reported := cell.reported
        outbox := cell.outbox
        attending := a.attending cell
        busy := cell.busy
        delivering := cell.delivering
        heard := a.heard w.events
        exhausted := w.exhausted } := by
  simp [scene, hc]

theorem Fits.congr {cell cell' : Cell} (hs : a.Fits cell) (hl : cell'.live = cell.live)
    (hr : cell'.reported = cell.reported) (ho : cell'.observers = cell.observers) :
    a.Fits cell' := by
  obtain ⟨hpending, hpolicy, hleads, hattending⟩ := hs
  exact ⟨hl ▸ hpending, hl ▸ hpolicy, by rwa [hl, hr], by rwa [attending, ho]⟩

theorem Sound.modifyFlags (hs : a.Sound w) (c : Nat) {f : Cell → Cell}
    (hl : ∀ cell, (f cell).live = cell.live) (hr : ∀ cell, (f cell).reported = cell.reported)
    (ho : ∀ cell, (f cell).observers = cell.observers) : a.Sound (w.modifyCell c f) := by
  refine hs.modifyCell (fun cell hc hown => ?_) fun cell _ hnone => ?_
  · subst hown
    exact (hs.fits cell hc).congr (hl cell) (hr cell) (ho cell)
  · rwa [attending, ho]

/-- The cells differ at most in what they follow, in who else observes them, in who owns them and in
the calls in progress. -/
structure SameFace (a : Audience) (cell cell' : Cell) : Prop where
  root : cell'.live.root = cell.live.root
  pending : cell'.live.pending = cell.live.pending
  graph : cell'.live.graph = cell.live.graph
  body : cell'.live.body = cell.live.body
  attending : a.attending cell' = a.attending cell
  outbox : cell'.outbox = cell.outbox
  reported : cell'.reported = cell.reported
  busy : cell'.busy = cell.busy
  delivering : cell'.delivering = cell.delivering

theorem proceeds_modifyCell (hs : a.Sound w) {c : Nat} {f : Cell → Cell}
    (hf : ∀ cell : Cell, w.cells[c]? = some cell → a.SameFace cell (f cell)) :
    a.Proceeds w (w.modifyCell c f) := by
  refine .of_scene_eq (hs.modifyCell (fun cell hc hown => ?_) fun cell hc hnone => ?_) ?_
  · subst hown
    have hface := hf cell hc
    obtain ⟨hpending, hpolicy, hleads, hattending⟩ := hs.fits cell hc
    refine ⟨hface.pending.trans hpending, ?_, ?_, ?_⟩
    · rw [hface.graph, hface.body, hpolicy]
    · rwa [hface.reported, hface.root]
    · rwa [hface.attending]
  · rwa [(hf cell hc).attending]
  · by_cases hc : c = a.cell
    · subst hc
      obtain ⟨cell, hcell⟩ := hs.cell
      have hface := hf cell hcell
      simp [scene_modifyCell hcell, scene_of_cell hcell, hface.root, hface.reported, hface.outbox,
        hface.attending, hface.busy, hface.delivering]
    · exact scene_modifyCell_of_ne hc f w

end Audience

end LiveExpr
