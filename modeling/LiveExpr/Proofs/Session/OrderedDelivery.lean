import LiveExpr.Proofs.Session.Agreement
import LiveExpr.Proofs.Session.Attendance

/-!
Delivery is ordered and lossless: in any run, to whatever depth observers and handlers start further
operations, the observers of a binding are told of every change of its result once, one change after
the other.
-/

namespace LiveExpr

namespace World

/-- Host operations one after the other, each with calls nested to a depth of its own, and the events
of all of them. -/
inductive Performs (allowed : Action → Prop) (w : World) : List Event → World → Prop
  | refl : Performs allowed w [] w
  | act {es : List Event} {w' : World} (depth : Nat) {x : Action} : Performs allowed w es w' →
      allowed x →
      Performs allowed w (es ++ (w'.clearReports.perform (dispatch depth) x).2.events)
        (w'.clearReports.perform (dispatch depth) x).2

end World

namespace Audience

open World

variable {a : Audience} {w w' : World} {es : List Event}

/-! ## Being told -/

theorem includes_member {x : Nat × Observer} (hx : x ∈ a.members) : a.includes x.2.name = true := by
  simp only [includes, names, List.contains_iff_mem]
  exact List.mem_map_of_mem hx

/-- Among observers under other names, the members are those who attend. -/
theorem attending_of_sublist {cell : Cell} (hfits : a.Fits cell)
    (hall : a.members.Sublist cell.observers) : a.attending cell = a.members := by
  refine hfits.registered.antisymm ?_
  have hfilter := hall.filter fun x => a.includes x.2.name
  rwa [List.filter_eq_self.mpr fun x hx => includes_member hx] at hfilter

theorem filter_names {name : String × String} (hname : name ∈ a.names) (hnodup : a.names.Nodup)
    (change : ResultChange) :
    (a.names.map (·, change)).filter (·.1 == name) = [(name, change)] := by
  rw [List.filter_map]
  change (a.names.filter (· == name)).map _ = _
  simp [List.filter_beq, List.count_eq_one_of_mem hnodup hname]

/-- Of what it takes to tell everybody, each is told every change once. -/
theorem tellings_to {name : String × String} (hname : name ∈ a.names) (hnodup : a.names.Nodup)
    (changes : List ResultChange) :
    ((a.tellings changes).filter (·.1 == name)).map (·.2) = changes := by
  induction changes with
  | nil => rfl
  | cons change rest ih =>
      rw [← List.singleton_append, tellings_append, List.filter_append, List.map_append, ih]
      simp [tellings, filter_names hname hnodup]

/-! ## Between operations -/

/-- Between operations nothing waits to be told to the members. -/
structure Rests (a : Audience) (w : World) : Prop where
  sound : a.Sound w
  busy : (a.scene w).busy = false
  delivering : (a.scene w).delivering = false
  outbox : (a.scene w).Complete a → (a.scene w).outbox = []

theorem rests_of_cell {cell : Cell} (hc : w.cells[a.cell]? = some cell)
    (hfits : a.Fits cell)
    (hothers : ∀ (c : Nat) (other : Cell), w.cells[c]? = some other → c ≠ a.cell →
      a.attending other = [])
    (hscripts : ∀ (r : Nat) (reaction : Reaction), w.reactions[r]? = some reaction →
      ∀ x ∈ reaction.script, x.Spares a.names)
    (hbusy : cell.busy = false) (hdel : cell.delivering = false) (hout : cell.outbox = []) :
    a.Rests w := by
  refine ⟨⟨(Array.getElem?_eq_some_iff.mp hc).1, fun cell' hc' => ?_, hothers, hscripts⟩, ?_, ?_,
    fun _ => ?_⟩
  · cases hc.symm.trans hc'
    exact hfits
  · rwa [scene_of_cell hc]
  · rwa [scene_of_cell hc]
  · rwa [scene_of_cell hc]

/-- Nothing has been reported of a new copy. -/
theorem fits_fresh {p : Prototype} {mode : BindingMode} {l : Live} (hl : Live.Fresh p mode l)
    (hpolicy : p.graph.policyOf p.body = a.policy) {observers : List (Nat × Observer)}
    (hmembers : (observers.filter fun x => a.includes x.2.name).Sublist a.members)
    (nextObserver : Nat) : a.Fits { Cell.ofLive l with observers, nextObserver } where
  pending := hl.pending
  policy := by
    rw [← hpolicy, ← hl.body]
    exact hl.toCopyOf.policyOf l.body
  leads := by
    rw [Cell.ofLive, hl.root]
    exact .refl none
  registered := hmembers

theorem Rests.clearReports (hw : a.Rests w) : a.Rests w.clearReports :=
  ⟨⟨hw.sound.exists_cell, hw.sound.fits, hw.sound.others, hw.sound.scripts⟩, hw.busy,
    hw.delivering, hw.outbox⟩

theorem Rests.proceeds (hw : a.Rests w) (h : a.Proceeds w w') : a.Rests w' where
  sound := h.sound
  busy := h.scene.busy.trans hw.busy
  delivering := h.scene.delivering.trans hw.delivering
  outbox hc := h.scene.drained hc hw.busy hw.delivering (hw.outbox (h.scene.complete hc))

/-- What is reported meanwhile is what the members are told. -/
theorem Rests.told (hw : a.Rests w) (h : a.Proceeds w w') (hc : (a.scene w').Complete a) :
    ∃ new, (a.scene w').reported = (a.scene w).reported ++ new ∧
      (a.scene w').heard = (a.scene w).heard ++ a.tellings new := by
  obtain ⟨new, hreported, haccount⟩ := h.scene.books hc
  refine ⟨new, hreported, ?_⟩
  simpa [Scene.account, (hw.proceeds h).outbox hc, hw.outbox (h.scene.complete hc)] using haccount

/-- The members have been told everything that has been reported. -/
structure Informed (a : Audience) (es : List Event) (w : World) : Prop extends a.Rests w where
  heard : (a.scene w).Complete a → a.heard es = a.tellings (a.scene w).reported

/-- One operation of the host tells the members just what is reported meanwhile. -/
theorem Informed.perform (hw : a.Informed es w) (depth : Nat) {x : Action} (hx : x.Spares a.names) :
    let w' := (w.clearReports.perform (dispatch depth) x).2
    a.Informed (es ++ w'.events) w' := by
  have hcleared := hw.toRests.clearReports
  have hdone := perform_proceeds (dispatch_minds a depth) hcleared.sound hx
  refine ⟨hcleared.proceeds hdone, fun hc => ?_⟩
  obtain ⟨new, hreported, hheard⟩ := hcleared.told hdone hc
  have htold : a.heard (w.clearReports.perform (dispatch depth) x).2.events = a.tellings new := hheard
  rw [heard_append, hw.heard (hdone.scene.complete hc), htold, hreported, tellings_append]
  rfl

/-! ## Runs -/

/-- A copy of a prototype that nothing has been done with, but that the members have been registered
as its observers. No others are, or will be, under one of their names. -/
structure Opens (a : Audience) (w : World) : Prop where
  cell : ∃ e p mode d u observers nextObserver, Lambda.compile e = .ok p ∧
    w.cells[a.cell]? = some { Cell.ofLive (Live.adopt (World.host d fun _ _ => .deaf) p mode u).1 with
      observers, nextObserver } ∧
    p.graph.policyOf p.body = a.policy ∧
    observers.filter (fun x => a.includes x.2.name) = a.members
  others : ∀ (c : Nat) (cell : Cell), w.cells[c]? = some cell → c ≠ a.cell → a.attending cell = []
  scripts : ∀ (r : Nat) (reaction : Reaction), w.reactions[r]? = some reaction →
    ∀ x ∈ reaction.script, x.Spares a.names

theorem Opens.rests (hw : a.Opens w) : a.Rests w ∧ (a.scene w).reported = [] := by
  obtain ⟨e, p, mode, d, u, observers, nextObserver, hp, hcell, hpolicy, hmembers⟩ := hw.cell
  have hfresh := Live.adopt_fresh hp (World.host d fun _ _ => .deaf) mode u
  generalize (Live.adopt (World.host d fun _ _ => .deaf) p mode u).1 = l at hcell hfresh
  have hfits := fits_fresh hfresh hpolicy (by rw [hmembers]) nextObserver
  refine ⟨rests_of_cell hcell hfits hw.others hw.scripts rfl rfl rfl, ?_⟩
  rw [scene_of_cell hcell]
  rfl

theorem Opens.informed (hw : a.Opens w) (hrun : Performs (·.Spares a.names) w es w') :
    a.Informed es w' := by
  induction hrun with
  | refl =>
      obtain ⟨hrests, hreported⟩ := hw.rests
      exact ⟨hrests, fun _ => by rw [hreported]; rfl⟩
  | act depth _ hx ih => exact ih.perform depth hx

/-- Observers are registered with a new binding, and then anything may be done, by the host or from
inside an observer or a handler, that leaves them registered. When no call has been left out, then at
every moment between operations they have been told of all changes of the result that the graph has
ever reported, each of them once of every change, and all of them of one change before any of them of
the next. The changes lead from no result to the present one, each to a result that differs under the
policy of the body, and a single request to a graph reports at most one. -/
theorem Opens.delivers_in_order (hw : a.Opens w) (hrun : Performs (·.Spares a.names) w es w')
    (hcomplete : w'.exhausted = false) {cell : Cell} (hcell : w'.cells[a.cell]? = some cell)
    (hstay : a.members.Sublist cell.observers) :
    a.heard es = a.tellings cell.reported ∧
      (a.names.Nodup → ∀ name ∈ a.names,
        ((a.heard es).filter (·.1 == name)).map (·.2) = cell.reported) ∧
      Leads a.policy none cell.reported cell.live.root ∧
      ∀ (d : Dispatcher) (l : Live) (u : World),
        (∀ v, ∃ changes, changes.length ≤ 1 ∧
          (l.bind (cellHost d a.cell) v u).1.pending = l.pending ++ changes) ∧
        (∃ changes, changes.length ≤ 1 ∧
          (l.unbind (cellHost d a.cell) u).1.pending = l.pending ++ changes) ∧
        ∀ node, ∃ changes, changes.length ≤ 1 ∧
          (l.memberChanged (cellHost d a.cell) node u).1.pending = l.pending ++ changes := by
  obtain ⟨⟨hsound, -, -, -⟩, hheard⟩ := hw.informed hrun
  have hfits := hsound.fits cell hcell
  rw [scene_of_cell hcell] at hheard
  have htold := hheard ⟨hcomplete, attending_of_sublist hfits hstay⟩
  have hcontribution : ∀ {l l' : Live} {changes}, Live.Reports l l' changes →
      ∃ changes, changes.length ≤ 1 ∧ l'.pending = l.pending ++ changes :=
    fun hr => ⟨_, hr.length, hr.pending⟩
  refine ⟨htold, fun hnodup name hname => ?_, hfits.leads, fun d l u => ⟨fun v => ?_, ?_, fun node => ?_⟩⟩
  · rw [htold]
    exact tellings_to hname hnodup _
  · obtain ⟨_, hr⟩ := Live.bind_reports (cellHost d a.cell) v l u
    exact hcontribution hr
  · obtain ⟨_, hr⟩ := Live.unbind_reports (cellHost d a.cell) l u
    exact hcontribution hr
  · obtain ⟨_, hr⟩ := Live.memberChanged_reports (cellHost d a.cell) node l u
    exact hcontribution hr

/-! ## Two observers, one of whom unbinds -/

def ofStaff : Audience :=
  ⟨0, .standard, [(0, ⟨"b", "first", 0⟩), (1, ⟨"b", "second", 1⟩)]⟩

/-- The boss's age is observed twice, first by one who unbinds as soon as there is a result. -/
def observedStaff : World :=
  let w := staff.cloneBinding (dispatch callDepth) .bossAge "b" .live
  let w := (w.perform (dispatch callDepth) (.observe "b" "first" [.unbind "b"] 1 none)).2
  (w.perform (dispatch callDepth) (.observe "b" "second" [] 0 none)).2

theorem observedStaff_state :
    observedStaff.cells = #[{
      Cell.ofLive (Live.adopt (World.host (dispatch callDepth) fun _ _ => .deaf) .bossAge .live staff).1
      with observers := ofStaff.members, nextObserver := 2 }] ∧
    observedStaff.reactions =
      #[⟨"first", [.unbind "b"], 1, none, 0⟩, ⟨"second", [], 0, none, 0⟩] := by
  unfold observedStaff
  rw [cloneBinding_eq staff_quiet rfl]
  exact ⟨rfl, rfl⟩

theorem spares_unbind (names : List (String × String)) (name : String) :
    (Action.unbind name).Spares names :=
  .intro nofun nofun

theorem ofStaff_opens : ofStaff.Opens observedStaff := by
  obtain ⟨hcells, hreactions⟩ := observedStaff_state
  refine ⟨⟨.bossAge, .bossAge, .live, dispatch callDepth, staff, ofStaff.members, 2,
    Lambda.compile_bossAge, by rw [hcells]; rfl, rfl, rfl⟩, fun c cell hc hne => ?_,
    fun r reaction hr x hx => ?_⟩
  · rw [hcells] at hc
    have hlt : c < 1 := (Array.getElem?_eq_some_iff.mp hc).1
    exact absurd (Nat.lt_one_iff.mp hlt) hne
  · rw [hreactions] at hr
    rcases r with _ | _ | r
    · cases hr
      cases List.mem_singleton.mp hx
      exact spares_unbind _ _
    · cases hr
      cases hx
    · cases hr

/-- The first observer unbinds when told of the age; both are told of the age before either is told
that there is none any more. -/
theorem delivers_in_order_ofStaff :
    let w := (observedStaff.clearReports.perform (dispatch callDepth) (.bind "b" (.fixed employee))).2
    ∃ cell, w.cells[0]? = some cell ∧ cell.reported.length = 2 ∧
      ofStaff.heard w.events = ofStaff.tellings cell.reported ∧
      Leads .standard none cell.reported cell.live.root := by
  intro w
  have hrun : Performs (·.Spares ofStaff.names) observedStaff ([] ++ w.events) w :=
    .act callDepth .refl (.intro nofun nofun)
  have hcell : (w.cells[0]?).any (fun cell => cell.reported.length == 2 &&
      cell.observers == ofStaff.members) = true := by decide +kernel
  obtain ⟨cell, hcell, hend⟩ := (Option.any_eq_true _ _).mp hcell
  obtain ⟨htwo, hstay⟩ := by simpa using hend
  obtain ⟨htold, -, hleads, -⟩ :=
    ofStaff_opens.delivers_in_order hrun (by decide +kernel) hcell (hstay ▸ .refl _)
  exact ⟨cell, hcell, htwo, htold, hleads⟩

end Audience

end LiveExpr
