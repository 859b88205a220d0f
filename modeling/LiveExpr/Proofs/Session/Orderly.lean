import LiveExpr.Proofs.Live.Upkeep
import LiveExpr.Proofs.Session.Subscriptions

/-!
Worlds between calls. No graph is propagating, the subscriptions are those that the graphs hold, and
whatever may run stays within its bounds; one binding is watched, as what it still has to be told of
passes from the heap to the handlers that are yet to be called.
-/

namespace LiveExpr

/-! ## Actions within bounds -/

/-- Whatever is allocated for it, the value has the property. -/
def Literal.Only (P : Value → Prop) (l : Literal) : Prop :=
  ∀ w, P (l.instantiate w).1

/-- Members are set, changes announced, and bindings bound, unbound and observed, by scripts that do
no more than that themselves. -/
inductive Action.Within (sc : Scope) : Action → Prop
  | set {object : Nat} {member : String} {value : Literal} : sc.changes object →
      value.Only (sc.holds object member) → Within sc (.set object member value)
  | touch (object : Nat) : Within sc (.touch object)
  | announce (object : Nat) (member : Option String) : Within sc (.announce object member)
  | bind {name : String} {value : Literal} : value.Only (sc.binds name) → Within sc (.bind name value)
  | unbind (name : String) : Within sc (.unbind name)
  | observe (name observer : String) {script : List Action} (times : Nat)
      (onlyWhen : Option (Option Literal)) : (∀ a ∈ script, Within sc a) →
      Within sc (.observe name observer script times onlyWhen)
  | unobserve (name observer : String) : Within sc (.unobserve name observer)
  | value (name : String) : Within sc (.value name)

/-- No two nodes share a subscription. -/
theorem Live.Hooked.watchAt_inj {c : Nat} {l : Live} {w : World} (hl : l.Hooked (.sink c) w)
    {i j : Nat} {watch : Watch} (hi : l.watchAt i = some watch) (hj : l.watchAt j = some watch) :
    i = j := by
  have hmember : ∀ {n}, l.watchAt n = some watch → ∃ member, l.observedMember? n = some member := by
    intro n hn
    refine Option.isSome_iff_exists.mp (Option.isSome_iff_ne_none.mpr fun hnone => ?_)
    rw [hl.unobserved n hnone] at hn
    cases hn
  obtain ⟨m, hm⟩ := hmember hi
  obtain ⟨m', hm'⟩ := hmember hj
  have hmem := (hl.hooks watch.object watch.key i m).mpr ⟨hi, hm⟩
  have hmem' := (hl.hooks watch.object watch.key j m').mpr ⟨hj, hm'⟩
  cases (hl.keyed watch.object).unique hmem hmem'
  rfl

namespace World

variable {w w' w'' : World} {sc : Scope}

def stale (w : World) (id : Nat) (member : String) : Prop :=
  ∃ o, w.objects[id]? = some o ∧ member ∈ o.unannounced

def Tends (w : World) (c : Nat) (l : Live) : Prop :=
  l.Tracked (.sink c) Quiet w.capable w

theorem Tends.outside {c : Nat} {l : Live} (ht : w.Tends c l) (ho : Outside (.sink c) w w')
    (hq : w'.Quiet) : w'.Tends c l := by
  have hcapable : w'.capable = w.capable := funext ho.capable
  have hkept := ht.toKept.outside ho hq
  rw [Tends, hcapable]
  exact ⟨hkept, ht.following⟩

theorem notifier_of_objects (h : w'.objects = w.objects) (id : Nat) :
    w'.notifier id = w.notifier id := by
  rw [notifier, notifier, h]

theorem Tends.ofObjects {c : Nat} {l : Live} (ht : w.Tends c l) (h : w'.objects = w.objects) :
    w'.Tends c l :=
  ht.outside (.ofNotifiers (SameHeap.ofObjects h).capable (notifier_of_objects h))
    ((SameHeap.ofObjects h).quiet ht.safe)

theorem Tends.watchAt_inj {c : Nat} {l : Live} (ht : w.Tends c l) {i j : Nat} {watch : Watch}
    (hi : l.watchAt i = some watch) (hj : l.watchAt j = some watch) : i = j :=
  ht.hooked.watchAt_inj hi hj

/-- A world between calls. -/
structure Orderly (sc : Scope) (w : World) : Prop where
  quiet : w.Quiet
  holds : ∀ (id : Nat) (o : HostObject Handler) (member : String) (v : Value),
    w.objects[id]? = some o → o.members.get? member = some v → sc.holds id member v
  keyed : ∀ id, (w.notifier id).Keyed
  sinks : ∀ id key c node member, (key, .sink c node member) ∈ (w.notifier id).handlers →
    c < w.cells.size
  cells : ∀ (c : Nat) (cell : Cell), w.cells[c]? = some cell →
    cell.busy = false ∧ cell.owned = true ∧ w.Tends c cell.live
  names : ∀ name c, w.bindingCell? name = some c → c < w.cells.size
  distinct : ∀ name name' c, w.bindingCell? name = some c → w.bindingCell? name' = some c →
    name = name'
  named : ∀ (c : Nat) (cell : Cell), w.cells[c]? = some cell →
    ∀ x ∈ cell.observers, w.bindingCell? x.2.binding = some c
  scripts : ∀ (r : Nat) (reaction : Reaction), w.reactions[r]? = some reaction →
    ∀ a ∈ reaction.script, a.Within sc
  log : ∀ r, .ignored r ∉ w.log

theorem Orderly.allows (hw : w.Orderly sc) : sc.Allows w.read := by
  have hobject : ∀ (id : Nat) (member : String),
      (w.objects[id]?).elim Value.null (·.read member) = .null ∨
        sc.holds id member ((w.objects[id]?).elim Value.null (·.read member)) := by
    intro id member
    cases ho : w.objects[id]? with
    | none => exact .inl rfl
    | some o =>
        cases hv : o.members.get? member with
        | none => exact .inl (by rw [Option.elim_some, HostObject.read, hv]; rfl)
        | some v =>
            refine .inr ?_
            rw [Option.elim_some, HostObject.read, hv]
            exact hw.holds id o member v ho hv
  intro member v
  cases v with
  | object r | struct r => exact hobject r.id member
  | _ => rfl

/-! ## One binding -/

end World

/-- A binding, its name and the prototype that it was copied from, which follows whatever may change
within the scope. -/
structure Subject where
  scope : Scope
  name : String
  cell : Nat
  lambda : Lambda
  prototype : Prototype
  compiles : lambda.compile = .ok prototype
  followable : Followable scope (scope.binds name) prototype.graph

def Cell.face (cell : Cell) : Live × Bool × Bool :=
  (cell.live, cell.busy, cell.owned)

/-- The subscriptions, by object and key, whose handlers are yet to be called. -/
abbrev Pending := Nat → Nat → Prop

namespace World

variable {w w' w'' : World} {b : Subject} {after after' : Pending → Pending}

structure Maintains (b : Subject) (pending : Pending) (w : World) : Prop where
  name : w.bindingCell? b.name = some b.cell
  live : ∀ cell : Cell, w.cells[b.cell]? = some cell →
    cell.live.Maintained b.scope (b.scope.binds b.name) b.prototype w.read w.stale pending

/-- From one world between calls to a later one. Unless calls have been left out, the binding is kept
up to date, where `after` tells what is pending afterwards; keys keep their handlers. -/
structure Evolves (b : Subject) (after : Pending → Pending) (w w' : World) : Prop where
  orderly : w'.Orderly b.scope
  bindings : w'.bindings = w.bindings
  size : w'.cells.size = w.cells.size
  nextKey : ∀ id, (w.notifier id).nextKey ≤ (w'.notifier id).nextKey
  old : ∀ id, ∀ x ∈ (w'.notifier id).handlers, x.1 < (w.notifier id).nextKey →
    x ∈ (w.notifier id).handlers
  exhausted : w'.exhausted = false → w.exhausted = false
  maintains : w'.exhausted = false → ∀ pending, w.Maintains b pending → w'.Maintains b (after pending)

theorem Evolves.refl (hw : w.Orderly b.scope) : Evolves b id w w :=
  ⟨hw, rfl, rfl, fun _ => Nat.le_refl _, fun _ _ hx _ => hx, fun h => h, fun _ _ h => h⟩

theorem Evolves.trans (a : Evolves b after w w') (c : Evolves b after' w' w'') :
    Evolves b (after' ∘ after) w w'' where
  orderly := c.orderly
  bindings := c.bindings.trans a.bindings
  size := c.size.trans a.size
  nextKey id := Nat.le_trans (a.nextKey id) (c.nextKey id)
  old id x hx hlt := a.old id x (c.old id x hx (Nat.lt_of_lt_of_le hlt (a.nextKey id))) hlt
  exhausted h := a.exhausted (c.exhausted h)
  maintains h pending hm := c.maintains h _ (a.maintains (c.exhausted h) pending hm)

theorem Maintains.mono {pending pending' : Pending} (hm : w.Maintains b pending)
    (hp : ∀ o key, pending o key → pending' o key) : w.Maintains b pending' :=
  ⟨hm.name, fun cell hc => (hm.live cell hc).mono hp⟩

theorem Evolves.mono (a : Evolves b after w w')
    (h : ∀ pending o key, after pending o key → after' pending o key) : Evolves b after' w w' :=
  { a with maintains := fun hex pending hm => (a.maintains hex pending hm).mono (h pending) }

theorem Evolves.foldl {α : Type} {f : World → α → World} (xs : List α)
    (hf : ∀ {u}, ∀ x ∈ xs, u.Orderly b.scope → Evolves b id u (f u x)) (hw : w.Orderly b.scope) :
    Evolves b id w (xs.foldl f w) := by
  induction xs generalizing w with
  | nil => exact .refl hw
  | cons x xs ih =>
      have hx := hf x List.mem_cons_self hw
      exact hx.trans (ih (fun y hy => hf y (List.mem_cons_of_mem x hy)) hx.orderly)

/-! ## Changes that matter to nobody -/

/-- The same objects, graphs and names. Who observes, and what is counted, recorded or still to be
delivered may differ. -/
structure SameState (sc : Scope) (w w' : World) : Prop where
  objects : w'.objects = w.objects
  cells : ∀ c : Nat, (w'.cells[c]?).map Cell.face = (w.cells[c]?).map Cell.face
  observers : ∀ (c : Nat) (cell' : Cell), w'.cells[c]? = some cell' → ∀ x ∈ cell'.observers,
    (∃ cell : Cell, w.cells[c]? = some cell ∧ x ∈ cell.observers) ∨
      w.bindingCell? x.2.binding = some c
  size : w'.cells.size = w.cells.size
  bindings : w'.bindings = w.bindings
  exhausted : w'.exhausted = w.exhausted
  scripts : ∀ (r : Nat) (reaction : Reaction), w'.reactions[r]? = some reaction →
    (∃ old : Reaction, w.reactions[r]? = some old ∧ old.script = reaction.script) ∨
      ∀ a ∈ reaction.script, a.Within sc
  log : ∀ r, .ignored r ∈ w'.log → .ignored r ∈ w.log

theorem SameState.cell {sc : Scope} (h : SameState sc w w') {c : Nat} {cell' : Cell}
    (hc : w'.cells[c]? = some cell') : ∃ cell : Cell, w.cells[c]? = some cell ∧
      cell'.live = cell.live ∧ cell'.busy = cell.busy ∧ cell'.owned = cell.owned := by
  have hface := h.cells c
  rw [hc] at hface
  obtain ⟨cell, hcell, heq⟩ := Option.map_eq_some_iff.mp hface.symm
  simp only [Cell.face, Prod.mk.injEq] at heq
  exact ⟨cell, hcell, heq.1.symm, heq.2.1.symm, heq.2.2.symm⟩

theorem SameState.orderly {sc : Scope} (h : SameState sc w w') (hw : w.Orderly sc) :
    w'.Orderly sc where
  quiet := (SameHeap.ofObjects h.objects).quiet hw.quiet
  holds id o member v ho := hw.holds id o member v (h.objects ▸ ho)
  keyed id := by
    rw [notifier_of_objects h.objects]
    exact hw.keyed id
  sinks id key c node member hmem := by
    rw [notifier_of_objects h.objects] at hmem
    rw [h.size]
    exact hw.sinks id key c node member hmem
  cells c cell' hc := by
    obtain ⟨cell, hcell, hlive, hbusy, howned⟩ := h.cell hc
    obtain ⟨hb, ho, ht⟩ := hw.cells c cell hcell
    rw [hlive, hbusy, howned]
    exact ⟨hb, ho, ht.ofObjects h.objects⟩
  names name c hc := by
    rw [bindingCell?, h.bindings] at hc
    rw [h.size]
    exact hw.names name c hc
  distinct name name' c hc hc' := by
    rw [bindingCell?, h.bindings] at hc hc'
    exact hw.distinct name name' c hc hc'
  named c cell' hc x hx := by
    rw [bindingCell?, h.bindings]
    rcases h.observers c cell' hc x hx with ⟨cell, hcell, hold⟩ | hnew
    · exact hw.named c cell hcell x hold
    · exact hnew
  scripts r reaction hr := by
    rcases h.scripts r reaction hr with ⟨old, hold, hscript⟩ | hall
    · rw [← hscript]
      exact hw.scripts r old hold
    · exact hall
  log r hr := hw.log r (h.log r hr)

theorem SameState.evolves (h : SameState b.scope w w') (hw : w.Orderly b.scope) :
    Evolves b id w w' where
  orderly := h.orderly hw
  bindings := h.bindings
  size := h.size
  nextKey id := by rw [notifier_of_objects h.objects]
  old id x hx _ := by rwa [notifier_of_objects h.objects] at hx
  exhausted hex := h.exhausted ▸ hex
  maintains _ pending hm := by
    have hread : w'.read = w.read := (SameHeap.ofObjects h.objects).read
    have hstale : w'.stale = w.stale := by
      funext id member
      rw [stale, stale, h.objects]
    refine ⟨by rw [bindingCell?, h.bindings]; exact hm.name, fun cell' hc => ?_⟩
    obtain ⟨cell, hcell, hlive, -⟩ := h.cell hc
    rw [hlive, hread, hstale]
    exact hm.live cell hcell

theorem SameState.modifyCell {sc : Scope} (w : World) (c : Nat) {f : Cell → Cell}
    (hf : ∀ cell, (f cell).face = cell.face)
    (ho : ∀ cell, ∀ x ∈ (f cell).observers,
      x ∈ cell.observers ∨ w.bindingCell? x.2.binding = some c) :
    SameState sc w (w.modifyCell c f) where
  objects := rfl
  cells j := by
    rw [World.modifyCell, Array.getElem?_modify]
    split
    · rw [Option.map_map]
      congr 1
      funext cell
      exact hf cell
    · rfl
  observers j cell' hc x hx := by
    rw [World.modifyCell, Array.getElem?_modify] at hc
    split at hc
    · obtain ⟨cell, hcell, rfl⟩ := Option.map_eq_some_iff.mp hc
      subst j
      exact (ho cell x hx).imp_left fun hold => ⟨cell, hcell, hold⟩
    · exact .inl ⟨cell', hc, hx⟩
  size := Array.size_modify
  bindings := rfl
  exhausted := rfl
  scripts r reaction hr := .inl ⟨reaction, hr, rfl⟩
  log _ hr := hr

theorem SameState.ofFields {sc : Scope} (ho : w'.objects = w.objects) (hc : w'.cells = w.cells)
    (hb : w'.bindings = w.bindings) (he : w'.exhausted = w.exhausted)
    (hr : w'.reactions = w.reactions) (hl : w'.log = w.log) : SameState sc w w' where
  objects := ho
  cells c := by rw [hc]
  observers c cell h x hx := .inl ⟨cell, hc ▸ h, hx⟩
  size := by rw [hc]
  bindings := hb
  exhausted := he
  scripts r reaction h := .inl ⟨reaction, hr ▸ h, rfl⟩
  log _ h := hl ▸ h

/-! ## Changes of members -/

theorem notifier_modifyObject (w : World) (id : Nat) {f : HostObject Handler → HostObject Handler}
    (hf : ∀ o, (f o).notifier = o.notifier) (j : Nat) :
    (w.modifyObject id f).notifier j = w.notifier j := by
  rw [notifier, notifier, objects_modifyObject]
  split
  · cases w.objects[j]? with
    | none => rfl
    | some o => simp only [Option.map_some, Option.bind_some, hf]
  · rfl

theorem capable_modifyObject (w : World) (id : Nat) {f : HostObject Handler → HostObject Handler}
    (hf : ∀ o, (f o).notifier = o.notifier) (j : Nat) :
    (w.modifyObject id f).capable j = w.capable j := by
  rw [capable, capable, objects_modifyObject]
  split
  · cases w.objects[j]? with
    | none => rfl
    | some o => simp only [Option.map_some, Option.bind_some, hf]
  · rfl

theorem Orderly.modifyObject {sc : Scope} (hw : w.Orderly sc) (object : Nat)
    {f : HostObject Handler → HostObject Handler} (hk : ∀ o, (f o).kind = o.kind)
    (hn : ∀ o, (f o).notifier = o.notifier)
    (hm : ∀ o member v, (f o).members.get? member = some v →
      o.members.get? member = some v ∨ sc.holds object member v) :
    (w.modifyObject object f).Orderly sc where
  quiet := hw.quiet.modifyObject object hk
  holds j o' member v ho' hv := by
    rw [objects_modifyObject] at ho'
    split at ho'
    · subst j
      obtain ⟨o, ho, rfl⟩ := Option.map_eq_some_iff.mp ho'
      rcases hm o member v hv with hv | hv
      · exact hw.holds object o member v ho hv
      · exact hv
    · exact hw.holds j o' member v ho' hv
  keyed j := by
    rw [notifier_modifyObject w object hn]
    exact hw.keyed j
  sinks j key c node member hmem := by
    rw [notifier_modifyObject w object hn] at hmem
    exact hw.sinks j key c node member hmem
  cells c cell hc := by
    obtain ⟨hb, ho, ht⟩ := hw.cells c cell hc
    refine ⟨hb, ho, ht.outside ?_ (hw.quiet.modifyObject object hk)⟩
    exact .ofNotifiers (capable_modifyObject w object hn) (notifier_modifyObject w object hn)
  names := hw.names
  distinct := hw.distinct
  named := hw.named
  scripts := hw.scripts
  log := hw.log

theorem evolves_modifyObject {object : Nat} {f : HostObject Handler → HostObject Handler}
    (hn : ∀ o, (f o).notifier = o.notifier) (ho : (w.modifyObject object f).Orderly b.scope)
    (hm : ∀ pending (cell : Cell), w.cells[b.cell]? = some cell → w.Maintains b pending →
      cell.live.Maintained b.scope (b.scope.binds b.name) b.prototype (w.modifyObject object f).read
        (w.modifyObject object f).stale (after pending)) :
    Evolves b after w (w.modifyObject object f) where
  orderly := ho
  bindings := rfl
  size := rfl
  nextKey j := by rw [notifier_modifyObject w object hn]
  old j x hx _ := by rwa [notifier_modifyObject w object hn] at hx
  exhausted hex := hex
  maintains _ pending hmain := ⟨hmain.name, fun cell hc => hm pending cell hc hmain⟩

theorem stale_write {object j : Nat} {name member : String} {v : Value} (hs : w.stale j member) :
    (w.modifyObject object (·.write name v)).stale j member := by
  obtain ⟨o, ho, hmem⟩ := hs
  rw [stale, objects_modifyObject, ho]
  split
  · refine ⟨o.write name v, rfl, ?_⟩
    rw [HostObject.write]
    split
    · exact hmem
    · exact List.mem_cons_of_mem _ hmem
  · exact ⟨o, rfl, hmem⟩

theorem read_write (w : World) (object : Nat) (name : String) (v : Value) (j : Nat)
    (member : String) :
    (w.objects[j]?).elim Value.null (·.read member) ==
        ((w.modifyObject object (·.write name v)).objects[j]?).elim Value.null (·.read member) ∨
      (j = object ∧ (w.modifyObject object (·.write name v)).stale j member) := by
  rw [stale, objects_modifyObject]
  by_cases hj : object = j
  · subst j
    rw [if_pos rfl]
    cases ho : w.objects[object]? with
    | none => exact .inl BEq.rfl
    | some o =>
        simp only [Option.map_some, Option.elim_some, HostObject.read_write]
        by_cases hm : member = name
        · subst hm
          rw [if_pos rfl]
          by_cases heq : o.read member == v
          · exact .inl heq
          · refine .inr ⟨trivial, _, rfl, ?_⟩
            simp [HostObject.write, heq]
        · rw [if_neg hm]
          exact .inl BEq.rfl
  · rw [if_neg hj]
    exact .inl BEq.rfl

/-- Until it is announced, a change leaves stale the member that is set. -/
theorem write_evolves (hw : w.Orderly b.scope) {object : Nat} {name : String} {v : Value}
    (hc : b.scope.changes object) (hv : b.scope.holds object name v) :
    Evolves b id w (w.modifyObject object (·.write name v)) := by
  refine evolves_modifyObject (fun _ => rfl) (hw.modifyObject object (fun _ => rfl) (fun _ => rfl) ?_) ?_
  · intro o member u hu
    simp only [HostObject.write, Members.get?_put] at hu
    split at hu
    · subst member
      cases hu
      exact .inr hv
    · exact .inl hu
  · intro pending cell hcell hmain
    refine (hmain.live cell hcell).changed b.followable (fun _ _ => stale_write) fun member u => ?_
    cases u with
    | object r | struct r =>
        rcases read_write w object name v r.id member with hsame | ⟨hid, hstale⟩
        · exact .inl hsame
        · exact .inr ⟨r, by simp, hid ▸ hc, hstale⟩
    | _ => exact .inl BEq.rfl

/-- The subscriptions of a binding among the handlers that are told of a change. -/
def told (c object : Nat) (changed : Option String) (handlers : List (Nat × Handler)) : Pending :=
  fun o key => o = object ∧
    ∃ node member, (key, .sink c node member) ∈ handlers ∧ concerns changed member = true

theorem read_announced (w : World) (object : Nat) (changed : Option String) :
    (w.modifyObject object (·.announced changed)).read = w.read := by
  refine read_congr fun j member => ?_
  rw [objects_modifyObject]
  split
  · cases w.objects[j]? with
    | none => rfl
    | some o =>
        simp only [Option.map_some, Option.elim_some, HostObject.announced]
        split <;> rfl
  · rfl

/-- A stale member stays so, unless its object is announcing a change of it. -/
theorem stale_announced {object : Nat} {changed : Option String} {j : Nat} {member : String}
    (hs : w.stale j member) :
    (w.modifyObject object (·.announced changed)).stale j member ∨
      (j = object ∧ w.capable j = true ∧ concerns changed member = true) := by
  obtain ⟨o, ho, hmem⟩ := hs
  rw [stale, objects_modifyObject, ho]
  by_cases hj : object = j
  · rw [if_pos hj]
    by_cases hn : o.notifier.isSome
    · by_cases hc : concerns changed member = true
      · refine .inr ⟨hj.symm, ?_, hc⟩
        rw [capable, ho]
        exact hn
      · refine .inl ⟨_, rfl, ?_⟩
        simp [HostObject.announced, hn, hmem, hc]
    · refine .inl ⟨_, rfl, ?_⟩
      simp [HostObject.announced, hn, hmem]
  · rw [if_neg hj]
    exact .inl ⟨o, rfl, hmem⟩

/-- What an announced change leaves stale no longer is pending instead. -/
theorem announced_evolves (hw : w.Orderly b.scope) (object : Nat) (changed : Option String) :
    Evolves b (fun pending o key => pending o key ∨
        told b.cell object changed (w.notifier object).handlers o key)
      w (w.modifyObject object (·.announced changed)) := by
  have hkeep : ∀ o : HostObject Handler, (o.announced changed).kind = o.kind ∧
      (o.announced changed).notifier = o.notifier ∧ (o.announced changed).members = o.members := by
    intro o
    rw [HostObject.announced]
    split <;> exact ⟨rfl, rfl, rfl⟩
  have horderly := hw.modifyObject object (f := (·.announced changed)) (fun o => (hkeep o).1)
    (fun o => (hkeep o).2.1) fun o member v hv => by
      rw [(hkeep o).2.2] at hv
      exact .inl hv
  refine evolves_modifyObject (fun o => (hkeep o).2.1) horderly fun pending cell hcell hmain => ?_
  rw [read_announced]
  refine (hmain.live cell hcell).ofAwaits fun node hnode => ?_
  obtain ⟨member, hm, hwait⟩ := hnode
  refine ⟨member, hm, fun hb => ?_⟩
  obtain ⟨r, hr, hstale | ⟨key, hkey, hpend⟩⟩ := hwait hb
  · rcases stale_announced hstale with hstale | ⟨hid, hcap, hconcerns⟩
    · exact ⟨r, hr, .inl hstale⟩
    · -- the node follows the object, so that its handler is among those to be called
      obtain ⟨-, -, ht⟩ := hw.cells b.cell cell hcell
      obtain ⟨key, hkey⟩ := (Live.following_iff (ht.following node) r.id).mpr
        ⟨hb, by rw [hm]; rfl, hcap, r, hr, rfl⟩
      have hhandler := (ht.hooked.hooks r.id key node member).mpr ⟨hkey, hm⟩
      rw [hid] at hhandler
      exact ⟨r, hr, .inr ⟨key, hkey, .inr ⟨hid, node, member, hhandler, hconcerns⟩⟩⟩
  · exact ⟨r, hr, .inr ⟨key, hkey, .inl hpend⟩⟩

end World

end LiveExpr
