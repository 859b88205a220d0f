import LiveExpr.Proofs.Session.Attendance
import LiveExpr.Proofs.Session.Hooks
import LiveExpr.Proofs.Session.Roster

/-!
Whatever runs, to any depth of calls: what it enters in the roster leads from the desks before to those
after, and says what observers are told. While a change is being delivered from a cell, the round of the
cell is left to that delivery.
-/

namespace LiveExpr

/-- Who is told of which change, by the names of the binding and of the observer. -/
def Event.change? : Event → Option ((String × String) × ResultChange)
  | .change binding label news => some ((binding, label), news)
  | _ => none

def RosterEntry.telling? : RosterEntry → Option ((String × String) × ResultChange)
  | told _ _ o change => some (o.name, change)
  | _ => none

namespace World

variable {c : Nat} {d : Dispatcher} {w w' w'' : World} {x : Option Nat}

def delivers (c : Nat) (w : World) : Bool :=
  (w.cells[c]?).any (·.delivering)

def tellings (w : World) : List ((String × String) × ResultChange) :=
  w.events.filterMap Event.change?

/-! ## Nothing about observers -/

/-- Nobody is subscribed, unsubscribed or told, and deliveries go on. -/
structure Uneventful (w w' : World) : Prop where
  roster : w'.roster = w.roster
  desk : ∀ c r, w'.desk c r = w.desk c r
  tellings : w'.tellings = w.tellings
  delivers : ∀ c, w.delivers c = true → w'.delivers c = true

theorem Uneventful.ofFields (hc : w'.cells = w.cells) (he : w'.events = w.events)
    (hr : w'.roster = w.roster) : Uneventful w w' where
  roster := hr
  desk := desk_ofCells hc
  tellings := by rw [World.tellings, he, World.tellings]
  delivers c h := by rwa [World.delivers, hc]

theorem Uneventful.record {e : Event} (he : e.change? = none) (w : World) :
    Uneventful w (w.record e) where
  roster := rfl
  desk := desk_ofCells rfl
  tellings := by simp [World.tellings, World.record, he]
  delivers _ h := h

theorem delivers_modifyCell (w : World) (j : Nat) {f : Cell → Cell}
    (hf : ∀ cell, (f cell).delivering = cell.delivering) (c : Nat) :
    (w.modifyCell j f).delivers c = w.delivers c := by
  by_cases hj : j = c
  · subst j
    cases hc : w.cells[c]? <;> simp [delivers, modifyCell, Array.getElem?_modify, hc, hf]
  · simp [delivers, cells_modifyCell_of_ne hj]

theorem Uneventful.modifyCell (w : World) (c : Nat) {f : Cell → Cell}
    (ho : ∀ cell, (f cell).observers = cell.observers ∧ (f cell).nextObserver = cell.nextObserver)
    (hd : ∀ cell, (f cell).delivering = cell.delivering) : Uneventful w (w.modifyCell c f) where
  roster := rfl
  desk := desk_modifyCell w c ho
  tellings := rfl
  delivers j h := by rwa [delivers_modifyCell w c hd]

theorem Uneventful.pushCell (w : World) (live : Live) (bindings : List (String × Nat)) :
    Uneventful w { w with cells := w.cells.push (.ofLive live), bindings } where
  roster := rfl
  desk := desk_pushCell rfl
  tellings := rfl
  delivers c h := by
    unfold World.delivers at h ⊢
    cases hc : w.cells[c]? with
    | none => simp [hc] at h
    | some cell =>
        have hlt := (Array.getElem?_eq_some_iff.mp hc).1
        simpa [Array.getElem?_push, hlt.ne, hc] using h

theorem uneventful_subscribe (id : Nat) (handler : Handler) (w : World) :
    Uneventful w (w.subscribe id handler).2 := by
  unfold World.subscribe
  split <;> exact .ofFields rfl rfl rfl

theorem uneventful_instantiate (l : Literal) (w : World) : Uneventful w (l.instantiate w).2 := by
  obtain ⟨n, hn⟩ := l.instantiate_keeps w
  rw [hn]
  exact .ofFields rfl rfl rfl

theorem uneventful_instantiateAll (ls : List Literal) (w : World) :
    Uneventful w (Literal.instantiateAll ls w).2 := by
  obtain ⟨n, hn⟩ := Literal.instantiateAll_keeps ls w
  rw [hn]
  exact .ofFields rfl rfl rfl

/-! ## What is entered -/

/-- What happens is entered in the roster, whatever rounds are open before. The rounds of cells that are
being delivered from are left alone, except perhaps that of `x`. -/
structure Enacted (x : Option Nat) (w w' : World) : Prop where
  delivers : ∀ c, w.delivers c = true → w'.delivers c = true
  entered : ∃ es, w'.roster = w.roster ++ es ∧
    w'.tellings = w.tellings ++ es.filterMap RosterEntry.telling? ∧
    ∀ c r, ∃ r', Desk.Run c (w.desk c r) es (w'.desk c r') ∧
      (some c ≠ x → w.delivers c = true → r' = r)

theorem Uneventful.enacted (h : Uneventful w w') : Enacted x w w' where
  delivers := h.delivers
  entered := ⟨[], by rw [h.roster, List.append_nil], by rw [h.tellings, List.filterMap_nil, List.append_nil],
    fun c r => ⟨r, by rw [h.desk]; exact .nil _, fun _ _ => rfl⟩⟩

namespace Enacted

theorem refl (w : World) : Enacted x w w :=
  (Uneventful.ofFields rfl rfl rfl).enacted

theorem trans (h : Enacted x w w') (h' : Enacted x w' w'') : Enacted x w w'' where
  delivers c hc := h'.delivers c (h.delivers c hc)
  entered := by
    obtain ⟨es, hroster, htold, hrun⟩ := h.entered
    obtain ⟨es', hroster', htold', hrun'⟩ := h'.entered
    refine ⟨es ++ es', ?_, ?_, fun c r => ?_⟩
    · rw [hroster', hroster, List.append_assoc]
    · rw [htold', htold, List.filterMap_append, List.append_assoc]
    · obtain ⟨r₁, hfst, hkept⟩ := hrun c r
      obtain ⟨r₂, hsnd, hkept'⟩ := hrun' c r₁
      refine ⟨r₂, hfst.append hsnd, fun hx hc => ?_⟩
      rw [hkept' hx (h.delivers c hc), hkept hx hc]

theorem foldl {α : Type} {f : World → α → World} (ys : List α)
    (hf : ∀ u, ∀ y ∈ ys, Enacted x u (f u y)) : Enacted x w (ys.foldl f w) := by
  induction ys generalizing w with
  | nil => exact .refl w
  | cons y ys ih =>
      exact (hf w y List.mem_cons_self).trans (ih fun u z hz => hf u z (List.mem_cons_of_mem y hz))

theorem addObserver (c : Nat) (o : Observer) (w : World) : Enacted none w (w.addObserver c o).2 where
  delivers j hj := by
    unfold World.addObserver
    split
    · exact hj
    · exact (delivers_modifyCell w c (by intro _; rfl) j).trans hj
  entered := by
    have htold : (w.addObserver c o).2.tellings = w.tellings := by
      unfold World.addObserver
      split <;> rfl
    cases h : w.addObserver c o with
    | mk id v =>
        rw [h] at htold
        cases id with
        | some id =>
            exact ⟨_, roster_addObserver h, htold.trans (List.append_nil _).symm,
              fun j r => ⟨r, addObserver_run h j r, fun _ _ => rfl⟩⟩
        | none =>
            unfold World.addObserver at h
            split at h
            · obtain ⟨-, rfl⟩ := Prod.mk.inj h
              exact (Enacted.refl (x := none) w).entered
            · cases h

theorem removeObserver (c id : Nat) (w : World) : Enacted none w (w.removeObserver c id).2 where
  delivers j hj := (delivers_modifyCell w c (by intro _; rfl) j).trans hj
  entered := ⟨_, roster_removeObserver c id w, (List.append_nil _).symm,
    fun j r => ⟨r, removeObserver_run c id w j r, fun _ _ => rfl⟩⟩

end Enacted

/-! ## What is handed out -/

/-- An observer is told first of all, unless the call is left out; an outbox is delivered only from a
cell that has been marked for it. -/
structure Enacting (d : Dispatcher) : Prop where
  handler : ∀ (h : Handler) (changed : Option String) (w : World),
    Enacted none w (d (.handler h changed) w)
  observer : ∀ (c id : Nat) (o : Observer) (change : ResultChange) (w : World),
    Enacted none w (d (.observer c id o change) w) ∨
      Enacted none ((w.enter (.told c id o change)).record (.change o.binding o.label change))
        (d (.observer c id o change) w)
  deliver : ∀ {w : World} {c : Nat}, w.delivers c = true → Enacted (some c) w (d (.deliver c) w)

/-! ## Services -/

section

variable (hd : Enacting d)

include hd

theorem announce_enacted (id : Nat) (changed : Option String) (w : World) :
    Enacted none w (w.announce d id changed) := by
  have hannounced : Uneventful w (w.modifyObject id (·.announced changed)) := .ofFields rfl rfl rfl
  refine hannounced.enacted.trans (.foldl _ fun u turn _ => ?_)
  obtain ⟨key, handler⟩ := turn
  simp only
  split
  · exact hd.handler handler changed u
  · exact .refl u

theorem readMember_enacted (id : Nat) (member : String) (w : World) :
    Enacted none w (w.readMember d id member).2 := by
  unfold readMember
  split
  · exact .refl w
  · simp only
    split
    · exact announce_enacted hd id (some member) w
    · exact .refl w

theorem writeMember_enacted (id : Nat) (member : String) (v : Value) (w : World) :
    Enacted none w (w.writeMember d id member v) := by
  unfold writeMember
  split
  · exact .refl w
  · have hwritten : Uneventful w (w.modifyObject id (·.write member v)) := .ofFields rfl rfl rfl
    simp only
    split
    · exact hwritten.enacted.trans (announce_enacted hd id (some member) _)
    · exact hwritten.enacted

theorem host_enacted (handler : Nat → String → Handler) (w : World) :
    (World.host d handler).Preserves (Enacted none w) where
  access member v hu := by
    refine hu.trans ?_
    cases v with
    | object r | struct r => exact readMember_enacted hd r.id member _
    | _ => exact .refl _
  watch r node member hu := hu.trans (uneventful_subscribe r.id (handler node member) _).enacted
  unwatch watch hu := by
    refine hu.trans (Uneventful.enacted ?_)
    exact .ofFields rfl rfl rfl
  note n hu := by
    refine hu.trans (Uneventful.enacted ?_)
    exact .ofFields rfl rfl rfl

/-! ## Requests -/

theorem propagating_enacted (c : Nat) {op : Live → World → Live × World}
    (hop : (cellHost d c).Conducts op) (l : Live) (w : World) :
    Enacted none w (w.propagating c op l) := by
  have hengaged : Uneventful w (w.engaged c) :=
    .modifyCell w c (fun _ => ⟨rfl, rfl⟩) fun _ => rfl
  rw [propagating_eq]
  refine (hop.preserves (host_enacted hd (.sink c) w) l hengaged.enacted).trans
    (Uneventful.enacted ?_)
  exact .modifyCell _ c (fun _ => ⟨rfl, rfl⟩) fun _ => rfl

/-- The round of a cell is its own as long as nothing is being delivered from it. -/
theorem flush_enacted (c : Nat) (w : World) : Enacted none w (w.flush d c) := by
  unfold flush
  split
  · exact .refl w
  · rename_i cell hcell
    split
    · exact .refl w
    · rename_i hidle
      have hstart : Uneventful w (w.modifyCell c ({ · with delivering := true })) := by
        refine ⟨rfl, desk_modifyCell w c fun _ => ⟨rfl, rfl⟩, rfl, fun j hj => ?_⟩
        by_cases hc : c = j
        · subst j
          simp [World.delivers, cells_modifyCell hcell]
        · simpa [World.delivers, cells_modifyCell_of_ne hc] using hj
      have hmarked : (w.modifyCell c ({ · with delivering := true })).delivers c = true := by
        simp [World.delivers, cells_modifyCell hcell]
      have hcall := hd.deliver hmarked
      simp only
      generalize d (.deliver c) (w.modifyCell c ({ · with delivering := true })) = u at hcall ⊢
      have hother : ∀ j, w.delivers j = true → c ≠ j := by
        rintro j hj rfl
        simp [World.delivers, hcell] at hj
        exact hidle hj
      refine ⟨fun j hj => ?_, ?_⟩
      · have hj' := hcall.delivers j (hstart.delivers j hj)
        simpa [World.delivers, cells_modifyCell_of_ne (hother j hj)] using hj'
      · obtain ⟨es, hroster, htold, hrun⟩ := hcall.entered
        refine ⟨es, hroster, htold, fun j r => ?_⟩
        obtain ⟨r', hrun, hkept⟩ := hrun j r
        refine ⟨r', ?_, fun _ hj => hkept (by simpa using (hother j hj).symm) (hstart.delivers j hj)⟩
        have hdesk : (u.modifyCell c ({ · with delivering := false })).desk j r' = u.desk j r' :=
          desk_modifyCell u c (f := ({ · with delivering := false })) (fun _ => ⟨rfl, rfl⟩) j r'
        rw [hstart.desk] at hrun
        rwa [hdesk]

omit hd in
theorem bury_enacted (d : Dispatcher) (c : Nat) (w : World) : Enacted none w (w.bury d c) := by
  unfold bury
  split
  · exact .refl w
  · simp only [cellHost, Live.releaseWatches_eq]
    split
    · rename_i cell _ _
      obtain ⟨-, hrest, -⟩ := @release_keeps cell.live.watches.toList w
      have hreleased : Uneventful w (w.release cell.live.watches.toList) := by
        rw [hrest]
        exact .ofFields rfl rfl rfl
      refine hreleased.enacted.trans (Uneventful.enacted ?_)
      exact .modifyCell _ c (fun _ => ⟨rfl, rfl⟩) fun _ => rfl
    · exact .refl w

theorem request_enacted (c : Nat) (r : Request) {op : Live → World → Live × World}
    (hop : (cellHost d c).Conducts op) (w : World) : Enacted none w (w.request d c r op) := by
  unfold request
  split
  · exact .refl w
  · rename_i cell _
    split
    · refine Uneventful.enacted ?_
      exact .ofFields rfl rfl rfl
    · have hstart : Uneventful w
          (w.modifyCell c fun cell => { cell with activations := cell.activations + 1 }) :=
        .modifyCell w c (fun _ => ⟨rfl, rfl⟩) fun _ => rfl
      have hdone := (hstart.enacted.trans (propagating_enacted hd c hop cell.live _)).trans
        (flush_enacted hd c _)
      refine (hdone.trans (Uneventful.enacted ?_)).trans (bury_enacted d c _)
      exact .modifyCell _ c (fun _ => ⟨rfl, rfl⟩) fun _ => rfl

/-- Those of a round whose turn has not come yet have their turns, except for calls that are left out. -/
theorem turns_enacted (c : Nat) (change : ResultChange) (turns : List (Nat × Observer)) {w : World}
    (hw : w.delivers c = true) :
    let w' := turns.foldl (fun w (id, o) => d (.observer c id o change) w) w
    (∀ j, w.delivers j = true → w'.delivers j = true) ∧
      ∃ es, w'.roster = w.roster ++ es ∧
        w'.tellings = w.tellings ++ es.filterMap RosterEntry.telling? ∧
        (∀ skipped, ∃ r', Desk.Run c (w.desk c (some ⟨change, skipped ++ turns⟩)) es (w'.desk c r')) ∧
        ∀ j r, j ≠ c → ∃ r', Desk.Run j (w.desk j r) es (w'.desk j r') ∧
          (w.delivers j = true → r' = r) := by
  induction turns generalizing w with
  | nil =>
      exact ⟨fun _ h => h, [], (List.append_nil _).symm, (List.append_nil _).symm,
        fun _ => ⟨_, .nil _⟩, fun _ r _ => ⟨r, .nil _, fun _ => rfl⟩⟩
  | cons turn rest ih =>
      obtain ⟨id, o⟩ := turn
      simp only [List.foldl_cons]
      rcases hd.observer c id o change w with hleft | htold
      · obtain ⟨es, hroster, htellings, hrun⟩ := hleft.entered
        obtain ⟨hdelivers, es', hroster', htellings', hown, hother⟩ := ih (hleft.delivers c hw)
        refine ⟨fun j hj => hdelivers j (hleft.delivers j hj), es ++ es', ?_, ?_, fun skipped => ?_,
          fun j r hj => ?_⟩
        · rw [hroster', hroster, List.append_assoc]
        · rw [htellings', htellings, List.filterMap_append, List.append_assoc]
        · obtain ⟨r₁, hfst, hkept⟩ := hrun c (some ⟨change, skipped ++ (id, o) :: rest⟩)
          obtain ⟨r₂, hsnd⟩ := hown (skipped ++ [(id, o)])
          rw [hkept nofun hw] at hfst
          rw [List.append_assoc, List.singleton_append] at hsnd
          exact ⟨r₂, hfst.append hsnd⟩
        · obtain ⟨r₁, hfst, hkept⟩ := hrun j r
          obtain ⟨r₂, hsnd, hkept'⟩ := hother j r₁ hj
          refine ⟨r₂, hfst.append hsnd, fun hdel => ?_⟩
          rw [hkept' (hleft.delivers j hdel), hkept nofun hdel]
      · obtain ⟨es, hroster, htellings, hrun⟩ := htold.entered
        obtain ⟨hdelivers, es', hroster', htellings', hown, hother⟩ := ih (htold.delivers c hw)
        refine ⟨fun j hj => hdelivers j (htold.delivers j hj), .told c id o change :: (es ++ es'), ?_, ?_,
          fun skipped => ?_, fun j r hj => ?_⟩
        · rw [hroster', hroster]
          simp [World.record, World.enter]
        · rw [htellings', htellings]
          simp [World.tellings, World.record, World.enter, Event.change?, RosterEntry.telling?, Observer.name]
        · obtain ⟨r₁, hfst, hkept⟩ := hrun c (some ⟨change, rest⟩)
          obtain ⟨r₂, hsnd⟩ := hown []
          rw [hkept nofun hw] at hfst
          exact ⟨r₂, .step .told (hfst.append hsnd)⟩
        · obtain ⟨r₁, hfst, hkept⟩ := hrun j r
          obtain ⟨r₂, hsnd, hkept'⟩ := hother j r₁ hj
          refine ⟨r₂, .other (Ne.symm hj) (hfst.append hsnd), fun hdel => ?_⟩
          rw [hkept' (htold.delivers j hdel), hkept nofun hdel]

/-- One round: the change is taken from the outbox, and those who are subscribed have their turns. -/
theorem round_enacted {w : World} {c : Nat} {cell : Cell} (change : ResultChange)
    (rest : List ResultChange) (hcell : w.cells[c]? = some cell) (hw : w.delivers c = true) :
    let w' := cell.observers.foldl (fun w (id, o) => d (.observer c id o change) w)
      ((w.modifyCell c ({ · with outbox := rest })).enter (.opened c change))
    Enacted (some c) w w' ∧ ∃ es, w'.roster = w.roster ++ .opened c change :: es := by
  have hpopped : ∀ j, ((w.modifyCell c ({ · with outbox := rest })).enter
      (.opened c change)).delivers j = w.delivers j :=
    delivers_modifyCell w c fun _ => rfl
  have hdesk : ∀ j r, ((w.modifyCell c ({ · with outbox := rest })).enter
      (.opened c change)).desk j r = w.desk j r :=
    desk_modifyCell w c fun _ => ⟨rfl, rfl⟩
  obtain ⟨hdelivers, es, hroster, htellings, hown, hother⟩ :=
    turns_enacted hd c change cell.observers
      (w := (w.modifyCell c ({ · with outbox := rest })).enter (.opened c change)) (by rwa [hpopped])
  simp only [hpopped, hdesk] at hdelivers hown hother
  have hentered := hroster.trans (List.append_assoc ..)
  refine ⟨⟨hdelivers, .opened c change :: es, hentered, htellings, fun j r => ?_⟩, es, hentered⟩
  by_cases hj : c = j
  · subst j
    have hround : [] ++ cell.observers = w.observersOf c := by simp [observersOf, hcell]
    obtain ⟨r', hrun⟩ := hown []
    rw [hround] at hrun
    exact ⟨r', .step (.opened change) hrun, fun hx => absurd rfl hx⟩
  · obtain ⟨r', hrun, hkept⟩ := hother j r (Ne.symm hj)
    exact ⟨r', .other hj hrun, fun _ => hkept⟩

theorem deliver_enacted {w : World} {c : Nat} (hw : w.delivers c = true) :
    Enacted (some c) w (w.deliver d c) := by
  unfold deliver
  split
  · exact .refl w
  · rename_i cell hcell
    split
    · exact .refl w
    · rename_i change rest _
      obtain ⟨hround, -⟩ := round_enacted hd change rest hcell hw
      exact hround.trans (hd.deliver (hround.delivers c hw))

theorem roster_deliver {w : World} {c : Nat} {cell : Cell} {change : ResultChange}
    {rest : List ResultChange} (hcell : w.cells[c]? = some cell) (hw : cell.delivering = true)
    (houtbox : cell.outbox = change :: rest) :
    ∃ es, (w.deliver d c).roster = w.roster ++ .opened c change :: es := by
  have hdelivers : w.delivers c = true := by simp [World.delivers, hcell, hw]
  obtain ⟨hround, es, hroster⟩ := round_enacted hd change rest hcell hdelivers
  obtain ⟨es', hroster', -⟩ := (hd.deliver (hround.delivers c hdelivers)).entered
  refine ⟨es ++ es', ?_⟩
  simp only [deliver, hcell, houtbox]
  rw [hroster', hroster, List.append_assoc, List.cons_append]

/-! ## Actions -/

omit hd in
theorem onObject_enacted (id : Nat) {act : HostObject Handler → World → Reply × World}
    (hact : ∀ o, Enacted none w (act o w).2) : Enacted none w (w.onObject id act).2 := by
  unfold onObject
  split
  · exact .refl w
  · exact hact _

omit hd in
theorem onPrototype_enacted (name : String) {act : Prototype → World → Reply × World}
    (hact : ∀ p, Enacted none w (act p w).2) : Enacted none w (w.onPrototype name act).2 := by
  unfold onPrototype
  split
  · exact .refl w
  · exact hact _

omit hd in
theorem onBinding_enacted (name : String) {act : Nat → Cell → World → Reply × World}
    (hact : ∀ c cell, Enacted none w (act c cell w).2) : Enacted none w (w.onBinding name act).2 := by
  unfold onBinding
  split
  · exact .refl w
  · split
    · exact .refl w
    · exact hact _ _

omit hd in
theorem react_enacted (object : Nat) (label : String) (script : List Action) (times : Nat)
    (w : World) : Enacted none w (w.react object label script times).2 := by
  have hadded : Uneventful w (w.addReaction label script times none).2 := .ofFields rfl rfl rfl
  exact hadded.enacted.trans (uneventful_subscribe object _ _).enacted

omit hd in
theorem uneventful_keepGuard (name : String) (g : Guard) (w : World) :
    Uneventful w (w.keepGuard name g) := by
  unfold keepGuard
  cases w.guards.lookup name <;> exact .ofFields rfl rfl rfl

theorem performOnObject_enacted (a : Action) (w : World) :
    Enacted none w (performOnObject d a w).2 := by
  cases a with
  | set object member value =>
      exact (uneventful_instantiate value w).enacted.trans (writeMember_enacted hd object member _ _)
  | touch object =>
      refine onObject_enacted object fun o => ?_
      simp only
      split
      · exact announce_enacted hd object none w
      · exact .refl w
  | announce object member =>
      refine onObject_enacted object fun o => ?_
      simp only
      split
      · exact .refl w
      · exact announce_enacted hd object member w
  | getMember object member => exact onObject_enacted object fun _ => .refl w
  | readMember object member => exact readMember_enacted hd object member w
  | typeName object => exact onObject_enacted object fun _ => .refl w
  | isObservable object => exact onObject_enacted object fun _ => .refl w
  | debugObject object => exact onObject_enacted object fun _ => .refl w
  | subscribe object handler script times => exact react_enacted object handler script times w
  | unsubscribe object key =>
      refine onObject_enacted object fun o => ?_
      split
      · exact .refl w
      · refine Uneventful.enacted ?_
        exact .ofFields rfl rfl rfl
  | watch object guard script times =>
      have hreacted := react_enacted object guard script times w
      simp only [performOnObject]
      split
      · exact hreacted
      · exact hreacted.trans (uneventful_keepGuard guard _ _).enacted
  | release guard =>
      simp only [performOnObject]
      split
      · exact .refl w
      · refine Uneventful.enacted ?_
        exact .ofFields rfl rfl rfl
  | _ => exact .refl w

theorem adopt_enacted (p : Prototype) (mode : BindingMode) (w : World) :
    Enacted none w (Live.adopt (World.host d fun _ _ => .deaf) p mode w).2 :=
  (host_enacted hd (fun _ _ => .deaf) w).adopt p mode (.refl w)

theorem evaluateWith_enacted (v : Value) (live : Live) (w : World) :
    Enacted none w (w.evaluateWith d v live).2.2 := by
  have hkept := host_enacted hd (fun _ _ => .deaf) w
  unfold evaluateWith
  exact hkept.evaluateOnce v live (.refl w)

theorem evaluateAll_enacted (vs : List Value) (live : Live) (w : World) :
    Enacted none w (w.evaluateAll d vs live).2 := by
  induction vs generalizing live w with
  | nil => exact .refl w
  | cons v rest ih =>
      have hfirst := evaluateWith_enacted hd v live w
      unfold evaluateAll
      generalize w.evaluateWith d v live = t at hfirst ⊢
      exact hfirst.trans (ih t.2.1 t.2.2)

omit hd in
theorem disown_enacted (d : Dispatcher) (c : Nat) (w : World) : Enacted none w (w.disown d c) := by
  have hdisowned : Uneventful w (w.modifyCell c ({ · with owned := false })) :=
    .modifyCell w c (fun _ => ⟨rfl, rfl⟩) fun _ => rfl
  exact hdisowned.enacted.trans (bury_enacted d c _)

theorem cloneBinding_enacted (p : Prototype) (name : String) (mode : BindingMode) (w : World) :
    Enacted none w (w.cloneBinding d p name mode) := by
  have hadopted := adopt_enacted hd p mode w
  unfold cloneBinding
  generalize Live.adopt (World.host d fun _ _ => .deaf) p mode w = t at hadopted ⊢
  obtain ⟨live, u⟩ := t
  have hpushed := hadopted.trans (Uneventful.pushCell u live (bindName u.bindings name u.cells.size)).enacted
  simp only
  cases u.bindingCell? name with
  | none => exact hpushed
  | some c => exact hpushed.trans (disown_enacted d c _)

theorem performOnPrototype_enacted (a : Action) (w : World) :
    Enacted none w (performOnPrototype d a w).2 := by
  cases a with
  | compile name lambda =>
      simp only [performOnPrototype]
      split
      · exact .refl w
      · refine Uneventful.enacted ?_
        exact .ofFields rfl rfl rfl
  | describe name => exact onPrototype_enacted name fun _ => .refl w
  | evaluate name value =>
      unfold performOnPrototype
      refine onPrototype_enacted name fun p => ?_
      have hmade := uneventful_instantiate value w
      generalize value.instantiate w = t at hmade ⊢
      have hadopted := hmade.enacted.trans (adopt_enacted hd p .oneTime t.2)
      simp only [evaluator]
      generalize Live.adopt (World.host d fun _ _ => .deaf) p .oneTime t.2 = u at hadopted ⊢
      have hevaluated := evaluateWith_enacted hd t.1 u.1 u.2
      generalize u.2.evaluateWith d t.1 u.1 = r at hevaluated ⊢
      exact hadopted.trans hevaluated
  | evaluateMany name values =>
      unfold performOnPrototype
      refine onPrototype_enacted name fun p => ?_
      have hmade := uneventful_instantiateAll values w
      generalize Literal.instantiateAll values w = t at hmade ⊢
      have hadopted := hmade.enacted.trans (adopt_enacted hd p .oneTime t.2)
      simp only [evaluator]
      generalize Live.adopt (World.host d fun _ _ => .deaf) p .oneTime t.2 = u at hadopted ⊢
      exact hadopted.trans (evaluateAll_enacted hd t.1 u.1 u.2)
  | clone name binding mode =>
      unfold performOnPrototype
      exact onPrototype_enacted name fun p => cloneBinding_enacted hd p binding mode w
  | _ => exact .refl w

omit hd in
theorem observe_enacted (c : Nat) (name observer : String) (script : List Action) (times : Nat)
    (onlyWhen : Option Result) (w : World) :
    let t := w.addReaction observer script times onlyWhen
    Enacted none w (match t.2.addObserver c ⟨name, observer, t.1⟩ with
      | (none, w) => (Reply.nothing, w)
      | (some id, w) =>
        (.text ("ObserverId(" ++ toString id ++ ")"),
          { w with observerIds := bindName w.observerIds (name, observer) id })).2 := by
  intro t
  have hreaction : Uneventful w t.2 := .ofFields rfl rfl rfl
  have hadded := hreaction.enacted.trans (Enacted.addObserver c ⟨name, observer, t.1⟩ t.2)
  split
  · rename_i heq
    rw [heq] at hadded
    exact hadded
  · rename_i heq
    rw [heq] at hadded
    refine hadded.trans (Uneventful.enacted ?_)
    exact .ofFields rfl rfl rfl

theorem performOnBinding_enacted (a : Action) (w : World) :
    Enacted none w (performOnBinding d a w).2 := by
  cases a with
  | bind name value =>
      refine onBinding_enacted name fun c _ => ?_
      exact (uneventful_instantiate value w).enacted.trans
        (request_enacted hd c .bind ((cellHost d c).conducts_bind _) _)
  | unbind name =>
      refine onBinding_enacted name fun c _ => ?_
      exact request_enacted hd c .unbind (cellHost d c).conducts_unbind w
  | drop name =>
      simp only [performOnBinding]
      split
      · exact .refl w
      · rename_i c _
        have hdropped : Uneventful w { w with bindings := w.bindings.filter (·.1 != name) } :=
          .ofFields rfl rfl rfl
        exact hdropped.enacted.trans (disown_enacted d c _)
  | observe name observer script times onlyWhen =>
      refine onBinding_enacted name fun c _ => ?_
      cases onlyWhen with
      | none => exact observe_enacted c name observer script times none w
      | some r =>
          have hmade : Uneventful w (Literal.instantiateResult r w).2 := by
            cases r with
            | none => exact .ofFields rfl rfl rfl
            | some l => exact uneventful_instantiate l w
          exact hmade.enacted.trans (observe_enacted c name observer script times (some _) _)
  | unobserve name observer =>
      refine onBinding_enacted name fun c _ => ?_
      split
      · exact .refl w
      · exact Enacted.removeObserver c _ w
  | value name => exact onBinding_enacted name fun _ _ => .refl w
  | trace name => exact onBinding_enacted name fun _ _ => .refl w
  | debugBinding name => exact onBinding_enacted name fun _ _ => .refl w
  | info name => exact onBinding_enacted name fun _ _ => .refl w
  | _ => exact .refl w

theorem perform_enacted (a : Action) (w : World) : Enacted none w (w.perform d a).2 := by
  cases a with
  | set | touch | announce | getMember | readMember | typeName | isObservable | debugObject
  | subscribe | unsubscribe | watch | release | isOn | debugGuard =>
      exact performOnObject_enacted hd _ w
  | compile | describe | evaluate | evaluateMany | clone => exact performOnPrototype_enacted hd _ w
  | bind | unbind | drop | observe | unobserve | value | trace | debugBinding | info =>
      exact performOnBinding_enacted hd _ w

/-! ## Any depth of calls -/

theorem startScript_enacted (reaction : Nat) (news : Option Result) (w : World) :
    Enacted none w (w.startScript d reaction news) := by
  unfold startScript
  split
  · exact .refl w
  · simp only
    split
    · have hstarted : Uneventful w { w with reactions := w.reactions.modify reaction fun r =>
          { r with started := r.started + 1 } } := .ofFields rfl rfl rfl
      refine hstarted.enacted.trans (.foldl _ fun u a _ => ?_)
      have hdone := perform_enacted hd a u
      unfold performScripted
      simp only
      split
      · exact hdone
      · exact hdone.trans (Uneventful.record rfl _).enacted
    · exact .refl w

theorem handle_enacted (changed : Option String) (h : Handler) (w : World) :
    Enacted none w (w.handle d changed h) := by
  cases h with
  | sink c node member =>
      simp only [handle]
      split
      · exact request_enacted hd c .memberNotification ((cellHost d c).conducts_memberChanged node) w
      · exact .refl w
  | recorder node member =>
      simp only [handle]
      split
      · refine Uneventful.enacted ?_
        exact .ofFields rfl rfl rfl
      · exact .refl w
  | deaf => exact .refl w
  | reaction r =>
      have hrecorded := Uneventful.record (e := .notified ((w.reactions[r]?).elim "" (·.label)) changed)
        rfl w
      exact hrecorded.enacted.trans (startScript_enacted hd r none _)

end

theorem dispatch_enacting (depth : Nat) : Enacting (dispatch depth) := by
  induction depth with
  | zero =>
      have hleft : ∀ w : World, Uneventful w { w with exhausted := true } := fun _ => .ofFields rfl rfl rfl
      exact ⟨fun _ _ w => (hleft w).enacted, fun _ _ _ _ w => .inl (hleft w).enacted,
        fun {w _} _ => (hleft w).enacted⟩
  | succ depth ih =>
      exact ⟨fun h changed w => handle_enacted ih changed h w,
        fun _ _ o change w => .inr (startScript_enacted ih o.reaction (some change.new) _),
        fun hw => deliver_enacted ih hw⟩

end World

end LiveExpr
