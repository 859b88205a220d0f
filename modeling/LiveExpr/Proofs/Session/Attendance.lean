import LiveExpr.Proofs.Session.Audience
import LiveExpr.Proofs.Session.Dispatch

/-!
Whatever runs, to any depth of calls, keeps the books of a binding: requests to it and to others,
announcements with whatever their handlers do, deliveries with whatever the observers do, and every
action that can start them.
-/

namespace LiveExpr.Audience

open World

variable {a : Audience} {d : Dispatcher} {w w' : World}

/-! ## What is handed out -/

/-- The outbox has been delivered. -/
structure Delivers (a : Audience) (w w' : World) : Prop where
  sound : a.Sound w'
  scene : (a.scene w).Advances a (a.scene w')
  emptied : (a.scene w').Complete a → (a.scene w').outbox = []

/-- What is handed out keeps the books; an observer is told first of all. -/
structure Minds (a : Audience) (d : Dispatcher) : Prop where
  handler : ∀ {w} (h : Handler) (changed : Option String), a.Sound w →
    a.Proceeds w (d (.handler h changed) w)
  observer : ∀ {w : World} (c id : Nat) (o : Observer) (change : ResultChange), a.Sound w →
    a.Proceeds (w.record (.change o.binding o.label change)) (d (.observer c id o change) w)
  deliverOther : ∀ {w} {c : Nat}, c ≠ a.cell → a.Sound w → a.Proceeds w (d (.deliver c) w)
  deliver : ∀ {w}, a.Sound w → (a.scene w).delivering = true →
    a.Delivers w (d (.deliver a.cell) w)

/-! ## Changes that the audience does not notice -/

theorem heard_change (o : Observer) (change : ResultChange) :
    a.heard [.change o.binding o.label change] =
      if a.includes o.name then [(o.name, change)] else [] := by
  have htold : a.told? (.change o.binding o.label change) =
      if a.includes o.name then some (o.name, change) else none := rfl
  unfold heard
  cases h : a.includes o.name <;> simp [htold, h]

theorem unheard_note (n : Notice) (w : World) : a.Unheard w (w.note n) :=
  .ofFields rfl rfl rfl rfl

theorem unheard_enter (e : RosterEntry) (w : World) : a.Unheard w (w.enter e) :=
  .ofFields rfl rfl rfl rfl

theorem unheard_modifyObject (id : Nat) (f : HostObject Handler → HostObject Handler) (w : World) :
    a.Unheard w (w.modifyObject id f) :=
  .ofFields rfl rfl rfl rfl

theorem unheard_subscribe (id : Nat) (handler : Handler) (w : World) :
    a.Unheard w (w.subscribe id handler).2 := by
  unfold subscribe
  split
  · exact .refl a w
  · exact unheard_modifyObject id _ w

theorem unheard_instantiate (l : Literal) (w : World) : a.Unheard w (l.instantiate w).2 := by
  obtain ⟨n, hn⟩ := l.instantiate_keeps w
  rw [hn]
  exact .ofFields rfl rfl rfl rfl

theorem unheard_addReaction (label : String) {script : List Action} (times : Nat)
    (onlyWhen : Option Result) (hscript : ∀ x ∈ script, x.Spares a.names) (w : World) :
    a.Unheard w (w.addReaction label script times onlyWhen).2 where
  cells := rfl
  heard := rfl
  exhausted := rfl
  scripts r reaction hr := by
    simp only [addReaction, Array.getElem?_push] at hr
    split at hr
    · cases hr
      exact .inr hscript
    · exact .inl ⟨reaction, hr, rfl⟩

/-! ## Services -/

section

variable (hd : a.Minds d)

include hd

theorem announce_proceeds (hs : a.Sound w) (id : Nat) (changed : Option String) :
    a.Proceeds w (w.announce d id changed) := by
  have hstart := (unheard_modifyObject (a := a) id (·.announced changed) w).proceeds hs
  have hturn : ∀ {u : World} (x : Nat × Handler), a.Sound u →
      a.Proceeds u (if (u.notifier id).holds x.1 then d (.handler x.2 changed) u else u) := by
    intro u x hu
    split
    · exact hd.handler x.2 changed hu
    · exact .refl hu
  exact hstart.trans (.foldl _ (fun x _ hu => hturn x hu) hstart.sound)

theorem readMember_proceeds (hs : a.Sound w) (id : Nat) (member : String) :
    a.Proceeds w (w.readMember d id member).2 := by
  unfold readMember
  split
  · exact .refl hs
  · simp only
    split
    · exact announce_proceeds hd hs id (some member)
    · exact .refl hs

theorem writeMember_proceeds (hs : a.Sound w) (id : Nat) (member : String) (v : Value) :
    a.Proceeds w (w.writeMember d id member v) := by
  unfold writeMember
  split
  · exact .refl hs
  · have hwritten := (unheard_modifyObject (a := a) id (·.write member v) w).proceeds hs
    simp only
    split
    · exact hwritten.trans (announce_proceeds hd hwritten.sound id (some member))
    · exact hwritten

theorem access_proceeds (hs : a.Sound w) (member : String) (v : Value) :
    a.Proceeds w (w.access d member v).2 := by
  cases v with
  | object r | struct r => exact readMember_proceeds hd hs r.id member
  | _ => exact .refl hs

/-- Whatever a graph does through the services of the world keeps the books. -/
theorem host_preserves (handler : Nat → String → Handler) (w : World) :
    (World.host d handler).Preserves (a.Proceeds w) where
  access member v hu := hu.trans (access_proceeds hd hu.sound member v)
  watch r _ _ hu := hu.trans ((unheard_subscribe r.id _ _).proceeds hu.sound)
  unwatch watch hu := hu.trans ((unheard_modifyObject watch.object _ _).proceeds hu.sound)
  note n hu := hu.trans ((unheard_note n _).proceeds hu.sound)

/-! ## Requests to a graph -/

theorem propagating_other {c : Nat} (hc : c ≠ a.cell) {op : Live → World → Live × World}
    (hop : (cellHost d c).Conducts op) (hs : a.Sound w) (l : Live) :
    a.Proceeds w (w.propagating c op l) := by
  have hengaged : a.Proceeds w (w.engaged c) := .of_scene_eq
    (hs.modifyFlags c (fun _ => rfl) (fun _ => rfl) fun _ => rfl) (scene_modifyCell_of_ne hc _ w)
  have hdone := hop.preserves (host_preserves hd (.sink c) w) l hengaged
  rw [propagating_eq]
  refine hdone.trans (.of_scene_eq (hdone.sound.modifyCell (fun _ _ h => absurd h hc) ?_) ?_)
  · exact fun _ _ hnone => hnone
  · exact scene_modifyCell_of_ne hc _ _

/-- The changes that the graph has reported are in the outbox, and nobody has been told of them. -/
theorem propagating_own {cell : Cell} {op : Live → World → Live × World}
    (hop : (cellHost d a.cell).Conducts op) (hs : a.Sound w) (hcell : w.cells[a.cell]? = some cell)
    (hb : cell.busy = false) :
    a.Sound (w.propagating a.cell op cell.live) ∧
      (a.scene w).Advances a (a.scene (w.propagating a.cell op cell.live)) ∧
      ((a.scene (w.propagating a.cell op cell.live)).Complete a →
        (a.scene (w.propagating a.cell op cell.live)).heard = (a.scene w).heard) := by
  have hscene : a.scene (w.engaged a.cell) = { a.scene w with busy := true } := by
    rw [engaged, scene_modifyCell hcell, scene_of_cell hcell]
    rfl
  have hengaged : a.Sound (w.engaged a.cell) :=
    hs.modifyFlags a.cell (fun _ => rfl) (fun _ => rfl) fun _ => rfl
  obtain ⟨hsound, hdone⟩ :=
    hop.preserves (host_preserves hd (.sink a.cell) _) cell.live (.refl hengaged)
  obtain ⟨changes, hreports⟩ := hop.reports cell.live (w.engaged a.cell)
  rw [propagating_eq]
  generalize (op cell.live (w.engaged a.cell)).1 = l at hreports ⊢
  generalize (op cell.live (w.engaged a.cell)).2 = u at hsound hdone ⊢
  obtain ⟨cell', hcell'⟩ := hsound.cell
  rw [hscene] at hdone
  have hfits := hs.fits cell hcell
  have htaken : l.takePending.1 = changes := by
    rw [Live.takePending, hreports.pending, hfits.pending, List.nil_append]
  -- the graph being busy, the cell has been left alone meanwhile
  obtain ⟨hreported, -⟩ := hdone.frozen rfl
  have hend : a.scene (u.modifyCell a.cell (Cell.served · l)) =
      { a.scene u with
        root := l.root
        reported := (a.scene u).reported ++ changes
        outbox := (a.scene u).outbox ++ changes
        busy := false } := by
    rw [scene_modifyCell hcell', scene_of_cell hcell', ← htaken]
    rfl
  refine ⟨hsound.modifyCell (fun x hx _ => ?_) (fun _ _ hnone => hnone), ?_, ?_⟩
  · cases hcell'.symm.trans hx
    have hsame : cell'.reported = cell.reported := by
      simpa [scene_of_cell hcell', scene_of_cell hcell] using hreported
    refine ⟨rfl, ?_, ?_, (hsound.fits cell' hcell').registered⟩
    · exact (congrArg₂ Graph.policyOf hreports.graph hreports.body).trans hfits.policy
    · change Leads a.policy none (cell'.reported ++ l.takePending.1) l.root
      rw [htaken, hsame]
      exact hfits.leads.trans (hfits.policy ▸ hreports.leads)
  · rw [hend]
    refine hdone.settled ?_ l.root changes
    rw [scene_of_cell hcell, hb]
  · rw [hend]
    exact fun hc => hdone.silent hc (.inl rfl)

/-! ## Requests to a binding -/

theorem flush_other {c : Nat} (hc : c ≠ a.cell) (hs : a.Sound w) : a.Proceeds w (w.flush d c) := by
  unfold flush
  split
  · exact .refl hs
  · split
    · exact .refl hs
    · have hstart : a.Proceeds w (w.modifyCell c ({ · with delivering := true })) := .of_scene_eq
        (hs.modifyFlags c (fun _ => rfl) (fun _ => rfl) fun _ => rfl) (scene_modifyCell_of_ne hc _ w)
      have hcall := hd.deliverOther hc hstart.sound
      refine (hstart.trans hcall).trans (.of_scene_eq ?_ (scene_modifyCell_of_ne hc _ _))
      exact hcall.sound.modifyFlags c (fun _ => rfl) (fun _ => rfl) fun _ => rfl

theorem flush_own (hs : a.Sound w) (hdel : (a.scene w).delivering = false) :
    a.Delivers w (w.flush d a.cell) := by
  obtain ⟨cell, hcell⟩ := hs.cell
  have hflag : cell.delivering = false := by rwa [scene_of_cell hcell] at hdel
  have hscene : a.scene (w.modifyCell a.cell ({ · with delivering := true })) =
      { a.scene w with delivering := true } := by
    rw [scene_modifyCell hcell, scene_of_cell hcell]
    rfl
  have hstart : a.Sound (w.modifyCell a.cell ({ · with delivering := true })) :=
    hs.modifyFlags a.cell (fun _ => rfl) (fun _ => rfl) fun _ => rfl
  obtain ⟨hsound, hadvances, hemptied⟩ := hd.deliver hstart (by rw [hscene])
  rw [hscene] at hadvances
  unfold flush
  simp only [hcell, hflag, Bool.false_eq_true, if_false]
  generalize d (.deliver a.cell) (w.modifyCell a.cell ({ · with delivering := true })) = u at *
  obtain ⟨cell', hcell'⟩ := hsound.cell
  have hend : a.scene (u.modifyCell a.cell ({ · with delivering := false })) =
      { a.scene u with delivering := false } := by
    rw [scene_modifyCell hcell', scene_of_cell hcell']
    rfl
  refine ⟨hsound.modifyFlags a.cell (fun _ => rfl) (fun _ => rfl) fun _ => rfl, ?_, ?_⟩
  · rw [hend]
    exact hadvances.delivered hdel
  · rw [hend]
    exact hemptied

/-- What the graph has reported is told at once, unless a delivery is going on further out. -/
theorem propagating_flush_own {cell : Cell} {op : Live → World → Live × World}
    (hop : (cellHost d a.cell).Conducts op) (hs : a.Sound w) (hcell : w.cells[a.cell]? = some cell)
    (hb : cell.busy = false) :
    a.Proceeds w ((w.propagating a.cell op cell.live).flush d a.cell) := by
  obtain ⟨hsound, hadvances, hheard⟩ := propagating_own hd hop hs hcell hb
  generalize w.propagating a.cell op cell.live = u at hsound hadvances hheard ⊢
  have hbusy : (a.scene w).busy = false := by rw [scene_of_cell hcell, hb]
  cases hdel : (a.scene w).delivering with
  | true =>
      obtain ⟨cell', hcell'⟩ := hsound.cell
      have hflag : cell'.delivering = true := by
        have := hadvances.delivering.trans hdel
        rwa [scene_of_cell hcell'] at this
      have hflush : u.flush d a.cell = u := by simp [flush, hcell', hflag]
      rw [hflush]
      refine ⟨hsound, hadvances, fun hc _ => hheard hc, fun _ _ hfalse => ?_⟩
      rw [hdel] at hfalse
      cases hfalse
  | false =>
      obtain ⟨hsound', hadvances', hemptied⟩ := flush_own hd hsound (hadvances.delivering.trans hdel)
      refine ⟨hsound', hadvances.trans hadvances', ?_, fun hc _ _ _ => hemptied hc⟩
      simp [hbusy, hdel]

omit hd

theorem proceeds_activations (hs : a.Sound w) (c : Nat) (f : Nat → Nat) :
    a.Proceeds w (w.modifyCell c fun cell => { cell with activations := f cell.activations }) :=
  proceeds_modifyCell hs fun _ _ => ⟨rfl, rfl, rfl, rfl, rfl, rfl, rfl, rfl, rfl⟩

theorem unheard_release (watches : List (Option Watch)) (w : World) :
    a.Unheard w (w.release watches) := by
  obtain ⟨-, hrest, -⟩ := @release_keeps watches w
  rw [hrest]
  exact .ofFields rfl rfl rfl rfl

/-- A binding that dies stops following, and nothing else. -/
theorem bury_proceeds (d : Dispatcher) (hs : a.Sound w) (c : Nat) : a.Proceeds w (w.bury d c) := by
  unfold bury
  cases hc : w.cells[c]? with
  | none => exact .refl hs
  | some cell =>
      simp only [cellHost, Live.releaseWatches_eq]
      split
      · have hreleased := unheard_release (a := a) cell.live.watches.toList w
        have hstart := hreleased.proceeds hs
        refine hstart.trans (proceeds_modifyCell hstart.sound fun x hx => ?_)
        rw [hreleased.cells, hc] at hx
        cases hx
        exact ⟨rfl, rfl, rfl, rfl, rfl, rfl, rfl, rfl, rfl⟩
      · exact .refl hs

theorem activate_proceeds (hs : a.Sound w) (c : Nat) {op : World → World}
    (hop : a.Proceeds (w.modifyCell c fun cell => { cell with activations := cell.activations + 1 })
      (op (w.modifyCell c fun cell => { cell with activations := cell.activations + 1 }))) :
    a.Proceeds w (w.activate d c op) := by
  have hstart := (proceeds_activations hs c (· + 1)).trans hop
  have hend := proceeds_activations hstart.sound c (· - 1)
  exact (hstart.trans hend).trans (bury_proceeds d hend.sound c)

include hd

theorem request_proceeds (hs : a.Sound w) (c : Nat) (r : Request) {op : Live → World → Live × World}
    (hop : (cellHost d c).Conducts op) : a.Proceeds w (w.request d c r op) := by
  unfold request
  cases hc : w.cells[c]? with
  | none => exact .refl hs
  | some cell =>
      simp only
      split
      · exact (unheard_note _ w).proceeds hs
      · rename_i hbusy
        obtain ⟨cell', hcell', hlive, hidle⟩ : ∃ cell' : Cell,
            (w.modifyCell c fun cell => { cell with activations := cell.activations + 1 }).cells[c]? =
              some cell' ∧ cell'.live = cell.live ∧ cell'.busy = false := by
          exact ⟨_, cells_modifyCell hc _, rfl, by simpa using hbusy⟩
        have hstart := proceeds_activations hs c (· + 1)
        refine activate_proceeds hs c ?_
        rw [← hlive]
        by_cases hown : c = a.cell
        · subst hown
          exact propagating_flush_own hd hop hstart.sound hcell' hidle
        · have hpropagated := propagating_other hd hown hop hstart.sound cell'.live
          exact hpropagated.trans (flush_other hd hown hpropagated.sound)

/-! ## Deliveries -/

theorem deliver_other {c : Nat} (hc : c ≠ a.cell) (hs : a.Sound w) :
    a.Proceeds w (w.deliver d c) := by
  unfold deliver
  split
  · exact .refl hs
  · rename_i cell hcell
    split
    · exact .refl hs
    · rename_i change rest _
      have hpopped : a.Proceeds w (w.modifyCell c ({ · with outbox := rest })) := .of_scene_eq
        (hs.modifyFlags c (fun _ => rfl) (fun _ => rfl) fun _ => rfl) (scene_modifyCell_of_ne hc _ w)
      have hopened := hpopped.trans ((unheard_enter (.opened c change) _).proceeds hpopped.sound)
      have hnone := hs.others c cell hcell hc
      have hobserved := Proceeds.foldl
        (f := fun w (x : Nat × Observer) => d (.observer c x.1 x.2 change) w) cell.observers
        (fun {u} x hx hu => by
          have hout : a.includes x.2.name = false := by
            simpa using List.filter_eq_nil_iff.mp hnone x hx
          have hunheard : a.heard [.change x.2.binding x.2.label change] = [] := by
            rw [heard_change, hout]
            rfl
          exact ((unheard_record hunheard u).proceeds hu).trans (hd.observer c x.1 x.2 change hu))
        hopened.sound
      exact (hopened.trans hobserved).trans (hd.deliverOther hc hobserved.sound)

/-- Observers are told one after the other, members and others. -/
theorem observers_told (c : Nat) (change : ResultChange) (xs : List (Nat × Observer))
    (hs : a.Sound w) (hdel : (a.scene w).delivering = true) :
    let w' := xs.foldl (fun w (x : Nat × Observer) => d (.observer c x.1 x.2 change) w) w
    a.Sound w' ∧ (a.scene w).Tells a
      ((xs.filter fun x => a.includes x.2.name).map fun x => (x.2.name, change)) (a.scene w') := by
  induction xs generalizing w with
  | nil => exact ⟨hs, .refl a _⟩
  | cons x xs ih =>
      have hx := hd.observer c x.1 x.2 change hs
      have hrecorded : a.scene (w.record (.change x.2.binding x.2.label change)) =
          { a.scene w with
            heard := (a.scene w).heard ++ a.heard [.change x.2.binding x.2.label change] } := by
        simp [scene, record]
      have htold := (hrecorded ▸ hx.scene).tells hdel
      obtain ⟨hsound, hrest⟩ := ih hx.sound (htold.delivering.trans hdel)
      refine ⟨hsound, ?_⟩
      have hboth := htold.trans hrest
      rw [heard_change] at hboth
      by_cases hin : a.includes x.2.name = true
      · simpa [List.filter_cons, hin] using hboth
      · simpa [List.filter_cons, hin] using hboth

theorem deliver_own (hs : a.Sound w) (hdel : (a.scene w).delivering = true) :
    a.Delivers w (w.deliver d a.cell) := by
  obtain ⟨cell, hcell⟩ := hs.cell
  unfold deliver
  simp only [hcell]
  split
  · rename_i hempty
    refine ⟨hs, .refl a _, fun _ => ?_⟩
    rw [scene_of_cell hcell]
    exact hempty
  · rename_i change rest hout
    have hpopped : a.Sound (w.modifyCell a.cell ({ · with outbox := rest })) :=
      hs.modifyFlags a.cell (fun _ => rfl) (fun _ => rfl) fun _ => rfl
    have hopened := unheard_enter (a := a) (.opened a.cell change)
      (w.modifyCell a.cell ({ · with outbox := rest }))
    have hscene : a.scene ((w.modifyCell a.cell ({ · with outbox := rest })).enter
        (.opened a.cell change)) = { a.scene w with outbox := rest } := by
      rw [hopened.scene, scene_modifyCell hcell, scene_of_cell hcell]
      rfl
    obtain ⟨hsound, htold⟩ := observers_told hd a.cell change cell.observers (hopened.sound hpopped)
      (by rwa [hscene])
    have hlast := hd.deliver hsound (htold.delivering.trans (by rwa [hscene]))
    rw [hscene] at htold
    have hattending : (a.scene w).attending = cell.observers.filter fun x => a.includes x.2.name := by
      rw [scene_of_cell hcell]
      rfl
    have houtbox : (a.scene w).outbox = change :: rest := by
      rw [scene_of_cell hcell]
      exact hout
    rw [← hattending] at htold
    exact ⟨hlast.sound, (htold.advances houtbox).trans hlast.scene, hlast.emptied⟩

/-! ## Actions -/

omit hd in
theorem onObject_proceeds (hs : a.Sound w) (id : Nat)
    {act : HostObject Handler → World → Reply × World} (hact : ∀ o, a.Proceeds w (act o w).2) :
    a.Proceeds w (w.onObject id act).2 := by
  unfold onObject
  split
  · exact .refl hs
  · exact hact _

omit hd in
theorem onPrototype_proceeds (hs : a.Sound w) (name : String)
    {act : Prototype → World → Reply × World} (hact : ∀ p, a.Proceeds w (act p w).2) :
    a.Proceeds w (w.onPrototype name act).2 := by
  unfold onPrototype
  split
  · exact .refl hs
  · exact hact _

omit hd in
theorem onBinding_proceeds (hs : a.Sound w) (name : String)
    {act : Nat → Cell → World → Reply × World} (hact : ∀ c cell, a.Proceeds w (act c cell w).2) :
    a.Proceeds w (w.onBinding name act).2 := by
  unfold onBinding
  split
  · exact .refl hs
  · split
    · exact .refl hs
    · exact hact _ _

omit hd in
theorem unheard_react (object : Nat) (label : String) {script : List Action} (times : Nat)
    (hscript : ∀ x ∈ script, x.Spares a.names) (w : World) :
    a.Unheard w (w.react object label script times).2 :=
  (unheard_addReaction label times none hscript w).trans (unheard_subscribe object _ _)

omit hd in
theorem unheard_keepGuard (name : String) (g : Guard) (w : World) :
    a.Unheard w (w.keepGuard name g) := by
  unfold keepGuard
  cases w.guards.lookup name with
  | none => exact .ofFields rfl rfl rfl rfl
  | some old => exact .ofFields rfl rfl rfl rfl

omit hd in
theorem unheard_instantiateAll (ls : List Literal) (w : World) :
    a.Unheard w (Literal.instantiateAll ls w).2 := by
  obtain ⟨n, hn⟩ := Literal.instantiateAll_keeps ls w
  rw [hn]
  exact .ofFields rfl rfl rfl rfl

theorem performOnObject_proceeds (hs : a.Sound w) {x : Action} (hx : x.Spares a.names) :
    a.Proceeds w (performOnObject d x w).2 := by
  cases x with
  | set object member value =>
      have hmade := (unheard_instantiate (a := a) value w).proceeds hs
      exact hmade.trans (writeMember_proceeds hd hmade.sound object member _)
  | touch object =>
      refine onObject_proceeds hs object fun o => ?_
      simp only
      split
      · exact announce_proceeds hd hs object none
      · exact .refl hs
  | announce object member =>
      refine onObject_proceeds hs object fun o => ?_
      simp only
      split
      · exact .refl hs
      · exact announce_proceeds hd hs object member
  | getMember object member => exact onObject_proceeds hs object fun _ => .refl hs
  | readMember object member => exact readMember_proceeds hd hs object member
  | typeName object => exact onObject_proceeds hs object fun _ => .refl hs
  | isObservable object => exact onObject_proceeds hs object fun _ => .refl hs
  | debugObject object => exact onObject_proceeds hs object fun _ => .refl hs
  | subscribe object handler script times =>
      exact (unheard_react object handler times hx.script w).proceeds hs
  | unsubscribe object key =>
      refine onObject_proceeds hs object fun o => ?_
      split
      · exact .refl hs
      · exact (unheard_modifyObject object _ w).proceeds hs
  | watch object guard script times =>
      have hreacted := unheard_react object guard times hx.script w
      simp only [performOnObject]
      split
      · exact hreacted.proceeds hs
      · exact (hreacted.trans (unheard_keepGuard guard _ _)).proceeds hs
  | release guard =>
      simp only [performOnObject]
      split
      · exact .refl hs
      · refine Unheard.proceeds ?_ hs
        exact .ofFields rfl rfl rfl rfl
  | _ => exact .refl hs

theorem evaluator_proceeds (hs : a.Sound w) (p : Prototype) :
    a.Proceeds w (w.evaluator d p).2 :=
  (host_preserves hd (fun _ _ => .deaf) w).adopt p .oneTime (.refl hs)

theorem evaluateWith_proceeds (hs : a.Sound w) (v : Value) (live : Live) :
    a.Proceeds w (w.evaluateWith d v live).2.2 := by
  unfold evaluateWith
  exact (host_preserves hd (fun _ _ => .deaf) w).evaluateOnce v live (.refl hs)

theorem evaluateAll_proceeds (vs : List Value) (live : Live) (hs : a.Sound w) :
    a.Proceeds w (w.evaluateAll d vs live).2 := by
  induction vs generalizing live w with
  | nil => exact .refl hs
  | cons v rest ih =>
      have hfirst := evaluateWith_proceeds hd hs v live
      unfold evaluateAll
      generalize w.evaluateWith d v live = t at hfirst ⊢
      exact hfirst.trans (ih t.2.1 hfirst.sound)

omit hd in
theorem disown_proceeds (d : Dispatcher) (hs : a.Sound w) (c : Nat) :
    a.Proceeds w (w.disown d c) := by
  have hstart : a.Proceeds w (w.modifyCell c ({ · with owned := false })) :=
    proceeds_modifyCell hs fun _ _ => ⟨rfl, rfl, rfl, rfl, rfl, rfl, rfl, rfl, rfl⟩
  exact hstart.trans (bury_proceeds d hstart.sound c)

omit hd in
/-- A new binding has no observers yet. -/
theorem proceeds_pushCell (hs : a.Sound w) (l : Live) (bindings : List (String × Nat)) :
    a.Proceeds w { w with cells := w.cells.push (.ofLive l), bindings } := by
  have hcell : (w.cells.push (.ofLive l))[a.cell]? = w.cells[a.cell]? := by
    rw [Array.getElem?_push, if_neg (Nat.ne_of_lt hs.exists_cell)]
  refine .of_scene_eq ⟨?_, fun cell hc => ?_, fun c cell hc hne => ?_, hs.scripts⟩ ?_
  · exact Nat.lt_of_lt_of_le hs.exists_cell (by simp)
  · exact hs.fits cell (hcell ▸ hc)
  · rw [Array.getElem?_push] at hc
    split at hc
    · cases hc
      rfl
    · exact hs.others c cell hc hne
  · simp only [scene, hcell]

theorem cloneBinding_proceeds (hs : a.Sound w) (p : Prototype) (name : String) (mode : BindingMode) :
    a.Proceeds w (w.cloneBinding d p name mode) := by
  have hadopted := (host_preserves hd (fun _ _ => .deaf) w).adopt p mode (.refl hs)
  unfold cloneBinding
  generalize Live.adopt (World.host d fun _ _ => .deaf) p mode w = t at hadopted ⊢
  obtain ⟨live, u⟩ := t
  have hpushed := hadopted.trans
    (proceeds_pushCell hadopted.sound live (bindName u.bindings name u.cells.size))
  simp only
  cases u.bindingCell? name with
  | none => exact hpushed
  | some c => exact hpushed.trans (disown_proceeds d hpushed.sound c)

theorem performOnPrototype_proceeds (hs : a.Sound w) (x : Action) :
    a.Proceeds w (performOnPrototype d x w).2 := by
  cases x with
  | compile name lambda =>
      simp only [performOnPrototype]
      split
      · exact .refl hs
      · refine Unheard.proceeds ?_ hs
        exact .ofFields rfl rfl rfl rfl
  | describe name => exact onPrototype_proceeds hs name fun _ => .refl hs
  | evaluate name value =>
      unfold performOnPrototype
      refine onPrototype_proceeds hs name fun p => ?_
      have hmade := (unheard_instantiate (a := a) value w).proceeds hs
      generalize value.instantiate w = t at hmade ⊢
      have hadopted := hmade.trans (evaluator_proceeds hd hmade.sound p)
      simp only
      generalize t.2.evaluator d p = u at hadopted ⊢
      have hdone := hadopted.trans (evaluateWith_proceeds hd hadopted.sound t.1 u.1)
      generalize u.2.evaluateWith d t.1 u.1 = r at hdone ⊢
      exact hdone
  | evaluateMany name values =>
      unfold performOnPrototype
      refine onPrototype_proceeds hs name fun p => ?_
      have hmade := (unheard_instantiateAll (a := a) values w).proceeds hs
      generalize Literal.instantiateAll values w = t at hmade ⊢
      have hadopted := hmade.trans (evaluator_proceeds hd hmade.sound p)
      simp only
      generalize t.2.evaluator d p = u at hadopted ⊢
      exact hadopted.trans (evaluateAll_proceeds hd t.1 u.1 hadopted.sound)
  | clone name binding mode =>
      exact onPrototype_proceeds hs name fun p => cloneBinding_proceeds hd hs p binding mode
  | _ => exact .refl hs

omit hd in
theorem addObserver_proceeds (hs : a.Sound w) (c : Nat) {o : Observer} (ho : o.name ∉ a.names) :
    a.Proceeds w (w.addObserver c o).2 := by
  unfold addObserver
  split
  · exact .refl hs
  · rename_i cell' _
    have hadded : a.Proceeds w (w.modifyCell c fun cell => { cell with
        observers := cell.observers ++ [(cell'.nextObserver, o)]
        nextObserver := cell'.nextObserver + 1 }) := by
      refine proceeds_modifyCell hs fun cell _ => ⟨rfl, rfl, rfl, rfl, ?_, rfl, rfl, rfl, rfl⟩
      have hout : a.includes o.name = false := by simpa [includes] using ho
      simp [attending, hout]
    exact hadded.trans ((unheard_enter _ _).proceeds hadded.sound)

omit hd in
theorem removeObserver_proceeds (hs : a.Sound w) (c id : Nat) :
    a.Proceeds w (w.removeObserver c id).2 := by
  have hfilter : ∀ cell : Cell, (a.attending { cell with
      observers := cell.observers.filter (·.1 != id) }).Sublist (a.attending cell) :=
    fun cell => List.Sublist.filter _ List.filter_sublist
  have hremoved : a.Proceeds w (w.modifyCell c fun cell =>
      { cell with observers := cell.observers.filter (·.1 != id) }) := by
    refine ⟨hs.modifyCell (fun cell hc hown => ?_) fun cell _ hnone => ?_, ?_⟩
    · subst hown
      obtain ⟨hpending, hpolicy, hleads, hregistered⟩ := hs.fits cell hc
      exact ⟨hpending, hpolicy, hleads, (hfilter cell).trans hregistered⟩
    · exact List.sublist_nil.mp (hnone ▸ hfilter cell)
    · by_cases hc : c = a.cell
      · subst hc
        obtain ⟨cell, hcell⟩ := hs.cell
        have hregistered := (hs.fits cell hcell).registered
        rw [scene_modifyCell hcell, scene_of_cell hcell]
        exact .unregistered hregistered (hfilter cell)
      · rw [scene_modifyCell_of_ne hc]
        exact .refl a _
  exact hremoved.trans ((unheard_enter _ _).proceeds hremoved.sound)

omit hd in
theorem observe_proceeds (hs : a.Sound w) (c : Nat) {name observer : String} {script : List Action}
    (times : Nat) (onlyWhen : Option Result) (hname : (name, observer) ∉ a.names)
    (hscript : ∀ x ∈ script, x.Spares a.names) :
    let t := w.addReaction observer script times onlyWhen
    a.Proceeds w (match t.2.addObserver c ⟨name, observer, t.1⟩ with
      | (none, w) => (Reply.nothing, w)
      | (some id, w) =>
        (.text ("ObserverId(" ++ toString id ++ ")"),
          { w with observerIds := bindName w.observerIds (name, observer) id })).2 := by
  intro t
  have hstart := (unheard_addReaction observer times onlyWhen hscript w).proceeds hs
  have hadded := hstart.trans
    (addObserver_proceeds hstart.sound c (o := ⟨name, observer, t.1⟩) hname)
  split
  · rename_i heq
    rw [heq] at hadded
    exact hadded
  · rename_i heq
    rw [heq] at hadded
    refine hadded.trans (Unheard.proceeds ?_ hadded.sound)
    exact .ofFields rfl rfl rfl rfl

theorem performOnBinding_proceeds (hs : a.Sound w) {x : Action} (hx : x.Spares a.names) :
    a.Proceeds w (performOnBinding d x w).2 := by
  cases x with
  | bind name value =>
      refine onBinding_proceeds hs name fun c _ => ?_
      have hmade := (unheard_instantiate (a := a) value w).proceeds hs
      exact hmade.trans (request_proceeds hd hmade.sound c .bind (Host.conducts_bind _ _))
  | unbind name =>
      refine onBinding_proceeds hs name fun c _ => ?_
      exact request_proceeds hd hs c .unbind (Host.conducts_unbind _)
  | drop name =>
      simp only [performOnBinding]
      split
      · exact .refl hs
      · rename_i c _
        have hnames : a.Unheard w { w with bindings := w.bindings.filter (·.1 != name) } :=
          .ofFields rfl rfl rfl rfl
        exact (hnames.proceeds hs).trans (disown_proceeds d (hnames.sound hs) c)
  | observe name observer script times onlyWhen =>
      refine onBinding_proceeds hs name fun c _ => ?_
      have hname : (name, observer) ∉ a.names := hx.registered _ rfl
      cases onlyWhen with
      | none => exact observe_proceeds hs c times none hname hx.script
      | some r =>
          have hmade : a.Proceeds w (Literal.instantiateResult r w).2 := by
            cases r with
            | none => exact .refl hs
            | some l => exact (unheard_instantiate l w).proceeds hs
          exact hmade.trans (observe_proceeds hmade.sound c times (some _) hname hx.script)
  | unobserve name observer =>
      refine onBinding_proceeds hs name fun c _ => ?_
      split
      · exact .refl hs
      · exact removeObserver_proceeds hs c _
  | value name => exact onBinding_proceeds hs name fun _ _ => .refl hs
  | trace name => exact onBinding_proceeds hs name fun _ _ => .refl hs
  | debugBinding name => exact onBinding_proceeds hs name fun _ _ => .refl hs
  | info name => exact onBinding_proceeds hs name fun _ _ => .refl hs
  | _ => exact .refl hs

theorem perform_proceeds (hs : a.Sound w) {x : Action} (hx : x.Spares a.names) :
    a.Proceeds w (w.perform d x).2 := by
  cases x with
  | set | touch | announce | getMember | readMember | typeName | isObservable | debugObject
  | subscribe | unsubscribe | watch | release | isOn | debugGuard =>
      exact performOnObject_proceeds hd hs hx
  | compile | describe | evaluate | evaluateMany | clone =>
      exact performOnPrototype_proceeds hd hs _
  | bind | unbind | drop | observe | unobserve | value | trace | debugBinding | info =>
      exact performOnBinding_proceeds hd hs hx

/-! ## Any depth of calls -/

theorem performScripted_proceeds (hs : a.Sound w) {x : Action} (hx : x.Spares a.names) :
    a.Proceeds w (performScripted d w x) := by
  have hdone := perform_proceeds hd hs hx
  unfold performScripted
  simp only
  split
  · exact hdone
  · exact hdone.trans ((unheard_record rfl _).proceeds hdone.sound)

theorem startScript_proceeds (hs : a.Sound w) (reaction : Nat) (news : Option Result) :
    a.Proceeds w (w.startScript d reaction news) := by
  unfold startScript
  split
  · exact .refl hs
  · rename_i r hr
    simp only
    split
    · have hstarted : a.Unheard w { w with
          reactions := w.reactions.modify reaction fun r => { r with started := r.started + 1 } } :=
        ⟨rfl, rfl, rfl, fun _ _ hj => .inl (script_of_started hj)⟩
      have hstart := hstarted.proceeds hs
      refine hstart.trans (.foldl r.script (fun x hx hu => ?_) hstart.sound)
      exact performScripted_proceeds hd hu (hs.scripts reaction r hr x hx)
    · exact .refl hs

theorem handle_proceeds (hs : a.Sound w) (changed : Option String) (h : Handler) :
    a.Proceeds w (w.handle d changed h) := by
  cases h with
  | sink c node member =>
      simp only [handle]
      split
      · exact request_proceeds hd hs c .memberNotification (Host.conducts_memberChanged _ node)
      · exact .refl hs
  | recorder node member =>
      simp only [handle]
      split
      · refine Unheard.proceeds ?_ hs
        exact .ofFields rfl rfl rfl rfl
      · exact .refl hs
  | deaf => exact .refl hs
  | reaction r =>
      have hrecorded := (unheard_record (a := a) (e := .notified
        ((w.reactions[r]?).elim "" (·.label)) changed) rfl w).proceeds hs
      exact hrecorded.trans (startScript_proceeds hd hrecorded.sound r none)

end

theorem dispatch_minds (a : Audience) (depth : Nat) : a.Minds (dispatch depth) := by
  induction depth with
  | zero =>
      have hleft : ∀ {w w' : World} (call : Call), a.Sound w → w'.cells = w.cells →
          a.Proceeds w' (dispatch 0 call w) := by
        intro w w' call hs hcells
        refine ⟨⟨hs.exists_cell, hs.fits, hs.others, hs.scripts⟩, ?_⟩
        refine .exhausted ?_ ?_ ?_ ?_ rfl <;> simp [scene, dispatch, hcells]
      refine ⟨fun h changed hs => hleft _ hs rfl, fun _ _ o change hs => hleft _ hs rfl,
        fun _ hs => hleft _ hs rfl, fun hs _ => ?_⟩
      obtain ⟨hsound, hscene⟩ := hleft (.deliver a.cell) hs rfl
      exact ⟨hsound, hscene.toAdvances, fun hc => absurd hc (Scene.not_complete_of_exhausted rfl)⟩
  | succ depth ih =>
      refine ⟨fun h changed hs => handle_proceeds ih hs changed h, fun c id o change hs => ?_,
        fun hc hs => deliver_other ih hc hs, fun hs hdel => deliver_own ih hs hdel⟩
      have hstart := startScript_proceeds ih
        (((unheard_enter (.told c id o change) _).sound hs).record (.change o.binding o.label change))
        o.reaction (some change.new)
      exact ⟨hstart.sound, hstart.scene⟩

end LiveExpr.Audience
