import LiveExpr.Proofs.Session.Delivery

/-!
Announcements, deliveries and actions, to any depth of calls. An announcement calls handlers one after
the other while they change who is subscribed: those still to be called are just what the binding
still has to be told of.
-/

namespace LiveExpr

/-! ## Literals -/

mutual

theorem Literal.instantiate_keeps : (l : Literal) → (w : World) →
    ∃ n, (l.instantiate w).2 = { w with nextAllocation := n }
  | .fixed v, w => ⟨w.nextAllocation, rfl⟩
  | .text s, w => ⟨w.nextAllocation + 1, rfl⟩
  | .list items, w => by
      obtain ⟨n, hn⟩ := Literal.instantiateAll_keeps items w
      rw [Literal.instantiate]
      simp only [hn, World.allocate]
      exact ⟨n + 1, rfl⟩

theorem Literal.instantiateAll_keeps : (ls : List Literal) → (w : World) →
    ∃ n, (Literal.instantiateAll ls w).2 = { w with nextAllocation := n }
  | [], w => ⟨w.nextAllocation, rfl⟩
  | l :: rest, w => by
      obtain ⟨n, hn⟩ := Literal.instantiate_keeps l w
      rw [Literal.instantiateAll]
      simp only [hn]
      obtain ⟨n', hn'⟩ := Literal.instantiateAll_keeps rest { w with nextAllocation := n }
      exact ⟨n', hn'⟩

end

namespace World

variable {w w' : World} {b : Subject} {d : Dispatcher}

theorem sameState_instantiate (sc : Scope) (l : Literal) (w : World) :
    SameState sc w (l.instantiate w).2 := by
  obtain ⟨n, hn⟩ := l.instantiate_keeps w
  rw [hn]
  exact .ofFields rfl rfl rfl rfl rfl rfl

/-! ## Announcing -/

theorem told_cons {c object : Nat} {changed : Option String} {x : Nat × Handler}
    {rest : List (Nat × Handler)} {o k : Nat} (ht : told c object changed (x :: rest) o k) :
    told c object changed [x] o k ∨ told c object changed rest o k := by
  obtain ⟨ho, node, member, hmem, hc⟩ := ht
  rcases List.mem_cons.mp hmem with heq | hmem
  · exact .inl ⟨ho, node, member, List.mem_singleton.mpr heq, hc⟩
  · exact .inr ⟨ho, node, member, hmem, hc⟩

/-- A handler that has been removed meanwhile is nobody's any more. -/
theorem Maintains.forget (hw : w.Orderly b.scope) {object : Nat} {changed : Option String}
    {x : Nat × Handler} (hgone : (w.notifier object).holds x.1 = false) {pending : Pending}
    (hm : w.Maintains b pending) :
    w.Maintains b fun o k => pending o k ∧ ¬ told b.cell object changed [x] o k := by
  refine ⟨hm.name, fun cell hcell => (hm.live cell hcell).ofAwaits fun node hnode => ?_⟩
  obtain ⟨-, -, ht⟩ := hw.cells b.cell cell hcell
  obtain ⟨member, hmember, hwait⟩ := hnode
  refine ⟨member, hmember, fun hb => ?_⟩
  obtain ⟨r, hr, hstale | ⟨key, hkey, hpend⟩⟩ := hwait hb
  · exact ⟨r, hr, .inl hstale⟩
  · refine ⟨r, hr, .inr ⟨key, hkey, hpend, ?_⟩⟩
    rintro ⟨hid, n, m, hmem, -⟩
    obtain rfl : x = _ := (List.mem_singleton.mp hmem).symm
    have hhandler := (ht.hooked.hooks r.id key node member).mpr ⟨hkey, hmember⟩
    rw [hid] at hhandler
    rw [Notifier.holds_iff.mpr ⟨_, hhandler⟩] at hgone
    cases hgone

/-- One handler's turn, `x` being what stood at its key when the announcement began. -/
theorem turn_evolves (hd : Obeys b d) (hw : w.Orderly b.scope) (object : Nat)
    (changed : Option String) {x : Nat × Handler}
    (hx : ∀ h, (x.1, h) ∈ (w.notifier object).handlers → h = x.2) :
    Evolves b (fun pending o k => pending o k ∧ ¬ told b.cell object changed [x] o k) w
      (if (w.notifier object).holds x.1 then d (.handler x.2 changed) w else w) := by
  split
  · rename_i hholds
    obtain ⟨h, hmem⟩ := Notifier.holds_iff.mp hholds
    obtain rfl := hx h hmem
    by_cases hsink : ∃ node member, x.2 = .sink b.cell node member ∧ concerns changed member = true
    · obtain ⟨node, member, heq, hconcerns⟩ := hsink
      rw [heq] at hmem ⊢
      refine (hd.sink hw hmem hconcerns).mono fun pending o k hpend => ⟨hpend.1, fun ht => ?_⟩
      obtain ⟨ho, _, _, hin, -⟩ := ht
      exact hpend.2 ⟨ho, congrArg Prod.fst (List.mem_singleton.mp hin)⟩
    · refine (hd.call _ hw).mono fun pending o k hpend => ⟨hpend, fun ht => hsink ?_⟩
      obtain ⟨-, node, member, hin, hconcerns⟩ := ht
      exact ⟨node, member, (congrArg Prod.snd (List.mem_singleton.mp hin)).symm, hconcerns⟩
  · rename_i hgone
    exact { Evolves.refl hw with
      maintains := fun _ _ hm => hm.forget hw (by simpa using hgone) }

/-- The turns of the handlers that are left, `u` being the world as the announcement began. -/
theorem turns_evolve (hd : Obeys b d) (object : Nat) (changed : Option String) {u : World}
    (hkeyed : (u.notifier object).Keyed) {rest : List (Nat × Handler)}
    (hrest : ∀ x ∈ rest, x ∈ (u.notifier object).handlers) (hw : w.Orderly b.scope)
    (hnext : (u.notifier object).nextKey ≤ (w.notifier object).nextKey)
    (hold : ∀ x ∈ (w.notifier object).handlers, x.1 < (u.notifier object).nextKey →
      x ∈ (u.notifier object).handlers) :
    Evolves b (fun pending o k => pending o k ∧ ¬ told b.cell object changed rest o k) w
      (rest.foldl (fun w x =>
        if (w.notifier object).holds x.1 then d (.handler x.2 changed) w else w) w) := by
  induction rest generalizing w with
  | nil =>
      refine (Evolves.refl hw).mono fun pending o k hpend => ⟨hpend, ?_⟩
      rintro ⟨-, node, member, hmem, -⟩
      cases hmem
  | cons x rest ih =>
      have hin := hrest x List.mem_cons_self
      have hturn := turn_evolves hd hw object changed (x := x) fun h hmem =>
        hkeyed.unique (hold _ hmem (hkeyed.lt_nextKey x hin)) hin
      have hturns := ih (fun y hy => hrest y (List.mem_cons_of_mem x hy)) hturn.orderly
        (Nat.le_trans hnext (hturn.nextKey object)) fun y hy hlt =>
          hold y (hturn.old object y hy (Nat.lt_of_lt_of_le hlt hnext)) hlt
      refine (hturn.trans hturns).mono fun pending o k hpend => ⟨hpend.1.1, fun ht => ?_⟩
      rcases told_cons ht with ht | ht
      · exact hpend.1.2 ht
      · exact hpend.2 ht

theorem notifier_announced (w : World) (object : Nat) (changed : Option String) (id : Nat) :
    (w.modifyObject object (·.announced changed)).notifier id = w.notifier id := by
  refine notifier_modifyObject w object (fun o => ?_) id
  rw [HostObject.announced]
  split <;> rfl

theorem announce_evolves (hd : Obeys b d) (hw : w.Orderly b.scope) (object : Nat)
    (changed : Option String) : Evolves b id w (w.announce d object changed) := by
  have hannounced := announced_evolves hw object changed
  have hturns := turns_evolve hd object changed (hannounced.orderly.keyed object)
    (fun _ hx => hx) hannounced.orderly (Nat.le_refl _) fun _ hx _ => hx
  rw [notifier_announced] at hturns
  unfold announce Notifier.dispatch
  simp only
  rw [notifier_announced]
  refine (hannounced.trans hturns).mono fun pending o k hpend => ?_
  exact hpend.1.resolve_right hpend.2

theorem writeMember_evolves (hd : Obeys b d) (hw : w.Orderly b.scope) {object : Nat} {member : String}
    {v : Value} (hc : b.scope.changes object) (hv : b.scope.holds object member v) :
    Evolves b id w (w.writeMember d object member v) := by
  unfold writeMember
  split
  · exact .refl hw
  · have hwritten := write_evolves hw hc hv
    simp only
    split
    · exact hwritten.trans (announce_evolves hd hwritten.orderly object (some member))
    · exact hwritten

/-! ## Delivering -/

theorem SameState.trans {sc : Scope} {w'' : World} (a : SameState sc w w') (c : SameState sc w' w'') :
    SameState sc w w'' where
  objects := c.objects.trans a.objects
  cells j := (c.cells j).trans (a.cells j)
  observers j cell'' hc x hx := by
    rcases c.observers j cell'' hc x hx with ⟨cell', hc', hx'⟩ | hnew
    · exact a.observers j cell' hc' x hx'
    · rw [bindingCell?, a.bindings] at hnew
      exact .inr hnew
  size := c.size.trans a.size
  bindings := c.bindings.trans a.bindings
  exhausted := c.exhausted.trans a.exhausted
  scripts r reaction hr := by
    rcases c.scripts r reaction hr with ⟨old, hold, hscript⟩ | hall
    · rcases a.scripts r old hold with ⟨older, holder, hscript'⟩ | hall
      · exact .inl ⟨older, holder, hscript'.trans hscript⟩
      · exact .inr (hscript ▸ hall)
    · exact .inr hall
  log r hr := a.log r (c.log r hr)

theorem SameState.enter {sc : Scope} (a : SameState sc w w') (e : RosterEntry) :
    SameState sc w (w'.enter e) :=
  a.trans (.ofFields rfl rfl rfl rfl rfl rfl)

theorem deliver_evolves (hd : Obeys b d) (hw : w.Orderly b.scope) (c : Nat) :
    Evolves b id w (w.deliver d c) := by
  unfold deliver
  split
  · exact .refl hw
  · rename_i cell _
    split
    · exact .refl hw
    · rename_i change rest _
      have hpopped := ((SameState.modifyCell w c (f := ({ · with outbox := rest }))
        (fun _ => rfl) fun _ _ hx => .inl hx).enter (.opened c change)).evolves hw
      have hobserved := Evolves.foldl
        (f := fun w (x : Nat × Observer) => d (.observer c x.1 x.2 change) w) cell.observers
        (fun x _ hu => hd.call (.observer c x.1 x.2 change) hu) hpopped.orderly
      exact (hpopped.trans hobserved).trans (hd.call (.deliver c) hobserved.orderly)

/-! ## Actions -/

theorem onBinding_evolves (hw : w.Orderly b.scope) (name : String)
    {act : Nat → Cell → World → Reply × World}
    (hact : ∀ c cell, w.bindingCell? name = some c → Evolves b id w (act c cell w).2) :
    Evolves b id w (w.onBinding name act).2 := by
  unfold onBinding
  split
  · exact .refl hw
  · rename_i c hc
    split
    · exact .refl hw
    · exact hact c _ hc

theorem onObject_evolves (hw : w.Orderly b.scope) (object : Nat)
    {act : HostObject Handler → World → Reply × World}
    (hact : ∀ o, Evolves b id w (act o w).2) : Evolves b id w (w.onObject object act).2 := by
  unfold onObject
  split
  · exact .refl hw
  · exact hact _

theorem sameState_instantiateResult (sc : Scope) (l : Option Literal) (w : World) :
    SameState sc w (Literal.instantiateResult l w).2 := by
  cases l with
  | none => exact .ofFields rfl rfl rfl rfl rfl rfl
  | some l => exact sameState_instantiate sc l w

theorem sameState_addReaction {sc : Scope} (label : String) {script : List Action} (times : Nat)
    (onlyWhen : Option Result) (hs : ∀ a ∈ script, a.Within sc) (w : World) :
    SameState sc w (w.addReaction label script times onlyWhen).2 where
  objects := rfl
  cells _ := rfl
  observers _ cell hc _ hx := .inl ⟨cell, hc, hx⟩
  size := rfl
  bindings := rfl
  exhausted := rfl
  scripts r reaction hr := by
    simp only [addReaction, Array.getElem?_push] at hr
    split at hr
    · cases hr
      exact .inr hs
    · exact .inl ⟨reaction, hr, rfl⟩
  log _ hr := hr

theorem sameState_addObserver (sc : Scope) {c : Nat} {o : Observer} {w : World}
    (ho : w.bindingCell? o.binding = some c) : SameState sc w (w.addObserver c o).2 := by
  unfold addObserver
  split
  · exact .ofFields rfl rfl rfl rfl rfl rfl
  · rename_i cell' _
    refine .enter (.modifyCell w c (f := fun cell => { cell with
      observers := cell.observers ++ [(cell'.nextObserver, o)]
      nextObserver := cell'.nextObserver + 1 }) (fun _ => rfl) fun cell x hx => ?_) _
    rcases List.mem_append.mp hx with hx | hx
    · exact .inl hx
    · rw [List.mem_singleton.mp hx]
      exact .inr ho

theorem sameState_removeObserver (sc : Scope) (c id : Nat) (w : World) :
    SameState sc w (w.removeObserver c id).2 :=
  .enter (.modifyCell w c (f := fun cell => { cell with
    observers := cell.observers.filter (·.1 != id) }) (fun _ => rfl)
    fun _ _ hx => .inl (List.mem_filter.mp hx).1) _

theorem SameState.observe {sc : Scope} {u : World} (h : SameState sc w u) {c : Nat} {name : String}
    (hc : w.bindingCell? name = some c) (observer : String) {script : List Action} (times : Nat)
    (onlyWhen : Option Result) (hs : ∀ a ∈ script, a.Within sc) :
    let t := u.addReaction observer script times onlyWhen
    SameState sc w (match t.2.addObserver c ⟨name, observer, t.1⟩ with
      | (none, w) => (Reply.nothing, w)
      | (some id, w) =>
        (.text ("ObserverId(" ++ toString id ++ ")"),
          { w with observerIds := bindName w.observerIds (name, observer) id })).2 := by
  intro t
  have hreaction := h.trans (sameState_addReaction observer times onlyWhen hs u)
  have hname : t.2.bindingCell? name = some c := by rwa [bindingCell?, hreaction.bindings]
  have hadded := hreaction.trans (sameState_addObserver sc (o := ⟨name, observer, t.1⟩) hname)
  split
  · rename_i heq
    rw [heq] at hadded
    exact hadded
  · rename_i heq
    rw [heq] at hadded
    exact hadded.trans (.ofFields rfl rfl rfl rfl rfl rfl)

theorem perform_evolves (hd : Obeys b d) (hw : w.Orderly b.scope) {a : Action}
    (ha : a.Within b.scope) : Evolves b id w (w.perform d a).2 := by
  cases ha with
  | @set object member value hc hv =>
      have hmade := (sameState_instantiate b.scope value w).evolves hw
      exact hmade.trans (writeMember_evolves hd hmade.orderly hc (hv w))
  | touch object =>
      refine onObject_evolves hw object fun o => ?_
      simp only
      split
      · exact announce_evolves hd hw object none
      · exact .refl hw
  | announce object member =>
      refine onObject_evolves hw object fun o => ?_
      simp only
      split
      · exact .refl hw
      · exact announce_evolves hd hw object member
  | @bind name value hv =>
      refine onBinding_evolves hw name fun c cell hc => ?_
      have hmade := (sameState_instantiate b.scope value w).evolves hw
      refine hmade.trans (bindCell_evolves hd hmade.orderly fun hname => ?_)
      rw [bindingCell?, hmade.bindings] at hname
      rw [hw.distinct b.name name c hname hc]
      exact hv w
  | unbind name => exact onBinding_evolves hw name fun c _ _ => unbindCell_evolves hd hw c
  | @observe name observer script times onlyWhen hs =>
      refine onBinding_evolves hw name fun c _ hc => ?_
      cases onlyWhen with
      | none =>
          have hnone : SameState b.scope w w := .ofFields rfl rfl rfl rfl rfl rfl
          exact (hnone.observe hc observer times none hs).evolves hw
      | some r =>
          have hmade := sameState_instantiateResult b.scope r w
          exact (hmade.observe hc observer times (some _) hs).evolves hw
  | unobserve name observer =>
      refine onBinding_evolves hw name fun c _ _ => ?_
      simp only
      split
      · exact .refl hw
      · exact (sameState_removeObserver b.scope c _ w).evolves hw
  | value name => exact onBinding_evolves hw name fun _ _ _ => .refl hw

theorem performScripted_evolves (hd : Obeys b d) (hw : w.Orderly b.scope) {a : Action}
    (ha : a.Within b.scope) : Evolves b id w (performScripted d w a) := by
  have hdone := perform_evolves hd hw ha
  unfold performScripted
  simp only
  split
  · exact hdone
  · have hrecorded : SameState b.scope (w.perform d a).2
        ((w.perform d a).2.record (.reply (w.perform d a).1)) := .ofFields rfl rfl rfl rfl rfl rfl
    exact hdone.trans (hrecorded.evolves hdone.orderly)

/-! ## Any depth of calls -/

theorem startScript_evolves (hd : Obeys b d) (hw : w.Orderly b.scope) (reaction : Nat)
    (news : Option Result) : Evolves b id w (w.startScript d reaction news) := by
  unfold startScript
  split
  · exact .refl hw
  · rename_i r hr
    simp only
    split
    · have hstarted : SameState b.scope w { w with
          reactions := w.reactions.modify reaction fun r => { r with started := r.started + 1 } } :=
        ⟨rfl, fun _ => rfl, fun _ cell hc _ hx => .inl ⟨cell, hc, hx⟩, rfl, rfl, rfl,
          fun _ _ hj => .inl (script_of_started hj), fun _ h => h⟩
      have hstart := hstarted.evolves hw
      refine hstart.trans (.foldl r.script (fun a ha hu => ?_) hstart.orderly)
      exact performScripted_evolves hd hu (hw.scripts reaction r hr a ha)
    · exact .refl hw

theorem handle_evolves (hd : Obeys b d) (hw : w.Orderly b.scope) (changed : Option String)
    (h : Handler) : Evolves b id w (w.handle d changed h) := by
  cases h with
  | sink c node member =>
      unfold handle
      simp only
      split
      · exact memberChanged_evolves hd hw c node
      · exact .refl hw
  | recorder node member =>
      unfold handle
      simp only
      split
      · have hnoted : SameState b.scope w { w with notified := w.notified ++ [node] } :=
          .ofFields rfl rfl rfl rfl rfl rfl
        exact hnoted.evolves hw
      · exact .refl hw
  | deaf => exact .refl hw
  | reaction r =>
      unfold handle
      have hrecorded : SameState b.scope w
          (w.record (.notified ((w.reactions[r]?).elim "" (·.label)) changed)) :=
        .ofFields rfl rfl rfl rfl rfl rfl
      have hstart := hrecorded.evolves hw
      exact hstart.trans (startScript_evolves hd hstart.orderly r none)

theorem dispatch_obeys (b : Subject) (depth : Nat) : Obeys b (dispatch depth) := by
  induction depth with
  | zero =>
      -- whatever is left out, the world stays orderly, but nothing is promised of the binding
      have hleft : ∀ {after : Pending → Pending} {w : World} (call : Call), w.Orderly b.scope →
          Evolves b after w (dispatch 0 call w) := by
        intro after w call hw
        have hcells : ∀ (c : Nat) (cell : Cell), w.cells[c]? = some cell →
            cell.busy = false ∧ cell.owned = true ∧ (dispatch 0 call w).Tends c cell.live := by
          intro c cell hc
          obtain ⟨hb, ho, ht⟩ := hw.cells c cell hc
          exact ⟨hb, ho, ht.ofObjects rfl⟩
        exact ⟨⟨hw.quiet, hw.holds, hw.keyed, hw.sinks, hcells, hw.names, hw.distinct, hw.named, hw.scripts,
          hw.log⟩, rfl, rfl, fun _ => Nat.le_refl _, fun _ _ hx _ => hx, nofun, nofun⟩
      exact ⟨hleft, fun hw _ _ => hleft _ hw⟩
  | succ depth ih =>
      refine ⟨fun {w} call hw => ?_, fun {w object key node member changed} hw hmem hconcerns => ?_⟩
      · cases call with
        | handler h changed => exact handle_evolves ih hw changed h
        | observer c id o change =>
            have hrecorded : SameState b.scope w
                ((w.enter (.told c id o change)).record (.change o.binding o.label change)) :=
              .ofFields rfl rfl rfl rfl rfl rfl
            have hstart := hrecorded.evolves (b := b) hw
            exact hstart.trans (startScript_evolves ih hstart.orderly o.reaction (some change.new))
        | deliver c => exact deliver_evolves ih hw c
      · have htold := memberChanged_told ih hw hmem
        change Evolves b _ w (w.handle (dispatch depth) changed (.sink b.cell node member))
        rw [handle, if_pos hconcerns]
        exact htold

end World

end LiveExpr
