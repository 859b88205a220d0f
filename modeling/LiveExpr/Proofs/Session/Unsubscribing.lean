import LiveExpr.Proofs.Session.Enactment
import LiveExpr.Proofs.Session.OrderedDelivery

/-!
An observer that has been unsubscribed is told nothing any more but, at most once, the change that was
being delivered at that moment.
-/

namespace LiveExpr

def RosterEntry.removes (c id : Nat) : RosterEntry → Bool
  | unsubscribed c' id' removed => c' == c && id' == id && removed
  | _ => false

theorem RosterEntry.removes_iff {c id : Nat} {e : RosterEntry} :
    e.removes c id = true ↔ e = .unsubscribed c id true := by
  cases e <;> simp [removes, and_assoc]

namespace World

variable {w w' : World} {es : List Event}

/-- No two observers of a cell have the same number, and the next number has not been given out. -/
structure Numbered (w : World) : Prop where
  nodup : ∀ c, ((w.observersOf c).map (·.1)).Nodup
  lt_next : ∀ c, ∀ x ∈ w.observersOf c, x.1 < w.nextId c

theorem numbered_of_cells (h : ∀ (c : Nat) (cell : Cell), w.cells[c]? = some cell →
    (cell.observers.map (·.1)).Nodup ∧ ∀ x ∈ cell.observers, x.1 < cell.nextObserver) :
    w.Numbered := by
  refine ⟨fun c => ?_, fun c x hx => ?_⟩
  · unfold observersOf
    cases hc : w.cells[c]? with
    | none => exact List.nodup_nil
    | some cell => exact (h c cell hc).1
  · unfold observersOf at hx
    unfold nextId
    cases hc : w.cells[c]? with
    | none => simp [hc] at hx
    | some cell =>
        rw [hc] at hx
        exact (h c cell hc).2 x hx

theorem Numbered.desk (hw : w.Numbered) (c : Nat) : (w.desk c none).Numbered :=
  ⟨hw.nodup c, hw.lt_next c, nofun⟩

/-- What any run enters in the roster leads from the desks before to those after, and is what observers
are told. -/
theorem Performs.enacted {allowed : Action → Prop} (hrun : Performs allowed w es w') :
    ∃ entries, w'.roster = w.roster ++ entries ∧
      es.filterMap Event.change? = entries.filterMap RosterEntry.telling? ∧
      ∀ c r, ∃ r', Desk.Run c (w.desk c r) entries (w'.desk c r') := by
  induction hrun with
  | refl => exact ⟨[], (List.append_nil _).symm, rfl, fun _ r => ⟨r, .nil _⟩⟩
  | @act es u depth a _ _ ih =>
      obtain ⟨entries, hroster, htold, hdesk⟩ := ih
      obtain ⟨entries', hroster', htold', hdesk'⟩ :=
        (perform_enacted (dispatch_enacting depth) a u.clearReports).entered
      have hnew : (u.clearReports.perform (dispatch depth) a).2.events.filterMap Event.change? =
          entries'.filterMap RosterEntry.telling? := htold'
      refine ⟨entries ++ entries', ?_, ?_, fun c r => ?_⟩
      · rw [hroster', show u.clearReports.roster = u.roster from rfl, hroster, List.append_assoc]
      · rw [List.filterMap_append, htold, hnew, List.filterMap_append]
      · obtain ⟨r₁, hfst⟩ := hdesk c r
        obtain ⟨r₂, hsnd, -⟩ := hdesk' c r₁
        exact ⟨r₂, hfst.append hsnd⟩

/-- An observer that is told of a change is entered before what it does when it is told. -/
theorem roster_observer (depth c id : Nat) (o : Observer) (change : ResultChange) (w : World) :
    ∃ entries,
      (dispatch (depth + 1) (.observer c id o change) w).roster =
        w.roster ++ .told c id o change :: entries ∧
      (dispatch (depth + 1) (.observer c id o change) w).tellings =
        w.tellings ++ (o.name, change) :: entries.filterMap RosterEntry.telling? := by
  let told := (w.enter (.told c id o change)).record (.change o.binding o.label change)
  obtain ⟨entries, hroster, htold, -⟩ :=
    (startScript_enacted (dispatch_enacting depth) o.reaction (some change.new) told).entered
  refine ⟨entries, hroster.trans (List.append_assoc ..), htold.trans ?_⟩
  simp [told, tellings, record, enter, Event.change?, Observer.name]

/-- The roster has every observer that is subscribed, with its number, every request to unsubscribe one,
with the answer, every round that is opened, with its change, and every observer that is told, in the
order in which that happens. Whatever observers and handlers do from inside their calls: once an observer
has been unsubscribed, its number is neither given out nor unsubscribed again, and it is told nothing
more, unless its turn was still to come in the round that was open just then. Then it may be told that
one change, once, before the next round is opened. -/
theorem Numbered.unsubscribed_told_once (hw : w.Numbered) (hrun : Performs (fun _ => True) w es w') :
    (∀ c id u, (removeObserver c id u).2.roster =
      u.roster ++ [.unsubscribed c id (removeObserver c id u).1]) ∧
    (∀ d name observer u v, perform d (.unobserve name observer) u = (.flag true, v) →
      ∃ c id, u.bindingCell? name = some c ∧ u.observerIds.lookup (name, observer) = some id ∧
        v.roster = u.roster ++ [.unsubscribed c id true]) ∧
    (∀ c o id u v, addObserver c o u = (some id, v) → v.roster = u.roster ++ [.subscribed c id o]) ∧
    (∀ depth c cell change rest u, u.cells[c]? = some cell → cell.delivering = true →
      cell.outbox = change :: rest → ∃ entries,
        (dispatch (depth + 1) (.deliver c) u).roster = u.roster ++ .opened c change :: entries) ∧
    (∀ depth c id o change u, ∃ entries,
      (dispatch (depth + 1) (.observer c id o change) u).roster =
        u.roster ++ .told c id o change :: entries ∧
      (dispatch (depth + 1) (.observer c id o change) u).tellings =
        u.tellings ++ (o.name, change) :: entries.filterMap RosterEntry.telling?) ∧
    w'.Numbered ∧
    ∃ entries, w'.roster = w.roster ++ entries ∧
      es.filterMap Event.change? = entries.filterMap RosterEntry.telling? ∧
      ∀ c, (entries.filterMap (·.subscribed? c)).Pairwise (· < ·) ∧
        (∀ id ∈ entries.filterMap (·.subscribed? c), w.nextId c ≤ id) ∧
        ∀ before id after, entries = before ++ .unsubscribed c id true :: after →
          (∀ o, .subscribed c id o ∉ after) ∧ .unsubscribed c id true ∉ after ∧
            after.countP (RosterEntry.tells c id) ≤ 1 ∧
            ∀ o change, .told c id o change ∈ after →
              (before.filterMap (·.opened? c)).getLast? = some change ∧
                ∃ earlier later, after = earlier ++ .told c id o change :: later ∧
                  ∀ change', .opened c change' ∉ earlier := by
  obtain ⟨entries, hroster, htold, hdesk⟩ := hrun.enacted
  have hnumbered (c : Nat) : (w'.desk c none).Numbered := by
    obtain ⟨r, hend⟩ := hdesk c none
    obtain ⟨hnodup, hlt, -⟩ := hend.numbered (hw.desk c)
    exact ⟨hnodup, hlt, nofun⟩
  refine ⟨roster_removeObserver, fun _ _ _ _ _ => roster_unobserve,
    fun _ _ _ _ _ => roster_addObserver,
    fun depth _ _ _ _ _ => roster_deliver (dispatch_enacting depth), roster_observer,
    ⟨fun c => (hnumbered c).nodup, fun c => (hnumbered c).lt_next⟩, entries, hroster, htold,
    fun c => ?_⟩
  obtain ⟨r, hend⟩ := hdesk c none
  obtain ⟨hsorted, hfresh⟩ := hend.issued
  refine ⟨hsorted, hfresh, ?_⟩
  rintro before id after rfl
  exact hend.of_unsubscribed (hw.desk c) rfl

/-! ## An observer that unsubscribes another -/

/-- The boss's age is observed twice, first by one who unsubscribes the other at the first change. -/
def observedPair : World :=
  let w := staff.cloneBinding (dispatch callDepth) .bossAge "b" .live
  let w := (w.step (.observe "b" "first" [.unobserve "b" "second"] 1 none)).2
  (w.step (.observe "b" "second" [] 0 none)).2

theorem observedPair_numbered : observedPair.Numbered := by
  refine numbered_of_cells fun c cell hc => ?_
  have hall : (observedPair.cells.all fun cell =>
      cell.observers.map (·.1) == [0, 1] && cell.nextObserver == 2) = true := by decide +kernel
  rw [Array.all_eq_true'] at hall
  have hcell := hall cell (Array.mem_of_getElem? hc)
  simp only [Bool.and_eq_true, beq_iff_eq] at hcell
  obtain ⟨hids, hnext⟩ := hcell
  rw [hids, hnext]
  refine ⟨by decide, fun x hx => ?_⟩
  have hid : x.1 ∈ [0, 1] := hids ▸ List.mem_map_of_mem hx
  simp at hid
  omega

/-- The second observer is unsubscribed while the age is being delivered, and told of it afterwards. -/
theorem told_once_observedPair :
    let w := (observedPair.step (.bind "b" (.fixed employee))).2
    w.Numbered ∧ w.tellings.map (·.1) = [("b", "first"), ("b", "second")] ∧
      ∃ entries, w.roster = observedPair.roster ++ entries ∧
        w.tellings = entries.filterMap RosterEntry.telling? ∧ .unsubscribed 0 1 true ∈ entries ∧
        ∀ before after, entries = before ++ .unsubscribed 0 1 true :: after →
          after.countP (RosterEntry.tells 0 1) ≤ 1 := by
  intro w
  have hrun : Performs (fun _ => True) observedPair ([] ++ w.events) w := .act callDepth .refl trivial
  obtain ⟨-, -, -, -, -, hw, entries, hroster, htold, hall⟩ :=
    observedPair_numbered.unsubscribed_told_once hrun
  have hgone : (w.roster.drop observedPair.roster.length).any (RosterEntry.removes 0 1) = true := by
    decide +kernel
  rw [hroster, List.drop_left] at hgone
  obtain ⟨e, he, hremoves⟩ := List.any_eq_true.mp hgone
  obtain rfl := RosterEntry.removes_iff.mp hremoves
  refine ⟨hw, by decide +kernel, entries, hroster, htold, he, fun before after hentries => ?_⟩
  exact ((hall 0).2.2 before 1 after hentries).2.2.1

end World

def Action.unobserves (binding observer : String) : Action → Bool
  | .unobserve binding' observer' => binding' == binding && observer' == observer
  | _ => false

theorem Action.unobserves_iff {binding observer : String} {a : Action} :
    a.unobserves binding observer = true ↔ a = .unobserve binding observer := by
  cases a <;> simp [Action.unobserves]

/-- The observer is told last, after an action that was done while another was told. -/
def toldAfterDone (binding observer : String) : List Event → Bool
  | [_, .reply (.flag true), .change binding' observer' _] =>
    binding' == binding && observer' == observer
  | _ => false

theorem of_toldAfterDone {binding observer : String} {es : List Event}
    (h : toldAfterDone binding observer es = true) :
    ∃ first change, es = [first, .reply (.flag true), .change binding observer change] := by
  unfold toldAfterDone at h
  split at h
  · rename_i first _ _ change
    rw [Bool.and_eq_true, beq_iff_eq, beq_iff_eq] at h
    obtain ⟨rfl, rfl⟩ := h
    exact ⟨first, change, rfl⟩
  · cases h

namespace World

/-- The script of the first observer answers that the second has been unsubscribed, and then the second
is told of the same change. -/
theorem unsubscribed_may_be_told :
    ¬ ∀ (w : World) (b o : String) (v : Literal),
      (∀ (r : Nat) (reaction : Reaction), w.reactions[r]? = some reaction →
        ∀ a ∈ reaction.script, a = .unobserve b o) →
      ∀ before after, (w.step (.bind b v)).2.events = before ++ .reply (.flag true) :: after →
        ∀ change, Event.change b o change ∉ after := by
  intro hall
  have hscripts : (observedPair.reactions.all fun r =>
      r.script.all (Action.unobserves "b" "second")) = true := by decide +kernel
  have htold : toldAfterDone "b" "second"
      (observedPair.step (.bind "b" (.fixed employee))).2.events = true := by decide +kernel
  rw [Array.all_eq_true'] at hscripts
  have hclaim := hall observedPair "b" "second" (.fixed employee) fun r reaction hr a ha =>
    Action.unobserves_iff.mp
      (List.all_eq_true.mp (hscripts reaction (Array.mem_of_getElem? hr)) a ha)
  obtain ⟨first, change, hevents⟩ := of_toldAfterDone htold
  exact hclaim [first] [.change "b" "second" change] hevents change List.mem_cons_self

end World

end LiveExpr
