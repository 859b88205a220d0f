import LiveExpr.Session.World
import Mathlib.Data.List.Nodup

/-!
The roster as one cell sees it. Who has been unsubscribed may still be waiting in the round that is open
at that moment, and nowhere else: the next round is opened with those who are subscribed, and no
number is given out a second time.
-/

namespace LiveExpr

namespace RosterEntry

def cell : RosterEntry → Nat
  | subscribed c _ _ | unsubscribed c _ _ | opened c _ | told c _ _ _ => c

/-- Whether the observer that is subscribed under a number is told of a change. -/
def tells (c id : Nat) : RosterEntry → Bool
  | told c' id' _ _ => c' == c && id' == id
  | _ => false

def opened? (c : Nat) : RosterEntry → Option ResultChange
  | opened c' change => if c' = c then some change else none
  | _ => none

def subscribed? (c : Nat) : RosterEntry → Option Nat
  | subscribed c' id _ => if c' = c then some id else none
  | _ => none

end RosterEntry

/-- A change that is being handed to observers, and those whose turn has not come yet. -/
structure Round where
  change : ResultChange
  waiting : List (Nat × Observer)

/-- What there is of a cell to subscribing and being told, with the round that has been opened last. -/
structure Desk where
  observers : List (Nat × Observer)
  next : Nat
  round : Option Round

namespace Desk

variable {c id : Nat} {k k' k'' : Desk} {e : RosterEntry} {es es' : List RosterEntry}

/-- One entry. A round is opened with all who are subscribed, and only who waits in the round is told;
whose call is left out is skipped. -/
inductive Step (c : Nat) : Desk → RosterEntry → Desk → Prop
  | subscribed {os : List (Nat × Observer)} {id : Nat} {r : Option Round} (o : Observer) :
      Step c ⟨os, id, r⟩ (.subscribed c id o) ⟨os ++ [(id, o)], id + 1, r⟩
  | unsubscribed {os : List (Nat × Observer)} {n : Nat} {r : Option Round} (id : Nat) :
      Step c ⟨os, n, r⟩ (.unsubscribed c id (os.any (·.1 == id))) ⟨os.filter (·.1 != id), n, r⟩
  | opened {os : List (Nat × Observer)} {n : Nat} {r : Option Round} (change : ResultChange) :
      Step c ⟨os, n, r⟩ (.opened c change) ⟨os, n, some ⟨change, os⟩⟩
  | told {os skipped rest : List (Nat × Observer)} {n id : Nat} {o : Observer}
      {change : ResultChange} :
      Step c ⟨os, n, some ⟨change, skipped ++ (id, o) :: rest⟩⟩ (.told c id o change)
        ⟨os, n, some ⟨change, rest⟩⟩

/-- The entries of other cells do not concern the desk. -/
inductive Run (c : Nat) : Desk → List RosterEntry → Desk → Prop
  | nil (k : Desk) : Run c k [] k
  | other {k k' : Desk} {e : RosterEntry} {es : List RosterEntry} : e.cell ≠ c → Run c k es k' →
      Run c k (e :: es) k'
  | step {k k' k'' : Desk} {e : RosterEntry} {es : List RosterEntry} : Step c k e k' →
      Run c k' es k'' → Run c k (e :: es) k''

theorem Run.append (h : Run c k es k') (h' : Run c k' es' k'') : Run c k (es ++ es') k'' := by
  induction h with
  | nil => exact h'
  | other hne _ ih => exact .other hne (ih h')
  | step hstep _ ih => exact .step hstep (ih h')

/-- An entry is made after what comes before it and before what comes after it. -/
theorem Run.at_entry {before after : List RosterEntry} (h : Run e.cell k (before ++ e :: after) k') :
    ∃ u v, Run e.cell k before u ∧ Step e.cell u e v ∧ Run e.cell v after k' := by
  induction before generalizing k with
  | nil =>
      cases h with
      | other hne _ => exact absurd rfl hne
      | step hstep hafter => exact ⟨k, _, .nil k, hstep, hafter⟩
  | cons first before ih =>
      cases h with
      | other hne hrest =>
          obtain ⟨u, v, hbefore, hstep, hafter⟩ := ih hrest
          exact ⟨u, v, .other hne hbefore, hstep, hafter⟩
      | step hfirst hrest =>
          obtain ⟨u, v, hbefore, hstep, hafter⟩ := ih hrest
          exact ⟨u, v, .step hfirst hbefore, hstep, hafter⟩

/-! ## Numbers -/

structure Numbered (k : Desk) : Prop where
  nodup : (k.observers.map (·.1)).Nodup
  lt_next : ∀ x ∈ k.observers, x.1 < k.next
  waiting : ∀ r ∈ k.round, (r.waiting.map (·.1)).Nodup

theorem Step.numbered (h : Step c k e k') (hk : k.Numbered) : k'.Numbered := by
  obtain ⟨hnodup, hlt, hwaiting⟩ := hk
  cases h with
  | @subscribed os id r o =>
      refine ⟨?_, fun x hx => ?_, hwaiting⟩
      · rw [List.map_append, List.nodup_append]
        refine ⟨hnodup, by simp, fun i hi j hj => ?_⟩
        obtain ⟨x, hx, rfl⟩ := List.mem_map.mp hi
        have hlast : j = id := by simpa using hj
        exact hlast ▸ Nat.ne_of_lt (hlt x hx)
      · rcases List.mem_append.mp hx with hx | hx
        · exact Nat.lt_succ_of_lt (hlt x hx)
        · rw [List.mem_singleton.mp hx]
          exact Nat.lt_succ_self _
  | unsubscribed id =>
      exact ⟨hnodup.sublist (List.filter_sublist.map _),
        fun x hx => hlt x (List.mem_of_mem_filter hx), hwaiting⟩
  | opened change => exact ⟨hnodup, hlt, by rintro r ⟨⟩; exact hnodup⟩
  | told =>
      refine ⟨hnodup, hlt, ?_⟩
      rintro r ⟨⟩
      exact (hwaiting _ rfl).sublist
        (((List.sublist_cons_self _ _).trans (List.sublist_append_right _ _)).map _)

theorem Run.numbered (h : Run c k es k') (hk : k.Numbered) : k'.Numbered := by
  induction h with
  | nil => exact hk
  | other _ _ ih => exact ih hk
  | step hstep _ ih => exact ih (hstep.numbered hk)

/-- Numbers are given out in ascending order. -/
theorem Run.issued (h : Run c k es k') :
    (es.filterMap (·.subscribed? c)).Pairwise (· < ·) ∧
      ∀ id ∈ es.filterMap (·.subscribed? c), k.next ≤ id := by
  induction h with
  | nil => exact ⟨.nil, nofun⟩
  | @other k k' e es hne _ ih =>
      have hnone : e.subscribed? c = none := by
        cases e <;> simp_all [RosterEntry.subscribed?, RosterEntry.cell]
      rwa [List.filterMap_cons_none hnone]
  | @step k k₁ k₂ e es hstep _ ih =>
      obtain ⟨hsorted, hle⟩ := ih
      cases hstep with
      | @subscribed os id r o =>
          have hsome : (RosterEntry.subscribed c id o).subscribed? c = some id := if_pos rfl
          rw [List.filterMap_cons_some hsome]
          refine ⟨.cons (fun j hj => hle j hj) hsorted, fun j hj => ?_⟩
          rcases List.mem_cons.mp hj with rfl | hj
          · exact Nat.le_refl _
          · exact Nat.le_trans (Nat.le_succ id) (hle j hj)
      | unsubscribed | opened | told => exact ⟨hsorted, hle⟩

/-! ## Rounds -/

theorem Run.change (h : Run c k es k') :
    k'.round.map (·.change) =
      (es.filterMap (·.opened? c)).getLast?.or (k.round.map (·.change)) := by
  induction h with
  | nil => rfl
  | @other k k' e es hne _ ih =>
      have hnone : e.opened? c = none := by
        cases e <;> simp_all [RosterEntry.opened?, RosterEntry.cell]
      rwa [List.filterMap_cons_none hnone]
  | @step k k₁ k₂ e es hstep _ ih =>
      cases hstep with
      | opened change =>
          have hsome : (RosterEntry.opened c change).opened? c = some change := if_pos rfl
          rw [List.filterMap_cons_some hsome, List.getLast?_cons, ih]
          cases (es.filterMap (·.opened? c)).getLast? <;> rfl
      | subscribed | unsubscribed | told => exact ih

/-! ## Unsubscribed observers -/

/-- The number has been given out, and is not subscribed any more. -/
structure Gone (id : Nat) (k : Desk) : Prop where
  lt_next : id < k.next
  absent : ∀ x ∈ k.observers, x.1 ≠ id

theorem Step.gone_of_unsubscribed (h : Step c k (.unsubscribed c id true) k') (hk : k.Numbered) :
    k'.Gone id ∧ k'.round = k.round := by
  generalize he : RosterEntry.unsubscribed c id true = e at h
  cases h with
  | @unsubscribed os n r id' =>
      injection he with _ hid hremoved
      subst id'
      obtain ⟨x, hx, hxid⟩ := List.any_eq_true.mp hremoved.symm
      refine ⟨⟨?_, fun y hy => by simpa using (List.mem_filter.mp hy).2⟩, rfl⟩
      rw [← beq_iff_eq.mp hxid]
      exact hk.lt_next x hx
  | subscribed | opened | told => cases he

/-- How many turns an observer still has in the open round. -/
def turns (id : Nat) (k : Desk) : Nat :=
  k.round.elim 0 (·.waiting.countP (·.1 == id))

theorem Numbered.turns_le_one (hk : k.Numbered) (id : Nat) : k.turns id ≤ 1 := by
  unfold turns
  cases hr : k.round with
  | none => exact Nat.zero_le 1
  | some r =>
      have hnodup := hk.waiting r hr
      have hcount := List.nodup_iff_count_le_one.mp hnodup id
      rwa [List.count, List.countP_map] at hcount

theorem Step.gone (h : Step c k e k') (hk : k.Gone id) : k'.Gone id := by
  obtain ⟨hlt, habsent⟩ := hk
  cases h with
  | subscribed o =>
      refine ⟨Nat.lt_succ_of_lt hlt, fun x hx => ?_⟩
      rcases List.mem_append.mp hx with hx | hx
      · exact habsent x hx
      · rw [List.mem_singleton.mp hx]
        exact Nat.ne_of_gt hlt
  | unsubscribed id' => exact ⟨hlt, fun x hx => habsent x (List.mem_of_mem_filter hx)⟩
  | opened | told => exact ⟨hlt, habsent⟩

/-- A round that is opened now has no turn for who is gone. -/
theorem Gone.opened (hk : k.Gone id) (change : ResultChange) :
    turns id { k with round := some ⟨change, k.observers⟩ } = 0 :=
  List.countP_eq_zero.mpr fun x hx => by simpa using hk.absent x hx

/-- Nothing is done for an observer that is gone but that it takes its turn. -/
theorem Step.of_gone (h : Step c k e k') (hk : k.Gone id) :
    (∀ o, e ≠ .subscribed c id o) ∧ e ≠ .unsubscribed c id true ∧
      (e.tells c id).toNat + k'.turns id ≤ k.turns id := by
  cases h with
  | subscribed o =>
      refine ⟨fun o' heq => ?_, nofun, by simp [RosterEntry.tells, turns]⟩
      cases heq
      exact Nat.lt_irrefl _ hk.lt_next
  | @unsubscribed os n r id' =>
      refine ⟨nofun, fun heq => ?_, by simp [RosterEntry.tells, turns]⟩
      injection heq with _ hid hremoved
      obtain ⟨x, hx, hxid⟩ := List.any_eq_true.mp hremoved
      exact hk.absent x hx ((beq_iff_eq.mp hxid).trans hid)
  | opened change => exact ⟨nofun, nofun, by simp [RosterEntry.tells, hk.opened change]⟩
  | @told os skipped rest n id' o change =>
      refine ⟨nofun, nofun, ?_⟩
      simp only [RosterEntry.tells, turns, Option.elim_some, List.countP_append, List.countP_cons,
        beq_self_eq_true, Bool.true_and]
      cases id' == id with
      | false => simp
      | true =>
          simp
          omega

theorem Run.of_gone (h : Run c k es k') (hk : k.Gone id) :
    (∀ o, RosterEntry.subscribed c id o ∉ es) ∧ RosterEntry.unsubscribed c id true ∉ es ∧
      es.countP (RosterEntry.tells c id) + k'.turns id ≤ k.turns id := by
  induction h with
  | nil => exact ⟨fun _ => List.not_mem_nil, List.not_mem_nil, by simp⟩
  | @other k k' e es hne _ ih =>
      obtain ⟨hsubscribed, hunsubscribed, hturns⟩ := ih hk
      have htells : e.tells c id = false := by
        cases e <;> simp_all [RosterEntry.tells, RosterEntry.cell]
      refine ⟨fun o hmem => ?_, fun hmem => ?_, by simpa [htells] using hturns⟩
      · rcases List.mem_cons.mp hmem with rfl | hmem
        · exact hne rfl
        · exact hsubscribed o hmem
      · rcases List.mem_cons.mp hmem with rfl | hmem
        · exact hne rfl
        · exact hunsubscribed hmem
  | @step k k₁ k₂ e es hstep _ ih =>
      obtain ⟨hsubscribed, hunsubscribed, hturns⟩ := ih (hstep.gone hk)
      obtain ⟨hnot, hnot', hturn⟩ := hstep.of_gone hk
      refine ⟨fun o hmem => ?_, fun hmem => ?_, ?_⟩
      · rcases List.mem_cons.mp hmem with heq | hmem
        · exact hnot o heq.symm
        · exact hsubscribed o hmem
      · rcases List.mem_cons.mp hmem with heq | hmem
        · exact hnot' heq.symm
        · exact hunsubscribed hmem
      · rw [List.countP_cons]
        cases htells : e.tells c id <;> simp [htells] at hturn ⊢ <;> omega

/-- The turn that is left is in the round that is open, and comes before any other is opened. -/
theorem Run.told_of_gone (h : Run c k es k') (hk : k.Gone id) {o : Observer} {change : ResultChange}
    (hmem : RosterEntry.told c id o change ∈ es) :
    k.round.map (·.change) = some change ∧
      ∃ before after, es = before ++ .told c id o change :: after ∧
        ∀ change', RosterEntry.opened c change' ∉ before := by
  induction h with
  | nil => cases hmem
  | @other k k' e es hne _ ih =>
      have hmem : RosterEntry.told c id o change ∈ es := by
        refine (List.mem_cons.mp hmem).resolve_left fun heq => ?_
        exact hne (heq ▸ rfl)
      obtain ⟨hround, before, after, rfl, hbefore⟩ := ih hk hmem
      refine ⟨hround, e :: before, after, rfl, fun change' hopened => ?_⟩
      rcases List.mem_cons.mp hopened with rfl | hopened
      · exact hne rfl
      · exact hbefore change' hopened
  | @step k k₁ k₂ e es hstep hrun ih =>
      rcases List.mem_cons.mp hmem with rfl | hrest
      · cases hstep with
        | told => exact ⟨rfl, [], es, rfl, fun _ => List.not_mem_nil⟩
      · obtain ⟨hround, before, after, rfl, hbefore⟩ := ih (hstep.gone hk) hrest
        have hlater : ∀ {k : Desk}, k.round.map (·.change) = some change →
            (∀ change', e ≠ .opened c change') → k.round.map (·.change) = some change ∧
              ∃ before' after', e :: (before ++ .told c id o change :: after) =
                before' ++ .told c id o change :: after' ∧
                ∀ change', RosterEntry.opened c change' ∉ before' := by
          intro k hround he
          refine ⟨hround, e :: before, after, rfl, fun change' hopened => ?_⟩
          rcases List.mem_cons.mp hopened with heq | hopened
          · exact he change' heq.symm
          · exact hbefore change' hopened
        cases hstep with
        | subscribed | unsubscribed | told => exact hlater hround nofun
        | @opened os n r change' =>
            have hnone := (hrun.of_gone ((Step.opened (c := c) change').gone hk)).2.2
            have hturns : turns id ⟨os, n, some ⟨change', os⟩⟩ = 0 := hk.opened change'
            have hcount : 0 < (before ++ .told c id o change :: after).countP (RosterEntry.tells c id) :=
              List.countP_pos_iff.mpr ⟨_, hrest, by simp [RosterEntry.tells]⟩
            omega

/-- Once an observer has been unsubscribed, nothing more is entered about it but, at most once and before
another round is opened, that it is told of the change whose round was open. -/
theorem Run.of_unsubscribed {before after : List RosterEntry}
    (h : Run c k (before ++ .unsubscribed c id true :: after) k') (hk : k.Numbered)
    (hround : k.round = none) :
    (∀ o, RosterEntry.subscribed c id o ∉ after) ∧ RosterEntry.unsubscribed c id true ∉ after ∧
      after.countP (RosterEntry.tells c id) ≤ 1 ∧
      ∀ o change, RosterEntry.told c id o change ∈ after →
        (before.filterMap (·.opened? c)).getLast? = some change ∧
          ∃ earlier later, after = earlier ++ .told c id o change :: later ∧
            ∀ change', RosterEntry.opened c change' ∉ earlier := by
  obtain ⟨u, v, hbefore, hstep, hafter⟩ := h.at_entry (e := .unsubscribed c id true)
  have hu : u.Numbered := hbefore.numbered hk
  obtain ⟨hgone, hsame⟩ := hstep.gone_of_unsubscribed hu
  obtain ⟨hsubscribed, hunsubscribed, hturns⟩ := hafter.of_gone hgone
  have hone : v.turns id ≤ 1 := (hstep.numbered hu).turns_le_one id
  refine ⟨hsubscribed, hunsubscribed, Nat.le_trans (Nat.le_of_add_right_le hturns) hone,
    fun o change hmem => ?_⟩
  obtain ⟨hopen, hfirst⟩ := hafter.told_of_gone hgone hmem
  refine ⟨?_, hfirst⟩
  -- the round was opened before, as none was open at the start
  have hchange := hbefore.change
  rw [← hsame, hopen, hround] at hchange
  exact Option.or_none.symm.trans hchange.symm

end Desk

end LiveExpr
