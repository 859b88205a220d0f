import LiveExpr.Proofs.Session.Registration

/-!
An announcement calls handlers that may subscribe, unsubscribe and announce again while it goes on. What
has been done to a notifier tells who is subscribed, and so which handlers an announcement calls.
-/

namespace LiveExpr.Notifier

variable {η σ : Type} {n n' n'' : Notifier η}

/-- An operation on a notifier and what it returned: the key given out, or whether there was a handler to
remove. -/
inductive Operation (η : Type)
  | subscribed (key : Nat) (handler : η)
  | unsubscribed (key : Nat) (removed : Bool)

def subscriptions (ds : List (Operation η)) : List (Nat × η) :=
  ds.filterMap fun
    | .subscribed key handler => some (key, handler)
    | .unsubscribed .. => none

def issued (ds : List (Operation η)) : List Nat :=
  (subscriptions ds).map (·.1)

def removals (ds : List (Operation η)) : List Nat :=
  ds.filterMap fun
    | .unsubscribed key true => some key
    | .unsubscribed _ false | .subscribed .. => none

theorem subscriptions_append (ds ds' : List (Operation η)) :
    subscriptions (ds ++ ds') = subscriptions ds ++ subscriptions ds' :=
  List.filterMap_append

theorem issued_append (ds ds' : List (Operation η)) : issued (ds ++ ds') = issued ds ++ issued ds' := by
  rw [issued, subscriptions_append, List.map_append, issued, issued]

theorem removals_append (ds ds' : List (Operation η)) :
    removals (ds ++ ds') = removals ds ++ removals ds' :=
  List.filterMap_append

/-! ## Operations one after the other -/

/-- The second notifier is what the operations make of the first. -/
inductive Undergoes : Notifier η → List (Operation η) → Notifier η → Prop
  | nil (n : Notifier η) : Undergoes n [] n
  | subscribe {n n' : Notifier η} {ds : List (Operation η)} (handler : η) :
      Undergoes (n.subscribe handler).2 ds n' →
      Undergoes n (.subscribed (n.subscribe handler).1 handler :: ds) n'
  | unsubscribe {n n' : Notifier η} {ds : List (Operation η)} (key : Nat) :
      Undergoes (n.unsubscribe key).2 ds n' →
      Undergoes n (.unsubscribed key (n.unsubscribe key).1 :: ds) n'

namespace Undergoes

variable {ds ds' : List (Operation η)}

theorem append (h : Undergoes n ds n') (h' : Undergoes n' ds' n'') : Undergoes n (ds ++ ds') n'' := by
  induction h with
  | nil => exact h'
  | subscribe handler _ ih => exact .subscribe handler (ih h')
  | unsubscribe key _ ih => exact .unsubscribe key (ih h')

theorem split (h : Undergoes n (ds ++ ds') n'') : ∃ n', Undergoes n ds n' ∧ Undergoes n' ds' n'' := by
  induction ds generalizing n with
  | nil => exact ⟨n, .nil n, h⟩
  | cons d ds ih =>
      cases h with
      | subscribe handler h =>
          obtain ⟨n', hfst, hsnd⟩ := ih h
          exact ⟨n', .subscribe handler hfst, hsnd⟩
      | unsubscribe key h =>
          obtain ⟨n', hfst, hsnd⟩ := ih h
          exact ⟨n', .unsubscribe key hfst, hsnd⟩

end Undergoes

/-- The notifier is as everything done to it, from the first, has left it. -/
structure Reflects (n : Notifier η) (ds : List (Operation η)) : Prop where
  issued : issued ds = List.range n.nextKey
  removals_subset : removals ds ⊆ Notifier.issued ds
  removals_nodup : (removals ds).Nodup
  handlers : n.handlers = (subscriptions ds).filter fun x => x.1 ∉ removals ds

namespace Reflects

variable {ds ds' : List (Operation η)}

theorem empty : (empty : Notifier η).Reflects [] :=
  ⟨rfl, List.nil_subset _, .nil, rfl⟩

theorem holds_iff (h : n.Reflects ds) {key : Nat} :
    n.holds key = true ↔ key ∈ Notifier.issued ds ∧ key ∉ removals ds := by
  rw [Notifier.holds_iff, h.handlers, Notifier.issued]
  simp

theorem subscribe (h : n.Reflects ds) (handler : η) :
    (n.subscribe handler).2.Reflects (ds ++ [.subscribed n.nextKey handler]) := by
  have hremovals : removals (ds ++ [.subscribed n.nextKey handler]) = removals ds :=
    (removals_append ..).trans (List.append_nil _)
  have hfresh : n.nextKey ∉ removals ds := fun hmem => by
    have := h.removals_subset hmem
    rw [h.issued, List.mem_range] at this
    omega
  refine ⟨?_, ?_, ?_, ?_⟩
  · rw [issued_append, h.issued]
    exact List.range_succ.symm
  · rw [hremovals, issued_append]
    exact List.subset_append_of_subset_left _ h.removals_subset
  · rw [hremovals]
    exact h.removals_nodup
  · rw [hremovals, subscriptions_append, List.filter_append, ← h.handlers]
    simp [Notifier.subscribe, subscriptions, hfresh]

theorem unsubscribe (h : n.Reflects ds) (key : Nat) :
    (n.unsubscribe key).2.Reflects (ds ++ [.unsubscribed key (n.unsubscribe key).1]) := by
  change (n.unsubscribe key).2.Reflects (ds ++ [.unsubscribed key (n.holds key)])
  have hissued : Notifier.issued (ds ++ [.unsubscribed key (n.holds key)]) = Notifier.issued ds :=
    (issued_append ..).trans (List.append_nil _)
  have hsubscriptions : subscriptions (ds ++ [.unsubscribed key (n.holds key)]) = subscriptions ds :=
    (subscriptions_append ..).trans (List.append_nil _)
  cases hholds : n.holds key with
  | true =>
      rw [hholds] at hissued hsubscriptions
      have hremovals : removals (ds ++ [.unsubscribed key true]) = removals ds ++ [key] :=
        removals_append ..
      obtain ⟨hmem, hnot⟩ := h.holds_iff.mp hholds
      refine ⟨hissued.trans h.issued, ?_, ?_, ?_⟩
      · rw [hremovals, hissued]
        exact List.append_subset.mpr ⟨h.removals_subset, List.cons_subset.mpr ⟨hmem, List.nil_subset _⟩⟩
      · rw [hremovals, ← List.concat_eq_append]
        exact h.removals_nodup.concat hnot
      · rw [hremovals, hsubscriptions, Notifier.unsubscribe, h.handlers, List.filter_filter]
        exact List.filter_congr fun x _ => by rw [Bool.eq_iff_iff]; simp [and_comm]
  | false =>
      -- nothing is removed, so the filter keeps every handler
      rw [hholds] at hissued hsubscriptions
      have hremovals : removals (ds ++ [.unsubscribed key false]) = removals ds :=
        (removals_append ..).trans (List.append_nil _)
      have hkept : n.handlers.filter (·.1 != key) = n.handlers := by
        refine List.filter_eq_self.mpr fun x hx => ?_
        rw [bne_iff_ne]
        rintro rfl
        rw [Notifier.holds_iff.mpr ⟨x.2, hx⟩] at hholds
        cases hholds
      refine ⟨hissued.trans h.issued, ?_, ?_, ?_⟩
      · rw [hremovals, hissued]
        exact h.removals_subset
      · rw [hremovals]
        exact h.removals_nodup
      · rw [hremovals, hsubscriptions, Notifier.unsubscribe, hkept]
        exact h.handlers

theorem undergoes (h : n.Reflects ds) (hs : Undergoes n ds' n') : n'.Reflects (ds ++ ds') := by
  induction hs generalizing ds with
  | nil => exact (List.append_nil ds).symm ▸ h
  | subscribe handler _ ih =>
      rw [List.append_cons]
      exact ih (h.subscribe handler)
  | unsubscribe key _ ih =>
      rw [List.append_cons]
      exact ih (h.unsubscribe key)

/-- A handler is still there unless it has been removed since. -/
theorem mem_handlers_iff (h : n.Reflects ds) (hs : Undergoes n ds' n') {x : Nat × η}
    (hx : x ∈ n.handlers) : x ∈ n'.handlers ↔ x.1 ∉ removals ds' := by
  rw [h.handlers, List.mem_filter, decide_eq_true_iff] at hx
  rw [(h.undergoes hs).handlers, subscriptions_append, removals_append]
  simp [hx]

theorem holds_iff_mem (h : n.Reflects ds) (hs : Undergoes n ds' n') {x : Nat × η}
    (hx : x ∈ n.handlers) : n'.holds x.1 = true ↔ x ∈ n'.handlers := by
  refine ⟨fun hholds => ?_, fun hmem => Notifier.holds_iff.mpr ⟨x.2, hmem⟩⟩
  have hnot := ((h.undergoes hs).holds_iff.mp hholds).2
  rw [removals_append, List.mem_append, not_or] at hnot
  exact (h.mem_handlers_iff hs hx).mpr hnot.2

/-- Keys that are given out have not been given out before. -/
theorem disjoint_issued (h : n.Reflects ds) (hs : Undergoes n ds' n') :
    List.Disjoint (Notifier.issued ds) (Notifier.issued ds') := by
  have hnodup : (Notifier.issued (ds ++ ds')).Nodup := (h.undergoes hs).issued ▸ List.nodup_range
  rw [issued_append] at hnodup
  exact List.disjoint_of_nodup_append hnodup

theorem pairwise_keys (h : n.Reflects ds) : (n.handlers.map (·.1)).Pairwise (· < ·) := by
  have hsublist : (n.handlers.map (·.1)).Sublist (Notifier.issued ds) := by
    rw [h.handlers]
    exact List.filter_sublist.map _
  rw [h.issued] at hsublist
  exact List.pairwise_lt_range.sublist hsublist

theorem count (h : n.Reflects ds) :
    n.count = ((Notifier.issued ds).filter (· ∉ removals ds)).length := by
  rw [Notifier.count, h.handlers, Notifier.issued, List.filter_map, List.length_map]
  rfl

end Reflects

theorem Undergoes.reflects {ds : List (Operation η)} (h : Undergoes .empty ds n) : n.Reflects ds :=
  Reflects.empty.undergoes h

/-- A handler is removed just once, by the first that asks for it after it has subscribed. -/
theorem Undergoes.removed_iff {before after : List (Operation η)} {key : Nat} {removed : Bool}
    (h : Undergoes .empty (before ++ .unsubscribed key removed :: after) n) :
    removed = true ↔ key ∈ issued before ∧ key ∉ removals before := by
  obtain ⟨n', hbefore, hrest⟩ := h.split
  cases hrest with
  | unsubscribe => exact hbefore.reflects.holds_iff

/-! ## One announcement -/

/-- The turn of a handler, and how things stand when it comes. -/
structure Turn (η σ : Type) where
  entry : Nat × η
  state : σ

section

variable (view : σ → Notifier η) (call : η → σ → σ)

def turn (s : σ) (x : Nat × η) : σ :=
  if (view s).holds x.1 then call x.2 s else s

def turnsFrom : List (Nat × η) → σ → List (Turn η σ)
  | [], _ => []
  | x :: rest, s => ⟨x, s⟩ :: turnsFrom rest (turn view call s x)

def turns (s : σ) : List (Turn η σ) :=
  turnsFrom view call (view s).handlers s

/-- The turns at which a handler is called. -/
def calls (ts : List (Turn η σ)) : List (Turn η σ) :=
  ts.filter fun t => (view t.state).holds t.entry.1

/-- What calls one after the other do. -/
def callAll (ts : List (Turn η σ)) (s : σ) : σ :=
  ts.foldl (fun s t => call t.entry.2 s) s

/-- Handlers change the notifier by its operations only. -/
def Abides : Prop :=
  ∀ handler s, ∃ ds, Undergoes (view s) ds (view (call handler s))

end

variable {view : σ → Notifier η} {call : η → σ → σ} {s : σ} {xs : List (Nat × η)}

theorem map_turnsFrom (xs : List (Nat × η)) (s : σ) :
    (turnsFrom view call xs s).map (·.entry) = xs := by
  induction xs generalizing s with
  | nil => rfl
  | cons x rest ih => exact congrArg (x :: ·) (ih _)

theorem callAll_calls_cons (t : Turn η σ) (ts : List (Turn η σ)) :
    callAll call (calls view (t :: ts)) t.state =
      callAll call (calls view ts) (turn view call t.state t.entry) := by
  rw [calls, List.filter_cons, turn]
  split <;> rfl

theorem foldl_turn (xs : List (Nat × η)) (s : σ) :
    xs.foldl (turn view call) s = callAll call (calls view (turnsFrom view call xs s)) s := by
  induction xs generalizing s with
  | nil => rfl
  | cons x rest ih =>
      rw [List.foldl_cons, ih]
      exact (callAll_calls_cons ⟨x, s⟩ _).symm

/-- A turn comes when the handlers before it have been called. -/
theorem state_of_turnsFrom {before after : List (Turn η σ)} {t : Turn η σ}
    (h : turnsFrom view call xs s = before ++ t :: after) :
    t.state = callAll call (calls view before) s := by
  -- on the turns before it, each of which is the first of what is then left
  induction before generalizing xs s with
  | nil =>
      cases xs with
      | nil => cases h
      | cons x rest =>
          cases h
          rfl
  | cons d before ih =>
      cases xs with
      | nil => cases h
      | cons x rest =>
          rw [turnsFrom, List.cons_append, List.cons.injEq] at h
          obtain ⟨rfl, hrest⟩ := h
          rw [ih hrest]
          exact (callAll_calls_cons ⟨x, s⟩ before).symm

theorem Abides.turn (h : Abides view call) (s : σ) (x : Nat × η) :
    ∃ ds, Undergoes (view s) ds (view (turn view call s x)) := by
  rw [Notifier.turn]
  split
  · exact h x.2 s
  · exact ⟨[], .nil _⟩

theorem Abides.foldl (h : Abides view call) (xs : List (Nat × η)) (s : σ) :
    ∃ ds, Undergoes (view s) ds (view (xs.foldl (Notifier.turn view call) s)) := by
  induction xs generalizing s with
  | nil => exact ⟨[], .nil _⟩
  | cons x rest ih =>
      obtain ⟨ds, hturn⟩ := h.turn s x
      obtain ⟨ds', hrest⟩ := ih (Notifier.turn view call s x)
      exact ⟨ds ++ ds', hturn.append hrest⟩

/-- An announcement itself changes the notifier by its operations only, so that handlers may announce.
-/
theorem Abides.dispatch (h : Abides view call) (s : σ) :
    ∃ ds, Undergoes (view s) ds (view (dispatch view call s)) :=
  h.foldl (view s).handlers s

theorem Abides.turnsFrom (h : Abides view call) {t : Turn η σ}
    (ht : t ∈ turnsFrom view call xs s) : ∃ ds, Undergoes (view s) ds (view t.state) := by
  induction xs generalizing s with
  | nil => cases ht
  | cons x rest ih =>
      rcases List.mem_cons.mp ht with rfl | ht
      · exact ⟨[], .nil _⟩
      · obtain ⟨ds, hturn⟩ := h.turn s x
        obtain ⟨ds', hrest⟩ := ih ht
        exact ⟨ds ++ ds', hturn.append hrest⟩

/-- Keys are given out in order, and each is removed at most once, at the first request for it; what is
left is who is subscribed. An announcement gives each handler that was subscribed as it began one turn, in
the order of subscription, and calls it just when it is still subscribed then; what is subscribed
meanwhile is not called. -/
theorem dispatch_calls_subscribed (hcall : Abides view call) {past : List (Operation η)}
    (hpast : Undergoes .empty past (view s)) :
    (∀ ds n, Undergoes (.empty : Notifier η) ds n →
      issued ds = List.range n.nextKey ∧
      (∀ before key removed after, ds = before ++ .unsubscribed key removed :: after →
        (removed = true ↔ key ∈ issued before ∧ key ∉ removals before)) ∧
      (removals ds).Nodup ∧
      n.handlers = ((subscriptions ds).filter fun x => x.1 ∉ removals ds) ∧
      n.count = ((issued ds).filter (· ∉ removals ds)).length) ∧
    (turns view call s).map (·.entry) = (view s).handlers ∧
    (∀ before t after, turns view call s = before ++ t :: after →
      t.state = callAll call (calls view before) s) ∧
    dispatch view call s = callAll call (calls view (turns view call s)) s ∧
    (∀ t ∈ turns view call s, (t ∈ calls view (turns view call s) ↔ t.entry ∈ (view t.state).handlers) ∧
      (∃ ds, Undergoes (view s) ds (view t.state)) ∧
      ∀ ds, Undergoes (view s) ds (view t.state) →
        (t ∈ calls view (turns view call s) ↔ t.entry.1 ∉ removals ds)) ∧
    ((calls view (turns view call s)).map (·.entry.1)).Pairwise (· < ·) ∧
    (∃ ds, Undergoes (view s) ds (view (dispatch view call s))) ∧
    ∀ ds, Undergoes (view s) ds (view (dispatch view call s)) →
      ∀ t ∈ calls view (turns view call s), t.entry.1 ∉ issued ds := by
  have hreflects := hpast.reflects
  have hentries : (turns view call s).map (·.entry) = (view s).handlers := map_turnsFrom _ s
  have hentry {t : Turn η σ} (ht : t ∈ turns view call s) : t.entry ∈ (view s).handlers :=
    hentries ▸ List.mem_map_of_mem ht
  have hcalls {t : Turn η σ} (ht : t ∈ turns view call s) :
      t ∈ calls view (turns view call s) ↔ (view t.state).holds t.entry.1 = true := by
    rw [calls, List.mem_filter, and_iff_right ht]
  refine ⟨fun ds n h => ⟨h.reflects.issued, ?_, h.reflects.removals_nodup, h.reflects.handlers,
    h.reflects.count⟩, hentries, fun _ _ _ => state_of_turnsFrom, foldl_turn _ s, fun t ht => ?_, ?_,
    hcall.dispatch s, fun ds hundergoes t ht => hreflects.disjoint_issued hundergoes ?_⟩
  · rintro before key removed after rfl
    exact h.removed_iff
  · have hiff {ds : List (Operation η)} (hundergoes : Undergoes (view s) ds (view t.state)) :
        t ∈ calls view (turns view call s) ↔ t.entry ∈ (view t.state).handlers :=
      (hcalls ht).trans (hreflects.holds_iff_mem hundergoes (hentry ht))
    obtain ⟨ds, hundergoes⟩ := hcall.turnsFrom ht
    exact ⟨hiff hundergoes, ⟨ds, hundergoes⟩, fun ds hundergoes =>
      (hiff hundergoes).trans (hreflects.mem_handlers_iff hundergoes (hentry ht))⟩
  · have hkeys := hreflects.pairwise_keys
    rw [← hentries, List.map_map] at hkeys
    exact hkeys.sublist (List.filter_sublist.map _)
  · have hmem := hentry (List.mem_of_mem_filter ht)
    rw [hreflects.handlers] at hmem
    exact List.mem_map_of_mem (List.mem_of_mem_filter hmem)

/-! ## Handlers that meddle -/

/-- What a handler does when it is called: nothing, or to subscribe, to remove a handler or to announce.
-/
inductive Habit
  | rests | subscribes | removes (key : Nat) | announces

def Habit.act (announce : Notifier Habit → Notifier Habit) : Habit → Notifier Habit → Notifier Habit
  | rests, n => n
  | subscribes, n => (n.subscribe rests).2
  | removes key, n => (n.unsubscribe key).2
  | announces, n => announce n

/-- Handlers announce only as deep as they may. -/
def acting : Nat → Habit → Notifier Habit → Notifier Habit
  | 0 => Habit.act id
  | depth + 1 => Habit.act (dispatch id (acting depth))

theorem abides_act {announce : Notifier Habit → Notifier Habit}
    (h : ∀ n, ∃ ds, Undergoes n ds (announce n)) : Abides id (Habit.act announce) := by
  intro habit n
  cases habit with
  | rests => exact ⟨[], .nil n⟩
  | subscribes => exact ⟨_, .subscribe .rests (.nil _)⟩
  | removes key => exact ⟨_, .unsubscribe key (.nil _)⟩
  | announces => exact h n

theorem abides_acting (depth : Nat) : Abides id (acting depth) := by
  induction depth with
  | zero => exact abides_act fun n => ⟨[], .nil n⟩
  | succ depth ih => exact abides_act ih.dispatch

def meddlers : List (Operation Habit) :=
  [.subscribed 0 .subscribes, .subscribed 1 .announces, .subscribed 2 (.removes 3),
    .subscribed 3 .rests]

def meddled : Notifier Habit :=
  ⟨[(0, .subscribes), (1, .announces), (2, .removes 3), (3, .rests)], 4⟩

/-- The last handler is removed in the course of the announcement that the second makes, and the two that
the first has subscribed by then are not called. -/
theorem dispatch_meddled :
    Abides id (acting 1) ∧ Undergoes .empty meddlers meddled ∧
      dispatch id (acting 1) meddled =
        acting 1 (.removes 3) (acting 1 .announces (acting 1 .subscribes meddled)) ∧
      (dispatch id (acting 1) meddled).count = 5 := by
  have hpast : Undergoes .empty meddlers meddled :=
    .subscribe Habit.subscribes <| .subscribe Habit.announces <| .subscribe (Habit.removes 3) <|
      .subscribe Habit.rests (.nil _)
  obtain ⟨-, -, -, hdispatch, -⟩ := dispatch_calls_subscribed (abides_acting 1) hpast
  exact ⟨abides_acting 1, hpast, hdispatch, rfl⟩

end LiveExpr.Notifier
