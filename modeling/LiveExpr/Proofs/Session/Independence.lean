import LiveExpr.Proofs.Session.Resemblance
import LiveExpr.Proofs.Session.SingleSet

/-!
Bindings are independent of each other. Over the same objects, and whatever is done to another binding
in between, a binding comes to the same results, follows the same objects and tells its observers the
same, as if nothing had been done to the other.
-/

namespace LiveExpr.World

variable {name other : String} {c : Nat} {w w' u u' : World} {x : Action}

/-! ## One action -/

namespace Alike

theorem clearReports (h : Alike name c (fun _ => 0) (fun _ => 0) w w') :
    Alike name c (fun _ => 0) (fun _ => 0) w.clearReports w'.clearReports :=
  have hcleared : ∀ {v : World}, v.Calm → v.clearReports.Calm := fun hv =>
    ⟨(clearReports_evolves (b := .bystander) hv.orderly).orderly, hv.silent, hv.rested⟩
  { h with
    left := hcleared h.left
    right := hcleared h.right
    heap := ⟨h.heap.objects, h.heap.capable⟩
    news := rfl }

/-- Both cells have changed alike, and the objects have not. -/
theorem ofObjects (h : Alike name c (fun _ => 0) (fun _ => 0) w w') (hu : u.Calm) (hu' : u'.Calm)
    (ho : u.objects = w.objects) (ho' : u'.objects = w'.objects) (hb : u.bindings = w.bindings)
    (hb' : u'.bindings = w'.bindings)
    (hcell : ∃ cell cell', u.cells[c]? = some cell ∧ u'.cells[c]? = some cell' ∧ cell.Resembles cell')
    (hids : ∀ observer, u'.observerIds.lookup (name, observer) = u.observerIds.lookup (name, observer))
    (hnews : newsOf name u'.events = newsOf name u.events) :
    Alike name c (fun _ => 0) (fun _ => 0) u u' where
  left := hu
  right := hu'
  found := by
    rw [bindingCell?, hb]
    exact h.found
  found' := by
    rw [bindingCell?, hb']
    exact h.found'
  cell := hcell
  heap := (SameHeap.ofObjects ho).symm.trans (h.heap.trans (.ofObjects ho'))
  hooks id := by
    rw [hooks_of_objects ho, hooks_of_objects ho']
    exact h.hooks id
  since _ := Nat.zero_le _
  since' _ := Nat.zero_le _
  ids := hids
  news := hnews

theorem observe (h : Alike name c (fun _ => 0) (fun _ => 0) w w') {cell cell' : Cell}
    (hc : w.cells[c]? = some cell) (hc' : w'.cells[c]? = some cell') (hsame : cell.Resembles cell')
    (observer : String) : Alike name c (fun _ => 0) (fun _ => 0) (w.observed c cell name observer)
      (w'.observed c cell' name observer) := by
  refine h.ofObjects (h.left.observe h.found hc observer) (h.right.observe h.found' hc' observer)
    rfl rfl rfl rfl ⟨_, _, cells_modifyCell hc _, cells_modifyCell hc' _, hsame.live, hsame.watched, ?_, ?_⟩
    (fun o => ?_) h.news
  · have hattendance := hsame.attendance
    simp only [Cell.attendance] at hattendance ⊢
    simp only [List.map_append, hattendance, List.map_cons, List.map_nil, hsame.nextObserver]
  · simp only [hsame.nextObserver]
  · simp only [observed, lookup_bindName, hsame.nextObserver, h.ids o]

theorem unobserve (h : Alike name c (fun _ => 0) (fun _ => 0) w w') {cell cell' : Cell}
    (hc : w.cells[c]? = some cell) (hc' : w'.cells[c]? = some cell') (hsame : cell.Resembles cell')
    (observer : String) : Alike name c (fun _ => 0) (fun _ => 0) (w.unobserved c name observer)
      (w'.unobserved c name observer) := by
  have hcalm := h.left.unobserve h.found hc observer
  have hcalm' := h.right.unobserve h.found' hc' observer
  have hids := h.ids observer
  unfold unobserved at *
  rw [hids] at hcalm' ⊢
  cases hid : w.observerIds.lookup (name, observer) with
  | none => exact h
  | some id =>
      simp only [hid] at hcalm hcalm'
      refine h.ofObjects hcalm hcalm' rfl rfl rfl rfl ⟨_, _, cells_modifyCell hc _,
        cells_modifyCell hc' _, hsame.live, hsame.watched, ?_, hsame.nextObserver⟩ h.ids h.news
      have hattendance := hsame.attendance
      have hfilter : ∀ k : Cell, Cell.attendance { k with
          observers := k.observers.filter (·.1 != id) } = k.attendance.filter (·.1 != id) := by
        intro k
        simp only [Cell.attendance, List.filter_map]
        rfl
      rw [hfilter, hfilter, hattendance]

/-- An action on the binding itself has the same effect in both worlds. -/
theorem perform_own (h : Alike name c (fun _ => 0) (fun _ => 0) w w') (depth : Nat) (hx : x.Plain)
    (hb : x.binding? = some name) :
    Alike name c (fun _ => 0) (fun _ => 0) (w.perform (dispatch (depth + 2)) x).2
      (w'.perform (dispatch (depth + 2)) x).2 := by
  obtain ⟨cell, cell', hc, hc', hsame⟩ := h.cell
  cases hx with
  | set | touch => cases hb
  | bind _ v =>
      cases hb
      rw [perform_bind h.found hc, perform_bind h.found' hc']
      exact h.ask depth (.bind v)
  | unbind _ =>
      cases hb
      rw [perform_unbind h.found hc, perform_unbind h.found' hc']
      exact h.ask depth .unbind
  | observe _ observer =>
      cases hb
      rw [perform_observe h.found hc, perform_observe h.found' hc']
      exact h.observe hc hc' hsame observer
  | unobserve _ observer =>
      cases hb
      rw [perform_unobserve h.found hc, perform_unobserve h.found' hc']
      exact h.unobserve hc hc' hsame observer

theorem touch (h : Alike name c (fun _ => 0) (fun _ => 0) w w') (depth object : Nat) :
    Alike name c (fun _ => 0) (fun _ => 0) (w.perform (dispatch (depth + 3)) (.touch object)).2
      (w'.perform (dispatch (depth + 3)) (.touch object)).2 := by
  simp only [perform, performOnObject, onObject]
  obtain ⟨ho, ho'⟩ | ⟨o, o', ho, ho', heq⟩ := h.heap.lookup object
  · simp only [ho, ho']
    exact h
  · have hkind : o'.kind = o.kind := congrArg (·.kind) heq
    simp only [ho, ho', hkind]
    split
    · exact h.announce depth object none
    · exact h

/-- What is done in both worlds, whether or not to the binding, has it remain the same. -/
theorem perform (h : Alike name c (fun _ => 0) (fun _ => 0) w w') (depth : Nat) (hx : x.Plain) :
    Alike name c (fun _ => 0) (fun _ => 0) (w.perform (dispatch (depth + 3)) x).2
      (w'.perform (dispatch (depth + 3)) x).2 := by
  cases hb : x.binding? with
  | none =>
      cases hx with
      | set object member v => exact h.writeMember depth object member v
      | touch object => exact h.touch depth object
      | bind | unbind | observe | unobserve => cases hb
  | some other =>
      by_cases hother : other = name
      · subst other
        exact h.perform_own (depth + 1) hx hb
      · have hleft := h.left.other_unnoticed h.found (depth + 1) hx hb hother
        have hright := h.right.other_unnoticed h.found' (depth + 1) hx hb hother
        exact (h.unnoticed hleft).unnoticed_right hright

end Alike

/-! ## Runs -/

/-- Actions one after the other, and all that is recorded meanwhile. -/
def play : List Action → World → List Event × World
  | [], w => ([], w)
  | x :: rest, w =>
    let w := (w.step x).2
    let (es, w') := play rest w
    (w.events ++ es, w')

theorem newsOf_play_cons (name : String) (x : Action) (xs : List Action) (w : World) :
    newsOf name (w.play (x :: xs)).1 =
      newsOf name (w.step x).2.events ++ newsOf name ((w.step x).2.play xs).1 :=
  newsOf_append name _ _

/-- Actions on another binding are done in the first world only. -/
theorem Alike.play (h : Alike name c (fun _ => 0) (fun _ => 0) w.clearReports w'.clearReports)
    (hne : other ≠ name) {xs : List Action} (hxs : ∀ x ∈ xs, x.Plain) :
    let t := w.play xs
    let t' := w'.play (xs.filter (·.binding? != some other))
    Alike name c (fun _ => 0) (fun _ => 0) t.2.clearReports t'.2.clearReports ∧
      newsOf name t'.1 = newsOf name t.1 := by
  -- the second world stands still where the first is dealing with the other binding
  induction xs generalizing w w' with
  | nil => exact ⟨h, rfl⟩
  | cons x xs ih =>
      have hx := hxs x List.mem_cons_self
      have hrest := fun y hy => hxs y (List.mem_cons_of_mem x hy)
      by_cases hb : x.binding? = some other
      · have hstep := h.left.other_unnoticed h.found (callDepth - 2) hx hb hne
        have hnext : Alike name c (fun _ => 0) (fun _ => 0) (w.step x).2.clearReports w'.clearReports :=
          (h.unnoticed hstep).clearReports
        have hnone : newsOf name (w.step x).2.events = [] := hstep.news
        obtain ⟨halike, hnews⟩ := ih hnext hrest
        rw [List.filter_cons_of_neg (by simpa using hb)]
        refine ⟨halike, ?_⟩
        rw [newsOf_play_cons, hnone, List.nil_append]
        exact hnews
      · have hstep : Alike name c (fun _ => 0) (fun _ => 0) (w.step x).2 (w'.step x).2 :=
          h.perform (callDepth - 3) hx
        obtain ⟨halike, hnews⟩ := ih hstep.clearReports hrest
        rw [List.filter_cons_of_pos (by simpa using hb)]
        refine ⟨halike, ?_⟩
        rw [newsOf_play_cons, newsOf_play_cons, hstep.news, hnews]

theorem Calm.alike (hw : w.Calm) (hname : w.bindingCell? name = some c) :
    Alike name c (fun _ => 0) (fun _ => 0) w w where
  left := hw
  right := hw
  found := hname
  found' := hname
  cell :=
    have hc := Array.getElem?_eq_getElem (hw.orderly.names name c hname)
    ⟨_, _, hc, hc, ⟨_, rfl⟩, fun _ => rfl, rfl, rfl⟩
  heap := .refl w
  hooks _ := rfl
  since _ := Nat.zero_le _
  since' _ := Nat.zero_le _
  ids _ := rfl
  news := rfl

/-- Make bindings over objects and run whatever is allowed, observers and handlers only recording; then
bind, unbind and observe the bindings in any order, setting and announcing what is between. One binding
has the same results, has its nodes follow the same objects and tells its observers the same changes
in the same order when all that is done to another one is left out. -/
theorem bindings_independent {start : World} (hstart : start.Pristine .unbounded)
    (hrun : Runs .unbounded start w) (hcomplete : w.exhausted = false) (hsilent : w.Silent)
    (hname : w.bindingCell? name = some c) (hne : other ≠ name) {xs : List Action}
    (hxs : ∀ x ∈ xs, x.Plain) :
    let t := w.play xs
    let t' := w.play (xs.filter (·.binding? != some other))
    ∃ cell cell', t.2.cells[c]? = some cell ∧ t'.2.cells[c]? = some cell' ∧
      cell'.live.ledger = cell.live.ledger ∧
      (∀ node, (cell'.live.watchAt node).map (·.object) = (cell.live.watchAt node).map (·.object)) ∧
      cell'.live.root = cell.live.root ∧ newsOf name t'.1 = newsOf name t.1 := by
  have hruns : Runs Subject.bystander.scope start w := hrun
  have hcalm : w.Calm := ⟨(hruns.maintains hstart.orderly).1, hsilent,
    rested_of_rests hcomplete (hruns.rests hstart.orderly hstart.cells)⟩
  obtain ⟨halike, hnews⟩ := (hcalm.alike hname).clearReports.play hne hxs
  obtain ⟨cell, cell', hc, hc', hsame⟩ := halike.cell
  obtain ⟨watches, hlive⟩ := hsame.live
  exact ⟨cell, cell', hc, hc', by rw [hlive], hsame.watched, by rw [hlive], hnews⟩

/-- Two bindings of one prototype. -/
def twoBossAges : World :=
  let w := staff.cloneBinding (dispatch callDepth) .bossAge "a" .live
  w.cloneBinding (dispatch callDepth) .bossAge "b" .live

/-- Both bindings are bound to one person, so that both follow the age of one boss. -/
def sharedYears : List Action :=
  [.bind "a" (.fixed employee), .observe "b" "o" [] 0 none, .bind "b" (.fixed employee),
    .observe "a" "p" [] 0 none, .set 1 "age" (.fixed (.i32 41)), .unbind "a",
    .set 1 "age" (.fixed (.i32 42)), .touch 1]

theorem bindings_independent_sharedYears :
    let t := twoBossAges.play sharedYears
    let t' := twoBossAges.play (sharedYears.filter (·.binding? != some "a"))
    (∃ cell cell', t.2.cells[1]? = some cell ∧ t'.2.cells[1]? = some cell' ∧
      cell'.live.ledger = cell.live.ledger ∧
      (∀ node, (cell'.live.watchAt node).map (·.object) = (cell.live.watchAt node).map (·.object)) ∧
      cell'.live.root = cell.live.root ∧ newsOf "b" t'.1 = newsOf "b" t.1) ∧
      (newsOf "b" t.1).length = 3 := by
  have hstart : staff.Pristine .unbounded :=
    { staff_pristine with holds := fun _ _ _ _ _ _ => trivial }
  have hruns : Runs .unbounded staff twoBossAges :=
    .clone callDepth .live (.clone callDepth .live (.refl _) Lambda.compile_bossAge rfl)
      Lambda.compile_bossAge (by decide +kernel)
  have hsilent : twoBossAges.Silent := by
    have hnone : twoBossAges.reactions.size = 0 := by decide +kernel
    intro r reaction hr
    rw [Array.getElem?_eq_none (by omega)] at hr
    cases hr
  have hplain : ∀ x ∈ sharedYears, x.Plain := by
    simp only [sharedYears, List.forall_mem_cons]
    exact ⟨.bind _ _, .observe _ _, .bind _ _, .observe _ _, .set _ _ _, .unbind _, .set _ _ _,
      .touch _, nofun⟩
  exact ⟨bindings_independent hstart hruns (by decide +kernel) hsilent (by decide +kernel) (by decide) hplain,
    by decide +kernel⟩

end LiveExpr.World
