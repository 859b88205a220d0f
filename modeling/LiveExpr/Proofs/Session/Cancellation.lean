import LiveExpr.Proofs.Live.Cancellation
import LiveExpr.Proofs.Live.Soundness
import LiveExpr.Proofs.Session.Course

/-!
Unbinding cancels a binding for good. A graph always holds whatever is registered for it, so that
nothing reaches it once it has released what it holds; and since it is withdrawn then, the requests
that it is still given, but those to bind it, leave it as it is.
-/

namespace LiveExpr

variable {c : Nat} {p : Prototype} {w w' : World} {d : Dispatcher}

/-! ## What is registered is held -/

namespace Live

/-- Every handler that is registered for cell `c` is held by its node. -/
def Covers (c : Nat) (l : Live) (w : World) : Prop :=
  ∀ id key node member, (key, .sink c node member) ∈ (w.notifier id).handlers →
    l.watchAt node = some ⟨id, key⟩

variable {l l' : Live} {id : Nat}

theorem Covers.mono (hl : l.Covers c w)
    (hw : ∀ id key node member, (key, .sink c node member) ∈ (w'.notifier id).handlers →
      (key, .sink c node member) ∈ (w.notifier id).handlers) : l.Covers c w' :=
  fun id key node member hmem => hl id key node member (hw id key node member hmem)

theorem Covers.of_watches (hl : l.Covers c w) (hw : l'.watches = l.watches) : l'.Covers c w := by
  intro id key node member hmem
  rw [watchAt, hw]
  exact hl id key node member hmem

theorem Covers.left (hl : l.Covers c w) :
    (l.setWatch id none).Covers c ((l.watchAt id).elim w (World.unwatch · w)) := by
  intro object key node member hmem
  have hkept : (key, .sink c node member) ∈ (w.notifier object).handlers ∧
      l.watchAt id ≠ some ⟨object, key⟩ := by
    cases hw : l.watchAt id with
    | none =>
        rw [hw] at hmem
        exact ⟨hmem, nofun⟩
    | some watch =>
        rw [hw, Option.elim_some, World.mem_unwatch] at hmem
        refine ⟨hmem.1, ?_⟩
        rintro ⟨⟩
        exact hmem.2 ⟨rfl, rfl⟩
  have hheld := hl object key node member hkept.1
  rw [watchAt_setWatch, if_neg, hheld]
  rintro ⟨rfl, -⟩
  exact hkept.2 hheld

theorem Covers.joined (hl : l.Covers c w) (hid : id < l.watches.size) (hfree : l.watchAt id = none)
    (object : Nat) (member : String) :
    let t := w.subscribe object (.sink c id member)
    (l.setWatch id (t.1.map (⟨object, ·⟩))).Covers c t.2 := by
  intro t object' key node member' hmem
  rw [watchAt_setWatch]
  have hold : (key, .sink c node member') ∈ (w.notifier object').handlers →
      node ≠ id ∧ l.watchAt node = some ⟨object', key⟩ := by
    intro hmem
    have hheld := hl object' key node member' hmem
    refine ⟨?_, hheld⟩
    rintro rfl
    rw [hfree] at hheld
    cases hheld
  cases hcapable : w.capable object with
  | false =>
      have ht : t = (none, w) := World.subscribe_of_not_capable hcapable _
      rw [ht] at hmem
      obtain ⟨hne, hheld⟩ := hold hmem
      rw [if_neg fun h => hne h.1, hheld]
  | true =>
      have hkey : t.1 = some (w.notifier object).nextKey := by
        rw [show t = _ from World.subscribe_of_capable hcapable _]
      rcases (World.mem_subscribe hcapable).mp hmem with hmem | ⟨rfl, heq⟩
      · obtain ⟨hne, hheld⟩ := hold hmem
        rw [if_neg fun h => hne h.1, hheld]
      · cases heq
        rw [if_pos ⟨rfl, hid⟩, hkey, Option.map_some]

theorem Rewatched.covers (hr : Rewatched (World.cellHost d c) id l w l' w') (hl : l.Covers c w)
    (hcopy : CopyOf p l) : l'.Covers c w' := by
  cases hr with
  | unobserved | kept => exact hl
  | left => exact hl.left
  | @moved member r key _ hm _ _ hw =>
      have hid : id < l.watches.size := hcopy.watches ▸ lt_size_of_observed hm
      have hfree : (l.setWatch id none).watchAt id = none := by
        rw [watchAt_setWatch, if_pos ⟨rfl, hid⟩]
      have hsize : id < (l.setWatch id none).watches.size := by
        rwa [setWatch, Array.size_setIfInBounds]
      have hjoined := hl.left.joined hsize hfree r.id member
      have heq : ((l.watchAt id).elim w (World.unwatch · w)).subscribe r.id (.sink c id member) =
          (key, w') := hw
      simp only [heq, setWatch_setWatch] at hjoined
      exact hjoined

/-- What is held has been released, and nothing else was registered. -/
theorem Covers.release (hl : l.Covers c w) (id key node : Nat) (member : String) :
    (key, .sink c node member) ∉ ((w.release l.watches.toList).notifier id).handlers := by
  rw [World.mem_release]
  rintro ⟨hmem, hkept⟩
  exact hkept (mem_watches (hl id key node member hmem))

theorem takePending_of_nil (hl : l.pending = []) : l.takePending.2 = l := by
  rw [takePending, ← hl]

/-- Every request but binding leaves a withdrawn graph as it is. -/
theorem Withdrawn.run_eq_self {e : Lambda} (he : e.Inferred) (hp : e.compile = .ok p) {σ : Type}
    (hl : l.Withdrawn) (hcopy : CopyOf p l) {t : Task} (ht : t.binds = false) (h : Host σ) (s : σ) :
    (t.run h l s).1 = l := by
  cases t with
  | bind v => cases ht
  | unbind => exact hl.unbind_eq_self he hp hcopy h s
  | memberChanged node => exact congrArg Prod.fst (memberChanged_unbound h node hl.bound s)

end Live

namespace World

/-! ## In the middle of a request -/

theorem bury_own {cell : Cell} (hcell : w.cells[c]? = some cell) (d : Dispatcher) :
    (w.bury d c = w) ∨ w.bury d c =
      (w.release cell.live.watches.toList).modifyCell c ({ · with live := cell.live.unwatched }) := by
  unfold bury
  rw [hcell]
  simp only [cellHost, Live.releaseWatches_eq]
  split
  · exact .inr rfl
  · exact .inl rfl

theorem cells_subscribe (id : Nat) (handler : Handler) (w : World) :
    (w.subscribe id handler).2.cells = w.cells := by
  unfold subscribe
  split <;> rfl

theorem cells_release {watches : List (Option Watch)} : (w.release watches).cells = w.cells := by
  obtain ⟨-, hrest, -⟩ := @release_keeps watches w
  rw [hrest]

/-- A cell that is busy answers nothing else. -/
theorem Course.of_busy {may : Task → Prop} {cell : Cell} (h : Course c may w w')
    (hcell : w.cells[c]? = some cell) (hbusy : cell.busy = true) :
    (∃ cell' : Cell, w'.cells[c]? = some cell' ∧ cell'.busy = true ∧
        cell'.reported = cell.reported) ∧
      ∀ id key node member, (key, .sink c node member) ∈ (w'.notifier id).handlers →
        (key, .sink c node member) ∈ (w.notifier id).handlers := by
  induction h with
  | refl => exact ⟨⟨cell, hcell, hbusy, rfl⟩, fun _ _ _ _ hmem => hmem⟩
  | bypass _ hstep ih =>
      obtain ⟨⟨cell₁, hcell₁, hbusy₁, hreported₁⟩, hsub⟩ := ih
      obtain ⟨cell', hcell', -, hbusy', hreported'⟩ := hstep.cell cell₁ hcell₁
      exact ⟨⟨cell', hcell', hbusy'.trans hbusy₁, hreported'.trans hreported₁⟩,
        fun id key node member hmem => hsub id key node member (hstep.handlers id key node member hmem)⟩
  | answer _ _ _ hcell₂ hidle ih =>
      obtain ⟨⟨cell₁, hcell₁, hbusy₁, -⟩, -⟩ := ih
      cases hcell₁.symm.trans hcell₂
      rw [hbusy₁] at hidle
      cases hidle
  | @bury u d _ ih =>
      obtain ⟨⟨cell₁, hcell₁, hbusy₁, hreported₁⟩, hsub⟩ := ih
      rcases bury_own hcell₁ d with heq | heq
      · rw [heq]
        exact ⟨⟨cell₁, hcell₁, hbusy₁, hreported₁⟩, hsub⟩
      · rw [heq]
        refine ⟨⟨_, cells_modifyCell (by rwa [cells_release]) _, hbusy₁, hreported₁⟩,
          fun id key node member hmem => hsub id key node member ?_⟩
        exact (mem_release.mp hmem).1

/-- In the middle of a request to its graph: the cell is busy and has nothing more to report yet, and
the graph holds what is registered. -/
structure Engages (c : Nat) (p : Prototype) (reported : List ResultChange) (l : Live) (w : World) :
    Prop where
  copy : Live.CopyOf p l
  covers : l.Covers c w
  cell : ∃ cell : Cell, w.cells[c]? = some cell ∧ cell.busy = true ∧ cell.reported = reported

namespace Engages

variable {reported : List ResultChange} {l l' : Live} {id : Nat}

theorem course {may : Task → Prop} (hw : Engages c p reported l w) (h : Course c may w w') :
    Engages c p reported l w' := by
  obtain ⟨cell, hcell, hbusy, hreported⟩ := hw.cell
  obtain ⟨⟨cell', hcell', hbusy', hreported'⟩, hsub⟩ := h.of_busy hcell hbusy
  exact ⟨hw.copy, hw.covers.mono hsub, cell', hcell', hbusy', hreported'.trans hreported⟩

theorem note (hw : Engages c p reported l w) (n : Notice) : Engages c p reported l (w.note n) :=
  ⟨hw.copy, hw.covers, hw.cell⟩

theorem of_watches (hw : Engages c p reported l w) (hl : Live.CopyOf p l')
    (hwatches : l'.watches = l.watches) : Engages c p reported l' w :=
  ⟨hl, hw.covers.of_watches hwatches, hw.cell⟩

theorem access (hd : Guides c d) (hw : Engages c p reported l w) (member : String) (v : Value) :
    Engages c p reported l (w.access d member v).2 := by
  obtain ⟨cell, hcell, -⟩ := hw.cell
  exact hw.course (access_passes (x := False) hd (Array.getElem?_eq_some_iff.mp hcell).1 member v).course

theorem rewatched (hw : Engages c p reported l w)
    (hr : Live.Rewatched (cellHost d c) id l w l' w') : Engages c p reported l' w' := by
  refine ⟨hw.copy.ofFrame hr.frame, hr.covers hw.covers hw.copy, ?_⟩
  obtain ⟨cell, hcell, hstate⟩ := hw.cell
  refine ⟨cell, ?_, hstate⟩
  have hleft : ((l.watchAt id).elim w (unwatch · w)).cells = w.cells := by
    cases l.watchAt id <;> rfl
  cases hr with
  | unobserved | kept => exact hcell
  | left => exact hleft ▸ hcell
  | @moved member r _ _ _ _ _ hwatch =>
      have hjoined := cells_subscribe r.id (.sink c id member)
        ((l.watchAt id).elim w (unwatch · w))
      rw [← hcell, ← hleft, ← hjoined]
      exact congrArg (fun t : Option Nat × World => t.2.cells[c]?) hwatch.symm

theorem recomputed (hd : Guides c d) (hw : Engages c p reported l w) {changed : Bool}
    (hr : Live.Recomputed (cellHost d c) id l w changed l' w') : Engages c p reported l' w' := by
  cases hr with
  | @mk l₁ _ w₁ _ _ _ _ hrewatched hevaluate haccepted =>
      have hread := Live.evaluate_preserves (h := cellHost d c) (P := Engages c p reported l₁)
        (fun member v hw => hw.access hd member v) l₁ id (hw.rewatched hrewatched)
      rw [hevaluate] at hread
      cases haccepted with
      | same => exact hread.note _
      | new => exact (hread.of_watches (hread.copy.ofFrame (.setResult _ _ _)) rfl).note _

theorem propagate (hd : Guides c d) (hw : Engages c p reported l w) (dirty : List Nat) :
    Engages c p reported (l.propagate (cellHost d c) dirty w).1 (l.propagate (cellHost d c) dirty w).2 :=
  (Live.propagate_visits (Engages c p reported) (fun _ _ _ => True)
    (fun hw hr => ⟨hw.recomputed hd hr, trivial⟩) (fun _ _ _ _ => trivial) dirty hw).1

theorem withParameter (hw : Engages c p reported l w) (b : Bool) (r : Result) :
    Engages c p reported (l.withParameter b r) w :=
  hw.of_watches (Live.copyOf_withParameter hw.copy b r) rfl

theorem settleRoot (hw : Engages c p reported l w) (target : Result) :
    Engages c p reported (l.settleRoot target) w := by
  have hlast := Live.settleRoot_sameLedger l target
  exact hw.of_watches (hlast.copyOf hw.copy) hlast.watches

theorem released (hw : Engages c p reported l w) :
    Engages c p reported l.unwatched (w.release l.watches.toList) := by
  obtain ⟨cell, hcell, hstate⟩ := hw.cell
  exact ⟨Live.copyOf_unwatched hw.copy,
    fun id key node member hmem => absurd hmem (hw.covers.release id key node member),
    cell, by rwa [cells_release], hstate⟩

/-- The graph holds what is registered after any request, too. -/
theorem run (hd : Guides c d) (hw : Engages c p reported l w) (t : Task) :
    Engages c p reported (t.run (cellHost d c) l w).1 (t.run (cellHost d c) l w).2 := by
  cases t with
  | bind v => exact (((hw.note _).withParameter true (some v)).propagate hd _).settleRoot _
  | unbind =>
      have hnoted : Engages c p reported l
          (if l.bound then w.note (.unbinding l.watchCount) else w) := by
        split
        · exact hw.note _
        · exact hw
      exact ((hnoted.released.withParameter false none).propagate hd _).settleRoot none
  | memberChanged node =>
      rw [Task.run]
      cases hb : l.bound with
      | false =>
          rw [Live.memberChanged_unbound _ node hb]
          exact hw
      | true =>
          rw [Live.memberChanged_eq _ node hb]
          exact (hw.propagate hd [node]).settleRoot _

end Engages

/-! ## Between requests -/

/-- Between requests to it, the graph of the cell is a copy of the prototype with nothing pending, and
holds what is registered. -/
structure Idles (c : Nat) (p : Prototype) (cell : Cell) (w : World) : Prop where
  present : w.cells[c]? = some cell
  busy : cell.busy = false
  copy : Live.CopyOf p cell.live
  pending : cell.live.pending = []
  covers : cell.live.Covers c w

namespace Idles

variable {cell : Cell}

theorem bypass (hw : Idles c p cell w) (h : Bypasses c w w') :
    ∃ cell', Idles c p cell' w' ∧ cell'.live = cell.live ∧ cell'.reported = cell.reported := by
  obtain ⟨cell', hcell', hlive, hbusy, hreported⟩ := h.cell cell hw.present
  refine ⟨cell', ⟨hcell', hbusy.trans hw.busy, ?_, ?_, ?_⟩, hlive, hreported⟩
  · rw [hlive]
    exact hw.copy
  · rw [hlive]
    exact hw.pending
  · rw [hlive]
    exact hw.covers.mono h.handlers

/-- A dead cell lets go of what it follows. -/
theorem bury (hw : Idles c p cell w) (d : Dispatcher) :
    ∃ cell', Idles c p cell' (w.bury d c) ∧
      (cell'.live = cell.live ∨ cell'.live = cell.live.unwatched) ∧
      cell'.reported = cell.reported := by
  rcases bury_own hw.present d with heq | heq
  · rw [heq]
    exact ⟨cell, hw, .inl rfl, rfl⟩
  · rw [heq]
    have hkept : (w.release cell.live.watches.toList).cells[c]? = some cell := by
      rw [cells_release, hw.present]
    exact ⟨_, ⟨cells_modifyCell hkept _, hw.busy, Live.copyOf_unwatched hw.copy, hw.pending,
      fun id key node member hmem => absurd hmem (hw.covers.release id key node member)⟩, .inr rfl, rfl⟩

theorem answer (hw : Idles c p cell w) (hd : Guides c d) (t : Task) :
    let l := (t.run (cellHost d c) cell.live (w.engaged c)).1
    ∃ cell', Idles c p cell' (w.propagating c (t.run (cellHost d c)) cell.live) ∧
      cell'.live = l.takePending.2 ∧ cell'.reported = cell.reported ++ l.pending := by
  have hstart : Engages c p cell.reported cell.live (w.engaged c) :=
    ⟨hw.copy, hw.covers, _, cells_modifyCell hw.present _, rfl, rfl⟩
  have hend := hstart.run hd t
  rw [propagating_eq]
  generalize t.run (cellHost d c) cell.live (w.engaged c) = r at hend
  obtain ⟨cell₁, hcell₁, -, hreported⟩ := hend.cell
  have hcopy := hend.copy
  refine ⟨_, ⟨cells_modifyCell hcell₁ _, rfl,
    ⟨hcopy.nodes, hcopy.parameter, hcopy.body, hcopy.watches⟩, rfl, hend.covers⟩, rfl, ?_⟩
  exact congrArg (· ++ r.1.pending) hreported

theorem course {may : Task → Prop} (hw : Idles c p cell w) (h : Course c may w w') :
    ∃ cell', Idles c p cell' w' := by
  induction h with
  | refl => exact ⟨cell, hw⟩
  | bypass _ hstep ih =>
      obtain ⟨cell₁, hw₁⟩ := ih
      obtain ⟨cell', hw', -⟩ := hw₁.bypass hstep
      exact ⟨cell', hw'⟩
  | answer depth _ _ hcell _ ih =>
      obtain ⟨cell₁, hw₁⟩ := ih
      cases hw₁.present.symm.trans hcell
      obtain ⟨cell', hw', -⟩ := hw₁.answer (dispatch_guides c depth) _
      exact ⟨cell', hw'⟩
  | bury d _ ih =>
      obtain ⟨cell₁, hw₁⟩ := ih
      obtain ⟨cell', hw', -⟩ := hw₁.bury d
      exact ⟨cell', hw'⟩

end Idles

/-! ## Cancellation -/

/-- The cell has this graph and has reported these changes, and no object has a handler for it. -/
structure Severed (c : Nat) (l : Live) (reported : List ResultChange) (w : World) : Prop where
  cell : ∃ cell : Cell, w.cells[c]? = some cell ∧ cell.live = l ∧ cell.reported = reported
  handlers : ∀ id key node member, (key, .sink c node member) ∉ (w.notifier id).handlers

/-- However the run goes on, the cell stays severed as long as its graph is not bound. -/
def Silenced (c : Nat) (l : Live) (reported : List ResultChange) (w : World) : Prop :=
  ∀ w', Course c (·.binds = false) w w' → w'.Severed c l reported

section

variable {l : Live} {reported : List ResultChange} {x : Prop}

theorem Silenced.course (hw : w.Silenced c l reported) (h : Course c (·.binds = false) w w') :
    w'.Silenced c l reported :=
  fun u h' => hw u (h.trans h')

theorem Silenced.passes (hw : w.Silenced c l reported) (h : Passes c x w w') (hx : ¬ x) :
    w'.Silenced c l reported ∨ Rebound c w w' :=
  (h.bindless hx).imp_left hw.course

end

section

variable {e : Lambda} (he : e.Inferred) (hp : e.compile = .ok p)

include he hp

theorem Idles.course_of_withdrawn {cell : Cell} (hw : Idles c p cell w) (hl : cell.live.Withdrawn)
    (h : Course c (·.binds = false) w w') :
    ∃ cell', Idles c p cell' w' ∧ cell'.live = cell.live ∧ cell'.reported = cell.reported := by
  induction h with
  | refl => exact ⟨cell, hw, rfl, rfl⟩
  | bypass _ hstep ih =>
      obtain ⟨cell₁, hw₁, hlive₁, hreported₁⟩ := ih
      obtain ⟨cell', hw', hlive, hreported⟩ := hw₁.bypass hstep
      exact ⟨cell', hw', hlive.trans hlive₁, hreported.trans hreported₁⟩
  | @answer u _ depth t _ hmay hcell _ ih =>
      obtain ⟨cell₁, hw₁, hlive₁, hreported₁⟩ := ih
      cases hw₁.present.symm.trans hcell
      obtain ⟨cell', hw', hlive, hreported⟩ := hw₁.answer (dispatch_guides c depth) t
      have hsame := (hlive₁ ▸ hl).run_eq_self he hp hw₁.copy hmay
        (cellHost (dispatch depth) c) (u.engaged c)
      rw [hsame] at hlive hreported
      refine ⟨cell', hw', ?_, ?_⟩
      · rw [hlive, Live.takePending_of_nil hw₁.pending, hlive₁]
      · rw [hreported, hw₁.pending, List.append_nil, hreported₁]
  | bury d _ ih =>
      obtain ⟨cell₁, hw₁, hlive₁, hreported₁⟩ := ih
      obtain ⟨cell', hw', hlive, hreported⟩ := hw₁.bury d
      refine ⟨cell', hw', ?_, hreported.trans hreported₁⟩
      rcases hlive with hlive | hlive
      · rw [hlive, hlive₁]
      · rw [hlive, hlive₁, hl.unwatched]

theorem Idles.silenced {cell : Cell} (hw : Idles c p cell w) (hl : cell.live.Withdrawn) :
    w.Silenced c cell.live cell.reported := by
  intro u h
  obtain ⟨cell', hw', hlive, hreported⟩ := hw.course_of_withdrawn he hp hl h
  refine ⟨⟨cell', hw'.present, hlive, hreported⟩, fun id key node member hmem => ?_⟩
  have hheld := hw'.covers id key node member hmem
  rw [hlive, hl.watchAt] at hheld
  cases hheld

end

theorem Idles.answered {cell : Cell} (hw : Idles c p cell w) (hd : Guides c d) (t : Task) :
    let l := (t.run (cellHost d c) cell.live ((w.activated c).engaged c)).1
    ∃ cell', Idles c p cell' (w.answered d c t cell) ∧ cell'.live = l.takePending.2 ∧
      cell'.reported = cell.reported ++ l.pending := by
  have hstart : Idles c p { cell with activations := cell.activations + 1 } (w.activated c) :=
    ⟨cells_modifyCell hw.present _, hw.busy, hw.copy, hw.pending, hw.covers⟩
  exact hstart.answer hd t

/-- A copy of a prototype that nothing has been done with. -/
structure Opened (c : Nat) (p : Prototype) (w : World) : Prop where
  cell : ∃ mode d u,
    w.cells[c]? = some (.ofLive (Live.adopt (World.host d fun _ _ => .deaf) p mode u).1)
  handlers : ∀ id key node member, (key, .sink c node member) ∉ (w.notifier id).handlers

theorem Opened.idles {e : Lambda} (hp : e.compile = .ok p) (hw : w.Opened c p) :
    ∃ cell, Idles c p cell w := by
  obtain ⟨mode, d, u, hcell⟩ := hw.cell
  have hfresh := Live.adopt_fresh hp (World.host d fun _ _ => .deaf) mode u
  exact ⟨_, hcell, rfl, hfresh.toCopyOf, hfresh.pending,
    fun id key node member hmem => absurd hmem (hw.handlers id key node member)⟩

/-- Whatever has become of a binding, it can be cancelled at any moment of a run, also in the middle of
a notification or of telling observers, but not while its own graph is propagating: the request is
turned down then. When the graph has answered, there is no result and nothing is bound or followed,
which has been reported as one change if there was a result, and unbinding once more would change
nothing at all about the graph. From there on the binding stays as it is, whatever is called or done,
until it is bound again, be it by a script that is started meanwhile. -/
theorem Opened.unbind_cancels {e : Lambda} (he : e.Inferred) (hp : e.compile = .ok p) {w₀ : World}
    (hstart : w₀.Opened c p) (hrun : Course c (fun _ => True) w₀ w) (depth : Nat) :
    let d := dispatch depth
    (∀ (v : World) (cell : Cell), v.cells[c]? = some cell → cell.busy = true →
      v.unbindCell d c = v.note (.ignored .unbind)) ∧
    ∃ cell l, w.cells[c]? = some cell ∧
      (l.root = none ∧ l.bound = false ∧ l.pending = [] ∧ ∀ node, l.watchAt node = none) ∧
      (∀ (σ : Type) (h : Host σ) (s : σ), (l.unbind h s).1 = l) ∧
      let reported := cell.reported ++ if cell.live.root.isSome then [⟨cell.live.root, none⟩] else []
      let u := w.answered d c .unbind cell
      u.Silenced c l reported ∧
      ((w.unbindCell d c).Silenced c l reported ∨ Rebound c u (w.unbindCell d c)) ∧
      ∀ v : World, v.Silenced c l reported → ∀ depth',
        (∀ call, (dispatch depth' call v).Silenced c l reported ∨
          Rebound c v (dispatch depth' call v)) ∧
        ∀ a : Action, ¬ a.Rebinds c v →
          (v.perform (dispatch depth') a).2.Silenced c l reported ∨
            Rebound c v (v.perform (dispatch depth') a).2 := by
  intro d
  refine ⟨fun v cell hcell hbusy => ?_, ?_⟩
  · rw [unbindCell, request, hcell]
    simp only [hbusy, if_true]
  · obtain ⟨cell₀, hw₀⟩ := hstart.idles hp
    obtain ⟨cell, hw⟩ := hw₀.course hrun
    have hguides := dispatch_guides c depth
    obtain ⟨cell', hanswered, hlive, hreported⟩ := hw.answered hguides .unbind
    obtain ⟨hwithdrawn, hpending⟩ := Live.unbind_withdrawn hp hw.copy (cellHost d c)
      ((w.activated c).engaged c)
    have hdone : cell'.live.Withdrawn := hlive ▸ hwithdrawn.takePending
    have hsilenced := hanswered.silenced he hp hdone
    have hchange := hreported.trans (congrArg (cell.reported ++ ·) hpending)
    rw [hw.pending, List.nil_append] at hchange
    rw [hchange] at hsilenced
    refine ⟨cell, cell'.live, hw.present,
      ⟨hdone.root, hdone.bound, hanswered.pending, hdone.watchAt⟩,
      fun σ h s => hdone.unbind_eq_self he hp hanswered.copy h s, hsilenced, ?_, fun v hv depth' => ?_⟩
    · have hlt := (Array.getElem?_eq_some_iff.mp hw.present).1
      have htold := told_passes (x := False) hguides hlt hw.present hw.busy .unbind .unbind
      exact hsilenced.passes htold not_false
    · obtain ⟨cell₁, hcell₁, -⟩ := (hv v .refl).cell
      have hlt := (Array.getElem?_eq_some_iff.mp hcell₁).1
      have hguides' := dispatch_guides c depth'
      exact ⟨fun call => hv.passes (hguides'.call call hlt) not_false,
        fun a ha => hv.passes (perform_passes hguides' hlt a) ha⟩

/-! ## The boss's age -/

def unbound : World :=
  staff.cloneBinding (dispatch callDepth) .bossAge "b" .live

/-- The boss has turned 41 and is announcing it. A handler that unbinds has been registered before the
binding's own, and its script has just been started. -/
def announcing : World :=
  let w := (unbound.step (.subscribe 1 "r" [.unbind "b"] 1)).2
  let w := (w.step (.bind "b" (.fixed employee))).2
  let w := (w.modifyObject 1 (·.write "age" (.i32 41))).modifyObject 1 (·.announced (some "age"))
  { w with reactions := w.reactions.modify 0 fun r => { r with started := r.started + 1 } }

theorem unbound_opened : unbound.Opened 0 .bossAge := by
  unfold unbound
  rw [cloneBinding_eq staff_quiet rfl]
  refine ⟨⟨.live, dispatch callDepth, staff, rfl⟩, fun id key node member hmem => ?_⟩
  rcases id with _ | _ | id <;> cases hmem

theorem announcing_course : Course 0 (fun _ => True) unbound announcing := by
  have hc : 0 < unbound.cells.size := by
    obtain ⟨⟨mode, d, u, hcell⟩, -⟩ := unbound_opened
    exact (Array.getElem?_eq_some_iff.mp hcell).1
  have hsubscribed := step_passes hc (.subscribe 1 "r" [.unbind "b"] 1)
  have hbound := step_passes (hsubscribed.lt_size hc) (.bind "b" (.fixed employee))
  have hwritten := Bypasses.modifyObject (c := 0)
    ((unbound.step (.subscribe 1 "r" [.unbind "b"] 1)).2.step (.bind "b" (.fixed employee))).2 1
    (f := (·.write "age" (.i32 41))) fun _ => rfl
  have hwaiting := hwritten.lt_size (hbound.lt_size (hsubscribed.lt_size hc))
  have htold := tell_passes (x := True) (dispatch_guides 0 callDepth) hwaiting 1 (some "age") []
  exact (((hsubscribed.course.trans hbound.course).bypass hwritten).trans htold.course).bypass
    (.started _ 0)

theorem not_rebound (h : (w'.reactions.all fun r => r.script.all fun
    | .bind .. => false
    | _ => true) = true) : ¬ Rebound c w w' := by
  rintro ⟨r, reaction, hr, -, a, ha, hbinds⟩
  rw [Array.all_eq_true'] at h
  have hall := List.all_eq_true.mp (h reaction (Array.mem_of_getElem? hr)) a ha
  cases a <;> first | cases hbinds | cases hall

/-- The handler of the binding is told all the same, and nothing comes of it. -/
theorem unbind_cancels_announcing :
    let w := announcing.unbindCell (dispatch callDepth) 0
    ∃ cell l, announcing.cells[0]? = some cell ∧ cell.live.root.isSome = true ∧ l.root = none ∧
      w.Severed 0 l (cell.reported ++ [⟨cell.live.root, none⟩]) ∧
      (dispatch callDepth (.handler (.sink 0 2 "age") (some "age")) w).Severed 0 l
        (cell.reported ++ [⟨cell.live.root, none⟩]) := by
  intro w
  obtain ⟨-, cell, l, hcell, ⟨hroot, -⟩, -, -, hsilenced, hafter⟩ :=
    unbound_opened.unbind_cancels Live.bossAge_inferred Lambda.compile_bossAge
      announcing_course callDepth
  have hpresent : (announcing.cells[0]?).any (·.live.root.isSome) = true := by decide +kernel
  rw [hcell, Option.any_some] at hpresent
  simp only [hpresent, if_true] at hsilenced hafter
  have hsilenced' := hsilenced.resolve_right (not_rebound (by decide +kernel))
  have htold := ((hafter w hsilenced' callDepth).1
    (.handler (.sink 0 2 "age") (some "age"))).resolve_right (not_rebound (by decide +kernel))
  exact ⟨cell, l, hcell, hpresent, hroot, hsilenced' w .refl, htold _ .refl⟩

/-- The boss announces every read of the age. -/
def echoing : World :=
  { empty with
    objects := #[
      { HostObject.new "Person" .bag with members := [("boss", .object ⟨1, "Person"⟩)] },
      { HostObject.new "Person" .echo with members := [("age", .i32 40)] }] }

/-- The boss's age is bound, and a handler unbinds when told of the next change. -/
def overheard : World :=
  let w := echoing.cloneBinding (dispatch callDepth) .bossAge "b" .live
  let w := (w.step (.bind "b" (.fixed employee))).2
  (w.step (.subscribe 1 "r" [.unbind "b"] 1)).2

/-- An observer binds anew when told that there is no age any more. -/
def recalled : World :=
  let w := staff.cloneBinding (dispatch callDepth) .bossAge "b" .live
  let w := (w.step (.observe "b" "o" [.bind "b" (.fixed employee)] 1 (some none))).2
  (w.step (.bind "b" (.fixed employee))).2

/-- Two ways for a binding to be followed and have a result after unbinding: the request was made while
the graph was reading and has been turned down, or an observer has bound again what was unbound. -/
theorem unbind_may_leave_bound :
    let bound (w : World) := (w.cells[0]?).any fun cell =>
      cell.live.bound && cell.live.root == some (.i32 40) && cell.live.watchCount == 2
    let w := (overheard.step (.announce 1 (some "age"))).2
    (bound overheard = true ∧ bound w = true ∧
      w.log.any (fun | .ignored .unbind => true | _ => false) = true) ∧
    bound recalled = true ∧ bound (recalled.step (.unbind "b")).2 = true := by
  decide +kernel

end World

end LiveExpr
