import LiveExpr.Proofs.Live.Binding
import LiveExpr.Proofs.Session.Reading
import LiveExpr.Session.Perform

/-!
What binding anew recomputes. The readers of the parameter and the member accesses that follow changes
are recomputed, and what depends on those that change; any other member access keeps what it read
before, although the member may hold something else by now. Up to these, a binding has no memory.
-/

namespace LiveExpr.Live

variable {σ : Type} {h : Host σ} {read : String → Value → Value}

/-! ## Histories -/

/-- Everything that can have become of a copy. Each request finds the host in a state of its own, so
that members may have changed in any way since the one before. -/
inductive Reached (h : Host σ) (p : Prototype) (mode : BindingMode) : Live → Prop
  | adopt (s : σ) : Reached h p mode (adopt h p mode s).1
  | bind {l : Live} (v : Value) (s : σ) : Reached h p mode l → Reached h p mode (l.bind h v s).1
  | unbind {l : Live} (s : σ) : Reached h p mode l → Reached h p mode (l.unbind h s).1
  | memberChanged {l : Live} (node : Nat) (s : σ) :
      Reached h p mode l → Reached h p mode (l.memberChanged h node s).1
  | takePending {l : Live} : Reached h p mode l → Reached h p mode l.takePending.2

def unwatched (l : Live) : Live :=
  { l with watches := l.watches.map fun _ => none }

theorem watchAt_unwatched (l : Live) (node : Nat) : l.unwatched.watchAt node = none := by
  simp only [watchAt, unwatched, Array.getD_eq_getD_getElem?, Array.getElem?_map]
  cases l.watches[node]? <;> rfl

theorem copyOf_unwatched {p : Prototype} {l : Live} (hl : CopyOf p l) : CopyOf p l.unwatched :=
  ⟨hl.nodes, hl.parameter, hl.body, Array.size_map.trans hl.watches⟩

theorem unbind_eq (h : Host σ) (l : Live) (s : σ) :
    l.unbind h s =
      let s := if l.bound then h.note (.unbinding l.watchCount) s else s
      let t := (l.unwatched.withParameter false none).propagate h (l.graph.readersOf l.parameter)
        ({ l with bound := false }.releaseWatches h s).2
      (t.1.settleRoot none, t.2) := rfl

theorem unbind_graph (h : Host σ) (l : Live) (s : σ) : (l.unbind h s).1.graph = l.graph := by
  rw [unbind_eq]
  exact (settleRoot_sameLedger _ _).graph.trans (propagate_frame h _ _ _).graph

theorem unbind_unbound {p : Prototype} {l : Live} (hl : CopyOf p l) (h : Host σ) (s : σ) :
    CopyOf p (l.unbind h s).1 ∧ (l.unbind h s).1.mode = l.mode ∧ (l.unbind h s).1.bound = false := by
  rw [unbind_eq]
  have hframe := propagate_frame h (l.graph.readersOf l.parameter)
    (l.unwatched.withParameter false none)
  have hlast := fun m : Live => settleRoot_sameLedger m none
  have hstart := copyOf_withParameter (copyOf_unwatched hl) false none
  exact ⟨(hlast _).copyOf (hstart.ofFrame (hframe _)), (hlast _).mode.trans (hframe _).mode,
    (hlast _).bound.trans (hframe _).bound⟩

theorem releaseWatches_aside (h : Host σ) (l : Live) (s : σ) : h.Aside s (l.releaseWatches h s).2 := by
  change h.Aside s (l.watches.toList.foldl (fun s w => w.elim s (h.unwatch · s)) s)
  generalize l.watches.toList = watches
  induction watches generalizing s with
  | nil => exact .refl s
  | cons w rest ih =>
      refine Host.Aside.trans ?_ (ih _)
      cases w with
      | none => exact .refl s
      | some w => exact .unwatch w (.refl s)

theorem still_released (l : Live) {s : σ} (hs : h.Still read s) :
    h.Still read ({ l with bound := false }.releaseWatches h
      (if l.bound then h.note (.unbinding l.watchCount) s else s)).2 := by
  refine Host.Still.aside ?_ (releaseWatches_aside h { l with bound := false } _)
  split
  · exact hs.note _
  · exact hs

theorem unbind_settles {e : Lambda} {p : Prototype} (hp : e.compile = .ok p) {l : Live}
    (hl : CopyOf p l) {s : σ} (hs : h.Still read s) :
    h.Still read (l.unbind h s).2 ∧ ∀ j, (l.unbind h s).1.Settled read j ∨
      (SameAt l.unwatched (l.unbind h s).1 j ∧ j ≠ l.parameter) := by
  rw [unbind_eq]
  obtain ⟨hs', hall⟩ := reset_settles hp (copyOf_unwatched hl) false none _ (fun _ hj => hj)
    (still_released l hs)
  refine ⟨hs', fun j => ?_⟩
  rcases hall none j with hj | ⟨hsame, hpar, -⟩
  · exact .inl hj
  · exact .inr ⟨hsame, hpar⟩

theorem operatorsSettled_of_sameLedger {l l' : Live} (hl : SameLedger l l')
    (hs : l.OperatorsSettled) : l'.OperatorsSettled := by
  intro id hk read
  rw [kindAt_of_graph hl.graph] at hk
  exact (hl.settled id).mpr (hs id hk read)

theorem propagate_operatorsSettled (h : Host σ) (dirty : List Nat) {l : Live}
    (hl : ∀ id, id ∈ dirty ∨ ((l.kindAt id).any (·.isMember) = false → ∀ read, l.Settled read id))
    (s : σ) : (l.propagate h dirty s).1.OperatorsSettled := by
  obtain ⟨-, hframe, hall⟩ := propagate_visits (h := h) (fun _ _ => True)
    (fun m _ id => (m.kindAt id).any (·.isMember) = false → ∀ read, m.Settled read id)
    (fun _ hr => ⟨trivial, fun hk read =>
      hr.settles_of_not_member (by rwa [← kindAt_of_graph hr.frame.graph]) read⟩)
    (fun _ hr hj hd hk read => (hj.settled hr.frame.graph).mpr
      (hd (by rwa [← kindAt_of_graph hr.frame.graph]) read))
    dirty (l := l) (s := s) trivial
  intro id hk read
  rcases hall id with hid | ⟨hsame, hclean⟩
  · exact hid hk read
  · rw [kindAt_of_graph hframe.graph] at hk
    exact (hsame.settled hframe.graph).mpr ((hl id).resolve_left hclean hk read)

theorem operatorsSettled_withParameter {e : Lambda} {p : Prototype} (hp : e.compile = .ok p) {l : Live}
    (hl : CopyOf p l) (hs : l.OperatorsSettled) (b : Bool) (r : Result) (id : Nat) :
    id ∈ l.graph.readersOf l.parameter ∨
      (((l.withParameter b r).kindAt id).any (·.isMember) = false →
        ∀ read, (l.withParameter b r).Settled read id) := by
  by_cases hread : id ∈ l.graph.readersOf l.parameter
  · exact .inl hread
  · refine .inr fun hk read => ?_
    by_cases hpar : id = l.parameter
    · exact settled_of_parameter (((copyOf_withParameter hl b r).kindAt_parameter hp id).mpr hpar)
    · exact ((sameAt_withParameter l b r hpar hread).settled rfl).mpr (hs id hk read)

/-- Whatever has happened, the copy is one of the prototype, and only member accesses can be out of
date. -/
theorem Reached.settled {e : Lambda} {p : Prototype} (hp : e.compile = .ok p) {mode : BindingMode}
    {l : Live} (hl : Reached h p mode l) : CopyOf p l ∧ l.mode = mode ∧ l.OperatorsSettled := by
  induction hl with
  | adopt s =>
      have hfresh := adopt_fresh hp h mode s
      exact ⟨hfresh.toCopyOf, hfresh.mode, adopt_operatorsSettled h p mode s⟩
  | @bind l v s _ ih =>
      obtain ⟨hcopy, hmode, hs⟩ := ih
      obtain ⟨hcopy', hmode', -⟩ := bind_bound hp hcopy h v s
      refine ⟨hcopy', hmode'.trans hmode, ?_⟩
      rw [bind_eq]
      refine operatorsSettled_of_sameLedger (settleRoot_sameLedger _ _) ?_
      refine propagate_operatorsSettled h _ (fun id => ?_) _
      rcases operatorsSettled_withParameter hp hcopy hs true (some v) id with hid | hid
      · exact .inl (mem_bindAgenda_of_reader hid)
      · exact .inr hid
  | @unbind l s _ ih =>
      obtain ⟨hcopy, hmode, hs⟩ := ih
      obtain ⟨hcopy', hmode', -⟩ := unbind_unbound hcopy h s
      refine ⟨hcopy', hmode'.trans hmode, ?_⟩
      rw [unbind_eq]
      refine operatorsSettled_of_sameLedger (settleRoot_sameLedger _ _) ?_
      exact propagate_operatorsSettled h _ (operatorsSettled_withParameter (l := l.unwatched) hp
        (copyOf_unwatched hcopy) hs false none) _
  | @memberChanged l node s _ ih =>
      obtain ⟨hcopy, hmode, hs⟩ := ih
      cases hb : l.bound with
      | false =>
          rw [memberChanged_unbound h node hb]
          exact ⟨hcopy, hmode, hs⟩
      | true =>
          rw [memberChanged_eq h node hb]
          have hframe := propagate_frame h [node] l s
          have hlast := settleRoot_sameLedger (l.propagate h [node] s).1
            ((l.propagate h [node] s).1.ledger.get (l.propagate h [node] s).1.body)
          refine ⟨hlast.copyOf (hcopy.ofFrame hframe), (hlast.mode.trans hframe.mode).trans hmode, ?_⟩
          exact operatorsSettled_of_sameLedger hlast
            (propagate_operatorsSettled h [node] (fun id => .inr (hs id)) s)
  | takePending _ ih =>
      obtain ⟨hcopy, hmode, hs⟩ := ih
      exact ⟨⟨hcopy.nodes, hcopy.parameter, hcopy.body, hcopy.watches⟩, hmode, hs⟩

/-! ## What is overlooked -/

/-- A member access that binding does not recompute for its own sake: it does not follow changes, and
does not read the parameter itself. -/
def Overlooked (l : Live) (id : Nat) : Prop :=
  (l.kindAt id).any (·.isMember) = true ∧ l.graph.observes id = false ∧
    l.parameter ∉ l.graph.inputs id

theorem bind_settles_unless_overlooked {e : Lambda} {p : Prototype} (hp : e.compile = .ok p)
    {mode : BindingMode} {l : Live} (hl : Reached h p mode l) (v : Value) {s : σ}
    (hs : h.Still read s) {id : Nat} (hid : ¬ (l.bind h v s).1.Overlooked id) :
    (l.bind h v s).1.Settled read id := by
  obtain ⟨hcopy, -, hsettled⟩ := hl.settled hp
  obtain ⟨hgraph, hparam⟩ := bind_graph h v l s
  rcases (bind_settles hp hcopy v hs).2 id with hid | ⟨hsame, -, hclean⟩
  · exact hid
  · cases hk : (l.kindAt id).any (·.isMember) with
    | false => exact (hsame.settled hgraph).mpr (hsettled id hk read)
    | true =>
        -- a member access that is not on the agenda is just what being overlooked means
        refine absurd ⟨?_, ?_, ?_⟩ hid
        · rw [kindAt_of_graph hgraph, hk]
        · rw [hgraph]
          exact Bool.eq_false_iff.mpr fun hobserves => hclean (mem_bindAgenda_of_observes hobserves)
        · rw [hgraph, hparam]
          exact fun hin => hclean (mem_bindAgenda_of_reader (Graph.mem_readersOf.mpr hin))

/-- A binding of any mode and history computes, when it is bound anew, exactly the results of a copy
made and bound at that moment, unless an overlooked member access holds what its member no longer
does; the result of the whole is then that of evaluating once. -/
theorem bind_recomputes_iff {e : Lambda} {p : Prototype} (hp : e.compile = .ok p) {mode : BindingMode}
    {l : Live} (hl : Reached h p mode l) (v : Value) {s : σ} (hs : h.Still read s)
    (mode' : BindingMode) :
    let l' := (l.bind h v s).1
    let s' := (l.bind h v s).2
    ((∀ id, l'.ledger.get id == (adoptBound h p mode' v s').1.ledger.get id) ↔
        ∀ id, l'.Overlooked id → l'.Settled read id) ∧
      ((∀ id, l'.Overlooked id → l'.Settled read id) →
        l'.root ==
          ((adopt h p .oneTime s').1.evaluateOnce h v (adopt h p .oneTime s').2).1) := by
  intro l' s'
  obtain ⟨hcopy, -, -⟩ := hl.settled hp
  obtain ⟨hcopy', -, -, hbound, hroot⟩ := bind_bound hp hcopy h v s
  have hs' : h.Still read s' := (bind_settles hp hcopy v hs).1
  have hequal : ∀ mode, (∀ id, l'.Overlooked id → l'.Settled read id) →
      ∀ id, l'.ledger.get id == (adoptBound h p mode v s').1.ledger.get id := by
    intro mode hall
    refine hcopy'.results_eq hp hbound (fun id => ?_) hs' mode
    by_cases hid : l'.Overlooked id
    · exact hall id hid
    · exact bind_settles_unless_overlooked hp hl v hs hid
  refine ⟨⟨fun hall id _ => ?_, hequal mode'⟩, fun hall => ?_⟩
  · obtain ⟨hfresh, -, -⟩ := adoptBound_bound hp h mode' v s'
    exact (hcopy'.sameRules hfresh).settled_of_results_eq hs.congr hall
      (adoptBound_settled hp mode' v hs' id)
  · exact hcopy'.root_eq hp hroot (hequal .oneTime hall)

/-- A one-time copy that has been bound before the boss's age changed is bound again: it overlooks the
age, and does not compute what a new copy does. -/
theorem bind_recomputes_bossAge :
    let h := World.host (World.dispatch World.callDepth) fun _ _ => .deaf
    let l := (adoptBound h .bossAge .oneTime World.employee World.staff).1
    let w := World.staff.modifyObject 1 (·.write "age" (.i32 41))
    let t := l.bind h World.employee w
    Reached h .bossAge .oneTime l ∧ h.Still w.read w ∧
      ((∀ id, t.1.ledger.get id ==
          (adoptBound h .bossAge .live World.employee t.2).1.ledger.get id) ↔
        ∀ id, t.1.Overlooked id → t.1.Settled w.read id) ∧
      ¬ ∀ id, t.1.Overlooked id → t.1.Settled w.read id := by
  intro h l w t
  have hl : Reached h .bossAge .oneTime l := .bind World.employee _ (.adopt World.staff)
  have hquiet : w.Quiet := World.staff_quiet.modifyObject 1 fun _ => rfl
  have hstill : h.Still w.read w := hquiet.still
  have hiff := (bind_recomputes_iff Lambda.compile_bossAge hl World.employee hstill .live).1
  rw [show l.bind h World.employee w = t from rfl] at hiff
  have hstale : (t.1.ledger.get 2 ==
      (adoptBound h .bossAge .live World.employee t.2).1.ledger.get 2) = false := by decide +kernel
  refine ⟨hl, hstill, hiff, fun hall => ?_⟩
  have hequal := hiff.mpr hall 2
  rw [hstale] at hequal
  cases hequal

/-- A one-time copy is bound to the same object again after the boss's age has changed: the boss is
read anew, but as it is the same person, the age is not. -/
theorem bind_depends_on_history :
    ¬ ∀ (e : Lambda) (p : Prototype) (mode : BindingMode) (l : Live) (v : Value) (w : World),
      let h := World.host (World.dispatch World.callDepth) fun _ _ => .deaf
      let t := l.bind h v w
      let fresh := adopt h p .oneTime t.2
      e.compile = .ok p → Reached h p mode l → w.Quiet →
        t.1.root == (fresh.1.evaluateOnce h v fresh.2).1 := by
  intro hall
  have hquiet := World.staff_quiet.modifyObject 1 (f := (·.write "age" (.i32 41))) fun _ => rfl
  have hstale := hall .bossAge .bossAge .oneTime _ World.employee _ Lambda.compile_bossAge
    (.bind World.employee World.staff (.adopt World.staff)) hquiet
  revert hstale
  decide +kernel

end LiveExpr.Live
