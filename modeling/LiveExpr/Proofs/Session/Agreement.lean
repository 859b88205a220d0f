import LiveExpr.Proofs.Session.Dispatch

/-!
Incremental evaluation agrees with evaluation from scratch: after any run of host operations, also of
those that observers start, a binding that is bound has the results of a new copy bound to the same
value.
-/

namespace LiveExpr.World

variable {w w' : World} {sc : Scope} {b : Subject} {d : Dispatcher} {name : String} {e : Lambda}
  {p : Prototype}

/-! ## New bindings -/

theorem lookup_bindName {κ ν : Type} [BEq κ] [LawfulBEq κ] [DecidableEq κ] (table : List (κ × ν))
    (name key : κ) (v : ν) :
    (bindName table name v).lookup key = if key = name then some v else table.lookup key := by
  rw [bindName, List.lookup_cons]
  by_cases h : key = name
  · simp [h]
  · rw [beq_false_of_ne h, if_neg h]
    simp only
    induction table with
    | nil => rfl
    | cons x table ih =>
        obtain ⟨k, u⟩ := x
        by_cases hk : k = name
        · subst k
          rw [List.filter_cons_of_neg (by simp), ih, List.lookup_cons, beq_false_of_ne h]
        · rw [List.filter_cons_of_pos (by simpa using hk), List.lookup_cons, List.lookup_cons, ih]

theorem cloneBinding_eq (hw : w.Quiet) (hname : w.bindingCell? name = none) (d : Dispatcher)
    (p : Prototype) (mode : BindingMode) :
    w.cloneBinding d p name mode =
      { w.note (.cloned (Live.copy p mode).2 mode) with
        cells := w.cells.push (.ofLive (Live.adopt (host d fun _ _ => .deaf) p mode w).1)
        bindings := bindName w.bindings name w.cells.size } := by
  have haside := Live.adopt_aside (host d fun _ _ => .deaf) p mode hw.still
  have hold : ((host d fun _ _ => .deaf).note (.cloned (Live.copy p mode).2 mode) w).bindingCell? name =
      none := hname
  unfold cloneBinding
  generalize Live.adopt (host d fun _ _ => .deaf) p mode w = t at haside ⊢
  obtain ⟨live, u⟩ := t
  obtain rfl : u = _ := haside
  simp only [hold]
  rfl

/-- The graph of a new binding has nothing to follow, and nothing is registered for it yet. -/
theorem adopt_tends (hw : w.Orderly sc) (hp : e.compile = .ok p) (d : Dispatcher) (mode : BindingMode) :
    w.Tends w.cells.size (Live.adopt (host d fun _ _ => .deaf) p mode w).1 := by
  have hfresh := Live.adopt_fresh hp (host d fun _ _ => .deaf) mode w
  refine ⟨⟨⟨hw.keyed, hfresh.watches, fun j _ => hfresh.unwatched j, ?_⟩, hw.quiet, fun _ => rfl⟩,
    fun j => Live.following_of_unbound hfresh.bound (hfresh.unwatched j)⟩
  intro id key node member
  rw [hfresh.unwatched node]
  constructor
  · intro hmem
    exact absurd (hw.sinks id key _ node member hmem) (Nat.lt_irrefl _)
  · rintro ⟨hnone, -⟩
    cases hnone

section

variable (hw : w.Orderly sc) (hp : e.compile = .ok p) (hname : w.bindingCell? name = none)

include hw hname

theorem cells_clone (d : Dispatcher) (mode : BindingMode) {c : Nat} {cell : Cell}
    (hc : (w.cloneBinding d p name mode).cells[c]? = some cell) :
    w.cells[c]? = some cell ∨
      (c = w.cells.size ∧ cell = .ofLive (Live.adopt (host d fun _ _ => .deaf) p mode w).1) := by
  rw [cloneBinding_eq hw.quiet hname] at hc
  simp only [Array.getElem?_push] at hc
  split at hc
  · cases hc
    exact .inr ⟨‹_›, rfl⟩
  · exact .inl hc

theorem bindingCell?_clone (d : Dispatcher) (mode : BindingMode) (key : String) :
    (w.cloneBinding d p name mode).bindingCell? key =
      if key = name then some w.cells.size else w.bindingCell? key := by
  rw [cloneBinding_eq hw.quiet hname]
  exact lookup_bindName w.bindings name key w.cells.size

theorem objects_clone (d : Dispatcher) (mode : BindingMode) :
    (w.cloneBinding d p name mode).objects = w.objects := by
  rw [cloneBinding_eq hw.quiet hname]
  rfl

theorem exhausted_clone (d : Dispatcher) (mode : BindingMode) :
    (w.cloneBinding d p name mode).exhausted = w.exhausted := by
  rw [cloneBinding_eq hw.quiet hname]
  rfl

include hp

theorem clone_orderly (d : Dispatcher) (mode : BindingMode) :
    (w.cloneBinding d p name mode).Orderly sc := by
  have hobjects := objects_clone (p := p) hw hname d mode
  have hsize : (w.cloneBinding d p name mode).cells.size = w.cells.size + 1 := by
    rw [cloneBinding_eq hw.quiet hname]
    exact Array.size_push _
  have hheap := SameHeap.ofObjects hobjects
  refine ⟨hheap.quiet hw.quiet, fun id o member v ho hv => hheap.holds hw ho hv, fun id => ?_,
    fun id key c node member hmem => ?_, fun c cell hc => ?_, fun key c hc => ?_,
    fun key key' c hc hc' => ?_, fun c cell hc x hx => ?_, fun r reaction hr => ?_, fun r hr => ?_⟩
  · rw [notifier_of_objects hobjects]
    exact hw.keyed id
  · rw [notifier_of_objects hobjects] at hmem
    have := hw.sinks id key c node member hmem
    omega
  · rcases cells_clone hw hname d mode hc with hc | ⟨rfl, rfl⟩
    · obtain ⟨hb, ho, ht⟩ := hw.cells c cell hc
      exact ⟨hb, ho, ht.ofObjects hobjects⟩
    · exact ⟨rfl, rfl, (adopt_tends hw hp d mode).ofObjects hobjects⟩
  · rw [bindingCell?_clone hw hname] at hc
    rw [hsize]
    split at hc
    · cases hc
      exact Nat.lt_succ_self _
    · exact Nat.lt_succ_of_lt (hw.names key c hc)
  · rw [bindingCell?_clone hw hname] at hc hc'
    -- the new binding's cell is none that there was before
    split at hc <;> split at hc'
    · rw [‹key = name›, ‹key' = name›]
    · cases hc
      exact absurd (hw.names key' _ hc') (Nat.lt_irrefl _)
    · cases hc'
      exact absurd (hw.names key _ hc) (Nat.lt_irrefl _)
    · exact hw.distinct key key' c hc hc'
  · rcases cells_clone hw hname d mode hc with hc | ⟨rfl, rfl⟩
    · have hold := hw.named c cell hc x hx
      rw [bindingCell?_clone hw hname, if_neg]
      · exact hold
      · rintro hfree
        rw [hfree, hname] at hold
        cases hold
    · cases hx
  · rw [cloneBinding_eq hw.quiet hname] at hr
    exact hw.scripts r reaction hr
  · rw [cloneBinding_eq hw.quiet hname] at hr
    rcases List.mem_append.mp hr with hr | hr
    · exact hw.log r hr
    · cases List.mem_singleton.mp hr

end

theorem Maintains.ofObjects {pending : Pending} (hm : w.Maintains b pending)
    (ho : w'.objects = w.objects) (hn : w'.bindingCell? b.name = some b.cell)
    (hc : w'.cells[b.cell]? = w.cells[b.cell]?) : w'.Maintains b pending := by
  have hheap := SameHeap.ofObjects ho
  refine ⟨hn, fun cell hcell => ?_⟩
  rw [hheap.read, hheap.stale]
  exact hm.live cell (hc ▸ hcell)

/-! ## Runs -/

/-- Host operations one after the other, each with calls nested to a depth of its own; bindings are
made under names that are free. -/
inductive Runs (sc : Scope) : World → World → Prop
  | refl (w : World) : Runs sc w w
  | act {w w' : World} (depth : Nat) {a : Action} : Runs sc w w' → a.Within sc →
      Runs sc w (w'.clearReports.perform (dispatch depth) a).2
  | clone {w w' : World} (depth : Nat) {name : String} {e : Lambda} {p : Prototype}
      (mode : BindingMode) : Runs sc w w' → e.compile = .ok p → w'.bindingCell? name = none →
      Runs sc w (w'.cloneBinding (dispatch depth) p name mode)

theorem clearReports_evolves (hw : w.Orderly b.scope) : Evolves b id w w.clearReports := by
  have hcleared : SameState b.scope w w.clearReports :=
    ⟨rfl, fun _ => rfl, fun _ cell hc _ hx => .inl ⟨cell, hc, hx⟩, rfl, rfl, rfl,
      fun _ reaction hr => .inl ⟨reaction, hr, rfl⟩, nofun⟩
  exact hcleared.evolves hw

theorem act_evolves (depth : Nat) (hw : w.Orderly b.scope) {a : Action} (ha : a.Within b.scope) :
    Evolves b id w (w.clearReports.perform (dispatch depth) a).2 := by
  have hstart := clearReports_evolves hw
  exact hstart.trans (perform_evolves (dispatch_obeys b depth) hstart.orderly ha)

theorem Runs.maintains (hr : Runs b.scope w w') (hw : w.Orderly b.scope) :
    w'.Orderly b.scope ∧ (w'.exhausted = false → w.exhausted = false ∧
      ∀ pending, w.Maintains b pending → w'.Maintains b pending) := by
  induction hr with
  | refl => exact ⟨hw, fun hex => ⟨hex, fun _ hm => hm⟩⟩
  | @act u depth a _ ha ih =>
      obtain ⟨hu, hkeep⟩ := ih
      have hdone := act_evolves depth hu ha
      refine ⟨hdone.orderly, fun hex => ?_⟩
      obtain ⟨hex', hm⟩ := hkeep (hdone.exhausted hex)
      exact ⟨hex', fun pending h => hdone.maintains hex pending (hm pending h)⟩
  | @clone u depth name e p mode _ hp hname ih =>
      obtain ⟨hu, hkeep⟩ := ih
      refine ⟨clone_orderly hu hp hname _ mode, fun hex => ?_⟩
      rw [exhausted_clone hu hname] at hex
      obtain ⟨hex', hm⟩ := hkeep hex
      refine ⟨hex', fun pending h => ?_⟩
      have hold := hm pending h
      have hlt := hu.names b.name b.cell hold.name
      refine hold.ofObjects (objects_clone hu hname _ mode) ?_ ?_
      · rw [bindingCell?_clone hu hname, if_neg]
        · exact hold.name
        · rintro rfl
          rw [hold.name] at hname
          cases hname
      · rw [cloneBinding_eq hu.quiet hname]
        exact Array.getElem?_push_lt hlt ▸ (Array.getElem?_eq_getElem hlt).symm

/-- Objects with members that nobody follows yet, and nothing else. -/
structure Pristine (sc : Scope) (w : World) : Prop where
  quiet : w.Quiet
  holds : ∀ (id : Nat) (o : HostObject Handler) (member : String) (v : Value),
    w.objects[id]? = some o → o.members.get? member = some v → sc.holds id member v
  unfollowed : ∀ id, (w.notifier id).handlers = []
  cells : w.cells = #[]
  bindings : w.bindings = []
  reactions : w.reactions = #[]
  log : w.log = []

theorem Pristine.orderly (hw : w.Pristine sc) : w.Orderly sc where
  quiet := hw.quiet
  holds := hw.holds
  keyed id := by
    refine ⟨?_, ?_⟩
    · rw [hw.unfollowed]
      exact .nil
    · rw [hw.unfollowed]
      exact nofun
  sinks id key c node member hmem := by
    rw [hw.unfollowed] at hmem
    cases hmem
  cells c cell hc := by
    rw [hw.cells] at hc
    cases hc
  names name c hc := by
    rw [bindingCell?, hw.bindings] at hc
    cases hc
  distinct name name' c hc := by
    rw [bindingCell?, hw.bindings] at hc
    cases hc
  named c cell hc := by
    rw [hw.cells] at hc
    cases hc
  scripts r reaction hr := by
    rw [hw.reactions] at hr
    cases hr
  log r hr := by
    rw [hw.log] at hr
    cases hr

theorem clone_maintains (hw : w.Orderly b.scope) (hname : w.bindingCell? b.name = none)
    (hcell : b.cell = w.cells.size) (d : Dispatcher) (pending : Pending) :
    (w.cloneBinding d b.prototype b.name .live).Maintains b pending := by
  refine ⟨?_, fun cell hc => ?_⟩
  · rw [bindingCell?_clone hw hname, if_pos rfl, hcell]
  · have hheap := SameHeap.ofObjects (objects_clone (p := b.prototype) hw hname d .live)
    rw [hheap.read, hheap.stale]
    rcases cells_clone hw hname d .live hc with hc | ⟨-, rfl⟩
    · rw [hcell, Array.getElem?_eq_none (Nat.le_refl _)] at hc
      cases hc
    · exact Live.adopt_maintained b.compiles hw.quiet.still hw.allows

/-- Start with objects alone, make bindings and run whatever stays within the scope; at some moment
make a binding of a prototype that follows what may change, and go on. Unless calls have been left
out, no request has been ignored, and at every moment between calls at which the binding is bound and
no change of a member is still to be announced, evaluating once gives its result, and each of its
nodes has the result that it has in a new copy bound to the same value. -/
theorem binding_agrees {w₀ w₁ : World} {depth : Nat} (hw : w.Pristine sc) (hbefore : Runs sc w w₀)
    (hp : e.compile = .ok p) (hfollow : Followable sc (sc.binds name) p.graph)
    (hname : w₀.bindingCell? name = none)
    (hafter : Runs sc (w₀.cloneBinding (dispatch depth) p name .live) w₁)
    (hcomplete : w₁.exhausted = false) :
    (∀ r, .ignored r ∉ w₁.log) ∧
      ∃ c cell, w₁.bindingCell? name = some c ∧ w₁.cells[c]? = some cell ∧
        (cell.live.bound = true → (∀ id member, ¬ w₁.stale id member) →
          ∃ v, cell.live.ledger.get cell.live.parameter = some v ∧
            cell.live.root ==
              ((w₁.evaluator d p).2.evaluateWith d v (w₁.evaluator d p).1).1 ∧
            ∀ mode id, cell.live.ledger.get id ==
              (Live.adoptBound (host d fun _ _ => .deaf) p mode v w₁).1.ledger.get id) := by
  let b : Subject := ⟨sc, name, w₀.cells.size, e, p, hp, hfollow⟩
  have hrun : Runs b.scope w w₀ := hbefore
  obtain ⟨hw₀, -⟩ := hrun.maintains (b := b) hw.orderly
  have hcloned := clone_orderly hw₀ hp hname (dispatch depth) .live
  have hnew := clone_maintains (b := b) hw₀ hname rfl (dispatch depth) fun _ _ => False
  have hrest : Runs b.scope _ w₁ := hafter
  obtain ⟨hw₁, hkeep⟩ := hrest.maintains (b := b) hcloned
  have hm := (hkeep hcomplete).2 _ hnew
  have hlt := hw₁.names name _ hm.name
  refine ⟨hw₁.log, b.cell, _, hm.name, Array.getElem?_eq_getElem hlt, fun hbound hstale => ?_⟩
  have hnone : w₁.stale = fun _ _ => False := by
    funext id member
    exact eq_false (hstale id member)
  have hlive := hm.live _ (Array.getElem?_eq_getElem hlt)
  rw [hnone] at hlive
  have hstill : (host d fun _ _ => .deaf).Still w₁.read w₁ := hw₁.quiet.still
  obtain ⟨v, hv, hequal, hroot⟩ := hlive.agrees hp hbound hstill
  exact ⟨v, hv, hroot, hequal⟩

/-- What becomes of the staff: one is bound, and the age of the boss may be set to any number. -/
def staffScope : Scope where
  binds _ v := v = employee
  holds id member v := (id = 0 ∧ member = "boss" ∧ v = .object ⟨1, "Person"⟩) ∨
    (id = 1 ∧ member = "age" ∧ ∃ n, v = .i32 n)
  changes id := id = 1

theorem kind_bossAge {id : Nat} {n : Node} (hn : Prototype.bossAge.graph.nodes[id]? = some n) :
    n.kind = .parameter ∨ n.kind = .memberAccess "boss" "boss" true ∨
      n.kind = .memberAccess "age" "age" true := by
  have hkind : (Prototype.bossAge.graph.nodes[id]?).map (·.kind) = some n.kind := by
    rw [hn]
    rfl
  rcases id with _ | _ | _ | id
  · exact .inl (Option.some.inj hkind).symm
  · exact .inr (.inl (Option.some.inj hkind).symm)
  · exact .inr (.inr (Option.some.inj hkind).symm)
  · have hsize : Prototype.bossAge.graph.nodes.size = 3 := rfl
    rw [Array.getElem?_eq_none (by omega)] at hn
    cases hn

theorem staffScope_reads_no_struct {read : String → Value → Value} (hread : staffScope.Allows read)
    {member : String} (hm : member = "boss" ∨ member = "age") (v : Value) (r : ObjectRef) :
    read member v ≠ .struct r := by
  have hholds : ∀ id, ¬ staffScope.holds id member (.struct r) := by
    rintro id (⟨-, -, hv⟩ | ⟨-, -, n, hv⟩) <;> cases hv
  intro heq
  have hv := hread member v
  cases v with
  | object r' | struct r' =>
      simp only [heq] at hv
      rcases hv with hv | hv
      · cases hv
      · exact hholds r'.id hv
  | _ => rcases hm with rfl | rfl <;> cases heq.symm.trans hv

theorem staffScope_no_struct {id : Nat} {x : Result}
    (hx : CanYield staffScope (staffScope.binds "b") Prototype.bossAge.graph id x) (r : ObjectRef) :
    x ≠ some (.struct r) := by
  cases hx with
  | absent => exact nofun
  | parameter _ _ hv =>
      rintro h
      cases h
      cases hv
  | rule read results hn hk hread _ =>
      intro h
      rcases kind_bossAge hn with hkind | hkind | hkind
      · exact hk hkind
      · rw [hkind] at h
        obtain ⟨v, -, hv⟩ := Option.map_eq_some_iff.mp h
        exact staffScope_reads_no_struct hread (.inl rfl) v r hv
      · rw [hkind] at h
        obtain ⟨v, -, hv⟩ := Option.map_eq_some_iff.mp h
        exact staffScope_reads_no_struct hread (.inr rfl) v r hv

theorem bossAge_followable :
    Followable staffScope (staffScope.binds "b") Prototype.bossAge.graph := by
  intro id n member reads observe hn hk target _ r _
  refine ⟨fun hyield => staffScope_no_struct hyield r rfl, fun _ => ?_⟩
  rcases kind_bossAge hn with h | h | h <;> rw [h] at hk <;> cases hk <;> exact ⟨rfl, rfl⟩

theorem staff_pristine : staff.Pristine staffScope := by
  refine ⟨staff_quiet, fun id o member v ho hv => ?_, fun id => ?_, rfl, rfl, rfl, rfl⟩
  · rcases id with _ | _ | id
    · cases ho
      replace hv : Members.get? [("boss", .object ⟨1, "Person"⟩)] member = some v := hv
      rw [Members.get?_cons] at hv
      split at hv
      · cases hv
        exact .inl ⟨rfl, ‹_›, rfl⟩
      · cases hv
    · cases ho
      replace hv : Members.get? [("age", .i32 40)] member = some v := hv
      rw [Members.get?_cons] at hv
      split at hv
      · cases hv
        exact .inr ⟨rfl, ‹_›, _, rfl⟩
      · cases hv
    · cases ho
  · rcases id with _ | _ | id <;> rfl

theorem agrees_of_bossAge :
    let d := dispatch callDepth
    let bound := ((staff.cloneBinding d .bossAge "b" .live).clearReports.perform d
      (.bind "b" (.fixed employee))).2
    let w := (bound.clearReports.perform d (.set 1 "age" (.fixed (.i32 41)))).2
    ∃ c cell v, w.bindingCell? "b" = some c ∧ w.cells[c]? = some cell ∧
      cell.live.root ==
        ((w.evaluator d .bossAge).2.evaluateWith d v (w.evaluator d .bossAge).1).1 := by
  intro d bound w
  have hruns : Runs staffScope (staff.cloneBinding d .bossAge "b" .live) w :=
    .act _ (.act _ (.refl _) (.bind fun _ => rfl)) (.set rfl fun _ => .inr ⟨rfl, rfl, _, rfl⟩)
  obtain ⟨-, c, cell, hc, hcell, hagrees⟩ := binding_agrees (d := d) staff_pristine (.refl staff)
    Lambda.compile_bossAge bossAge_followable rfl hruns (by decide +kernel)
  have hbound : (w.cells.all fun cell => cell.live.bound) = true := by decide +kernel
  have hannounced : (w.objects.all fun o => o.unannounced.isEmpty) = true := by decide +kernel
  rw [Array.all_eq_true'] at hbound hannounced
  have hstale : ∀ id member, ¬ w.stale id member := by
    rintro id member ⟨o, ho, hmem⟩
    have hempty := hannounced o (Array.mem_of_getElem? ho)
    rw [List.isEmpty_iff.mp hempty] at hmem
    cases hmem
  obtain ⟨v, -, hroot, -⟩ := hagrees (hbound cell (Array.mem_of_getElem? hcell)) hstale
  exact ⟨c, cell, v, hc, hcell, hroot⟩

end LiveExpr.World
