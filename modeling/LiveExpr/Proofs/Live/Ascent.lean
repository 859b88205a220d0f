import LiveExpr.Proofs.Graph.Downstream
import LiveExpr.Proofs.Live.Reports

/-!
A propagation is one ascending sweep: it comes by every node at most once, after all that the node
reads has been settled, and stays within what is downstream of where it started.
-/

namespace LiveExpr

namespace Live

variable {σ : Type} {h : Host σ} {l : Live} {s : σ} {agenda : List Nat}

theorem sweepTrace_ascends (steps : Nat) (hsorted : agenda.Pairwise (· < ·)) :
    (sweepTrace h steps agenda l s).Pairwise fun v w => v.node < w.node := by
  induction steps generalizing agenda l s with
  | zero => exact .nil
  | succ steps ih =>
      cases agenda with
      | nil => exact .nil
      | cons id rest =>
          rw [sweepTrace]
          exact .cons (fun v hv => lt_of_mem_sweepTrace steps hsorted hv)
            (ih (nextAgenda_sorted (List.pairwise_cons.mp hsorted).2))

/-- When a node is recomputed, everything that it reads has the result it will have in the end. -/
theorem sweepTrace_settled (steps : Nat) (hsorted : agenda.Pairwise (· < ·)) {v : Visit σ}
    (hv : v ∈ sweepTrace h steps agenda l s) {i : Nat} (hi : i ∈ l.graph.inputs v.node) :
    v.before.ledger.get i = (sweep h steps agenda l s).1.ledger.get i := by
  induction steps generalizing agenda l s with
  | zero => cases hv
  | succ steps ih =>
      cases agenda with
      | nil => cases hv
      | cons id rest =>
          have hr := recompute_spec h id l s
          rw [sweep_cons]
          rw [sweepTrace] at hv
          generalize l.recompute h id s = t at hr hv ⊢
          obtain ⟨changed, m, u⟩ := t
          simp only at hr hv ⊢
          have hsorted' : (m.nextAgenda id rest changed).Pairwise (· < ·) :=
            nextAgenda_sorted (List.pairwise_cons.mp hsorted).2
          rcases List.mem_cons.mp hv with rfl | hv
          · have hlt : i < id := Graph.lt_of_mem_inputs hi
            rw [sweep_ledger_of_unvisited steps fun w hw => ?_, hr.ledger_of_ne hlt.ne]
            exact (hlt.trans (lt_of_mem_sweepTrace steps hsorted hw)).ne'
          · exact ih hsorted' hv (hr.frame.graph ▸ hi)

/-! ## What is visited -/

/-- In order, and naming only nodes from `least` on. -/
structure Queued (g : Graph) (least : Nat) (agenda : List Nat) : Prop where
  sorted : agenda.Pairwise (· < ·)
  least_le : ∀ id ∈ agenda, least ≤ id
  lt_size : ∀ id ∈ agenda, id < g.size

theorem Queued.ofList {g : Graph} {dirty : List Nat} (hdirty : ∀ id ∈ dirty, id < g.size) :
    Queued g 0 (Agenda.ofList dirty) where
  sorted := Agenda.sorted_ofList dirty
  least_le _ _ := Nat.zero_le _
  lt_size id hid := hdirty id (Agenda.mem_ofList.mp hid)

theorem Queued.next {least id : Nat} {rest : List Nat} (hq : Queued l.graph least (id :: rest))
    (changed : Bool) : Queued l.graph (id + 1) (l.nextAgenda id rest changed) := by
  obtain ⟨hid, hrest⟩ := List.pairwise_cons.mp hq.sorted
  refine ⟨nextAgenda_sorted hrest, fun j hj => lt_of_mem_nextAgenda hid hj, fun j hj => ?_⟩
  rcases mem_nextAgenda.mp hj with ⟨-, hj⟩ | hj
  · exact Graph.lt_size_of_mem_inputs hj
  · exact hq.lt_size j (List.mem_cons_of_mem _ hj)

theorem Queued.eq_nil {g : Graph} {least : Nat} (hq : Queued g least agenda)
    (hleast : g.size ≤ least) : agenda = [] := by
  refine List.eq_nil_iff_forall_not_mem.mpr fun id hid => ?_
  have := hq.least_le id hid
  have := hq.lt_size id hid
  omega

/-- Only what is on the agenda and the readers of what has changed are visited, and all of it when
there is a step for every node from `least` on. -/
theorem mem_sweepTrace_iff (steps : Nat) {least : Nat} (hq : Queued l.graph least agenda)
    (henough : l.graph.size - least ≤ steps) (id : Nat) :
    (∃ v ∈ sweepTrace h steps agenda l s, v.node = id) ↔
      id ∈ agenda ∨
        ∃ v ∈ sweepTrace h steps agenda l s, v.changed = true ∧ v.node ∈ l.graph.inputs id := by
  induction steps generalizing least agenda l s with
  | zero => simp [hq.eq_nil (by omega), sweepTrace]
  | succ steps ih =>
      cases agenda with
      | nil => simp [sweepTrace]
      | cons first rest =>
          have hle := hq.least_le first List.mem_cons_self
          have hr := recompute_spec h first l s
          rw [sweepTrace]
          generalize l.recompute h first s = t at hr ⊢
          obtain ⟨changed, m, u⟩ := t
          simp only at hr ⊢
          have hgraph := hr.frame.graph
          rw [← hgraph] at hq henough
          have hlater := ih (s := u) (hq.next changed) (by omega)
          rw [mem_nextAgenda, hgraph] at hlater
          simp only [List.mem_cons, exists_eq_or_imp, hlater]
          constructor
          · rintro (rfl | (hread | hmem) | hlater)
            · exact .inl (.inl rfl)
            · exact .inr (.inl hread)
            · exact .inl (.inr hmem)
            · exact .inr (.inr hlater)
          · rintro ((rfl | hmem) | hread | hlater)
            · exact .inl rfl
            · exact .inr (.inl (.inr hmem))
            · exact .inr (.inl (.inl hread))
            · exact .inr (.inr hlater)

theorem sweep_nil (steps : Nat) : sweep h steps [] l s = (l, s) := by
  cases steps <;> rfl

/-- Once the agenda is empty no step more is taken, however many there are. -/
theorem sweep_of_length_le (steps : Nat) {least : Nat} (hq : Queued l.graph least agenda)
    (henough : l.graph.size - least ≤ steps) {others : Nat}
    (hothers : (sweepTrace h steps agenda l s).length ≤ others) :
    sweep h others agenda l s = sweep h steps agenda l s := by
  induction steps generalizing least agenda l s others with
  | zero => rw [hq.eq_nil (by omega), sweep_nil, sweep_nil]
  | succ steps ih =>
      cases agenda with
      | nil => rw [sweep_nil, sweep_nil]
      | cons id rest =>
          have hle := hq.least_le id List.mem_cons_self
          have hgraph := (recompute_spec h id l s).frame.graph
          rw [← hgraph] at hq henough
          rw [sweepTrace, List.length_cons] at hothers
          cases others with
          | zero => omega
          | succ others =>
              rw [sweep_cons, sweep_cons]
              exact ih (hq.next _) (by omega) (Nat.le_of_succ_le_succ hothers)

/-! ## Propagation -/

theorem propagateTrace_ascends (h : Host σ) (dirty : List Nat) (l : Live) (s : σ) :
    (l.propagateTrace h dirty s).Pairwise fun v w => v.node < w.node :=
  sweepTrace_ascends _ (Agenda.sorted_ofList dirty)

section

variable {dirty : List Nat} (hdirty : ∀ id ∈ dirty, id < l.graph.size)
include hdirty

theorem mem_propagateTrace_iff (id : Nat) :
    (∃ v ∈ l.propagateTrace h dirty s, v.node = id) ↔
      id ∈ dirty ∨
        ∃ v ∈ l.propagateTrace h dirty s, v.changed = true ∧ id ∈ l.graph.readersOf v.node := by
  have hagenda := mem_sweepTrace_iff (h := h) (s := s) _ (Queued.ofList hdirty)
    (Nat.le_add_right l.graph.size dirty.length) id
  simp only [Graph.mem_readersOf]
  rwa [Agenda.mem_ofList] at hagenda

theorem propagateTrace_downstream {v : Visit σ} (hv : v ∈ l.propagateTrace h dirty s) :
    v.node ∈ l.graph.downstream dirty := by
  generalize hid : v.node = id
  induction id using Nat.strongRecOn generalizing v with
  | ind id ih =>
      rcases (mem_propagateTrace_iff hdirty id).mp ⟨v, hv, hid⟩ with hid | ⟨w, hw, -, hread⟩
      · exact Graph.mem_downstream.mpr ⟨hdirty id hid, .inl hid⟩
      · rw [Graph.mem_readersOf] at hread
        have hlt : w.node < id := Graph.lt_of_mem_inputs hread
        refine Graph.mem_downstream.mpr ⟨Graph.lt_size_of_mem_inputs hread, .inr ⟨_, hread, ?_⟩⟩
        exact ih w.node hlt hw rfl

theorem length_propagateTrace_le : (l.propagateTrace h dirty s).length ≤ l.graph.size := by
  have hnodup : ((l.propagateTrace h dirty s).map (·.node)).Nodup :=
    (List.pairwise_map.mpr (propagateTrace_ascends h dirty l s)).imp Nat.ne_of_lt
  have hsub : (l.propagateTrace h dirty s).map (·.node) ⊆ List.range l.graph.size := by
    intro id hid
    obtain ⟨v, hv, rfl⟩ := List.mem_map.mp hid
    exact List.mem_range.mpr (Graph.mem_downstream.mp (propagateTrace_downstream hdirty hv)).1
  simpa using hnodup.length_le_of_subset hsub

end

/-- A propagation recomputes nodes in ascending order, each once at most, until there is nothing left
to recompute: the dirty nodes and the readers of the nodes that take a new result, and no others. All
of them are downstream of the dirty ones. Nothing that a node reads changes any more once the node is
recomputed, and what is not visited keeps its result. What is visited is evaluated, in the graph that
the visits before have left, and takes the result if its policy tells it from the one that it has. -/
theorem propagate_ascends (h : Host σ) (l : Live) (s : σ) {dirty : List Nat}
    (hdirty : ∀ id ∈ dirty, id < l.graph.size) :
    let trace := l.propagateTrace h dirty s
    let l' := (l.propagate h dirty s).1
    trace.Pairwise (fun v w => v.node < w.node ∧ w.node ∉ l.graph.inputs v.node) ∧
      (trace.length ≤ l.graph.size ∧ ∀ steps, trace.length ≤ steps →
        sweep h steps (Agenda.ofList dirty) l s = l.propagate h dirty s) ∧
      (∀ id, (∃ v ∈ trace, v.node = id) ↔
        id ∈ dirty ∨ ∃ v ∈ trace, v.changed = true ∧ id ∈ l.graph.readersOf v.node) ∧
      (∀ v ∈ trace, ∀ i ∈ l.graph.inputs v.node, v.before.ledger.get i = l'.ledger.get i) ∧
      (∀ v ∈ trace, v.node ∈ l.graph.downstream dirty) ∧
      (∀ id, (∀ v ∈ trace, v.node ≠ id) → l'.ledger.get id = l.ledger.get id) ∧
      l.propagate h dirty s = recomputeAll h (trace.map (·.node)) (l, s) ∧
      (∀ before v after, trace = before ++ v :: after →
        (v.before, v.state) = recomputeAll h (before.map (·.node)) (l, s)) ∧
      ∀ v ∈ trace,
        let t := v.before.rewatch h v.node v.state
        let r := (t.1.evaluate h v.node t.2).1
        let differs := fun new =>
          !Result.sameAs (l.graph.policyOf v.node) (l.ledger.get v.node) new
        v.changed = differs r ∧ v.changed = differs (l'.ledger.get v.node) ∧
          l'.ledger.get v.node = if v.changed then r else l.ledger.get v.node := by
  intro trace l'
  have hq := Queued.ofList hdirty
  have hsorted := hq.sorted
  refine ⟨?_, ⟨length_propagateTrace_le hdirty,
      fun steps => sweep_of_length_le _ hq (Nat.le_add_right _ _)⟩,
    mem_propagateTrace_iff hdirty, fun v hv i hi => sweepTrace_settled _ hsorted hv hi,
    fun v => propagateTrace_downstream hdirty, fun id => sweep_ledger_of_unvisited _,
    sweep_eq_recomputeAll _, fun before v after => sweepTrace_before _, fun v hv => ?_⟩
  · -- a node reads only nodes with smaller numbers, and they come first
    refine (propagateTrace_ascends h dirty l s).imp fun {v w} hlt => ⟨hlt, fun hread => ?_⟩
    exact hlt.asymm (Graph.lt_of_mem_inputs hread)
  · obtain ⟨hdiffers, htaken⟩ := sweep_result _ hsorted hv
    exact ⟨hdiffers, propagate_changed hv, htaken⟩

/-- The boss is gone: the access to the boss is recomputed, and then the boss's age, which reads it. -/
theorem propagate_ascends_bossAge :
    let h := World.host (World.dispatch World.callDepth) .recorder
    let l := (adoptBound h .bossAge .live World.employee World.staff).1
    let w := World.staff.modifyObject 0 (·.write "boss" .null)
    (∀ id ∈ [1], id < l.graph.size) ∧ (l.propagateTrace h [1] w).map (·.node) = [1, 2] ∧
      (∀ v ∈ l.propagateTrace h [1] w, ∀ i ∈ l.graph.inputs v.node,
        v.before.ledger.get i = (l.propagate h [1] w).1.ledger.get i) ∧
      (∀ v ∈ l.propagateTrace h [1] w, v.node ∈ l.graph.downstream [1]) ∧
      l.propagate h [1] w = recomputeAll h [1, 2] (l, w) := by
  intro h l w
  have hdirty : ∀ id ∈ [1], id < l.graph.size := by decide +kernel
  have hnodes : (l.propagateTrace h [1] w).map (·.node) = [1, 2] := by decide +kernel
  obtain ⟨-, -, -, hinputs, hdown, -, hrecomputed, -⟩ := propagate_ascends h l w hdirty
  rw [hnodes] at hrecomputed
  exact ⟨hdirty, hnodes, hinputs, hdown, hrecomputed⟩

end Live

end LiveExpr
