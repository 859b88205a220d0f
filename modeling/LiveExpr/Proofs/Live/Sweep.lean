import LiveExpr.Proofs.Live.Step
import Mathlib.Tactic

/-!
A propagation visits every node it has to: when it ends, a node has either been recomputed since
anything it depends on changed, or nothing about it has changed at all.
-/

namespace LiveExpr

/-! ## The agenda -/

namespace Agenda

theorem mem_insert {id j : Nat} {a : List Nat} : j ∈ insert id a ↔ j = id ∨ j ∈ a := by
  induction a with
  | nil => simp [insert]
  | cons k a ih =>
      unfold insert
      split
      · simp
      · split
        · subst id; simp
        · simp only [List.mem_cons, ih]
          tauto

theorem mem_insertAll {j : Nat} {ids a : List Nat} : j ∈ insertAll ids a ↔ j ∈ ids ∨ j ∈ a := by
  induction ids generalizing a with
  | nil => simp [insertAll]
  | cons id ids ih =>
      change j ∈ insertAll ids (insert id a) ↔ _
      rw [ih, mem_insert, List.mem_cons]
      tauto

theorem mem_ofList {j : Nat} {ids : List Nat} : j ∈ ofList ids ↔ j ∈ ids := by
  simp [ofList, mem_insertAll]

theorem sorted_insert {a : List Nat} (id : Nat) (h : a.Pairwise (· < ·)) :
    (insert id a).Pairwise (· < ·) := by
  induction a with
  | nil => simp [insert]
  | cons k a ih =>
      obtain ⟨hk, ha⟩ := List.pairwise_cons.mp h
      unfold insert
      split
      · refine List.pairwise_cons.mpr ⟨fun j hj => ?_, h⟩
        rcases List.mem_cons.mp hj with rfl | hj
        · assumption
        · exact Nat.lt_trans (by assumption) (hk j hj)
      · split
        · exact h
        · refine List.pairwise_cons.mpr ⟨fun j hj => ?_, ih ha⟩
          rcases mem_insert.mp hj with rfl | hj
          · omega
          · exact hk j hj

theorem sorted_insertAll {a : List Nat} (ids : List Nat) (h : a.Pairwise (· < ·)) :
    (insertAll ids a).Pairwise (· < ·) := by
  induction ids generalizing a with
  | nil => exact h
  | cons id ids ih => exact ih (sorted_insert id h)

theorem sorted_ofList (ids : List Nat) : (ofList ids).Pairwise (· < ·) :=
  sorted_insertAll ids .nil

theorem length_insert_le (id : Nat) (a : List Nat) : (insert id a).length ≤ a.length + 1 := by
  induction a with
  | nil => simp [insert]
  | cons k a ih =>
      unfold insert
      split
      · simp
      · split <;> simp [ih]

theorem length_insertAll_le (ids a : List Nat) : (insertAll ids a).length ≤ ids.length + a.length := by
  induction ids generalizing a with
  | nil => simp [insertAll]
  | cons id ids ih =>
      have hinsert := length_insert_le id a
      have hrest := ih (insert id a)
      change (insertAll ids (insert id a)).length ≤ _
      rw [List.length_cons]
      omega

theorem countP_insertAll {size : Nat} {ids : List Nat} (hids : ∀ id ∈ ids, id < size) (a : List Nat) :
    (insertAll ids a).countP (size ≤ ·) = a.countP (size ≤ ·) := by
  induction ids generalizing a with
  | nil => rfl
  | cons id ids ih =>
      have hid : id < size := hids id (by simp)
      refine (ih (fun j hj => hids j (by simp [hj])) (insert id a)).trans ?_
      clear ih hids
      induction a with
      | nil => simp [insert, hid]
      | cons k a ih =>
          unfold insert
          split
          · simp [List.countP_cons, hid]
          · split
            · rfl
            · simp only [List.countP_cons, ih]

end Agenda

/-! ## The sweep -/

/-- One step of a sweep: the node that is recomputed, the graph and the world before, and whether the
node takes a new result. -/
structure Visit (σ : Type) where
  node : Nat
  before : Live
  state : σ
  changed : Bool

namespace Live

variable {σ : Type} {h : Host σ}

def nextAgenda (l : Live) (id : Nat) (rest : List Nat) (changed : Bool) : List Nat :=
  if changed then Agenda.insertAll (l.graph.readersOf id) rest else rest

theorem mem_nextAgenda {l : Live} {id j : Nat} {rest : List Nat} {changed : Bool} :
    j ∈ l.nextAgenda id rest changed ↔ (changed = true ∧ id ∈ l.graph.inputs j) ∨ j ∈ rest := by
  cases changed <;> simp [nextAgenda, Agenda.mem_insertAll, Graph.mem_readersOf]

theorem nextAgenda_sorted {l : Live} {id : Nat} {rest : List Nat} {changed : Bool}
    (hrest : rest.Pairwise (· < ·)) : (l.nextAgenda id rest changed).Pairwise (· < ·) := by
  unfold nextAgenda
  split
  · exact Agenda.sorted_insertAll _ hrest
  · exact hrest

theorem lt_of_mem_nextAgenda {l : Live} {id j : Nat} {rest : List Nat} {changed : Bool}
    (hid : ∀ i ∈ rest, id < i) (hj : j ∈ l.nextAgenda id rest changed) : id < j := by
  rcases mem_nextAgenda.mp hj with ⟨-, hj⟩ | hj
  · exact Graph.lt_of_mem_inputs hj
  · exact hid j hj

theorem sweep_cons (steps id : Nat) (rest : List Nat) (l : Live) (s : σ) :
    sweep h (steps + 1) (id :: rest) l s =
      sweep h steps ((l.recompute h id s).2.1.nextAgenda id rest (l.recompute h id s).1)
        (l.recompute h id s).2.1 (l.recompute h id s).2.2 := rfl

/-! ## What a sweep visits -/

def sweepTrace (h : Host σ) : Nat → List Nat → Live → σ → List (Visit σ)
  | 0, _, _, _ => []
  | _ + 1, [], _, _ => []
  | steps + 1, id :: rest, l, s =>
    let (changed, l', s') := l.recompute h id s
    ⟨id, l, s, changed⟩ :: sweepTrace h steps (l'.nextAgenda id rest changed) l' s'

def propagateTrace (h : Host σ) (dirty : List Nat) (l : Live) (s : σ) : List (Visit σ) :=
  sweepTrace h (l.graph.size + dirty.length) (Agenda.ofList dirty) l s

def recomputeAll (h : Host σ) (ids : List Nat) (t : Live × σ) : Live × σ :=
  ids.foldl (fun t id => (t.1.recompute h id t.2).2) t

variable {l : Live} {s : σ} {agenda : List Nat}

theorem sweepTrace_cons (steps id : Nat) (rest : List Nat) (l : Live) (s : σ) :
    sweepTrace h (steps + 1) (id :: rest) l s = ⟨id, l, s, (l.recompute h id s).1⟩ ::
      sweepTrace h steps ((l.recompute h id s).2.1.nextAgenda id rest (l.recompute h id s).1)
        (l.recompute h id s).2.1 (l.recompute h id s).2.2 := rfl

/-- A sweep recomputes what it visits, one node after the other. -/
theorem sweep_eq_recomputeAll (steps : Nat) :
    sweep h steps agenda l s =
      recomputeAll h ((sweepTrace h steps agenda l s).map (·.node)) (l, s) := by
  induction steps generalizing agenda l s with
  | zero => rfl
  | succ steps ih =>
      cases agenda with
      | nil => rfl
      | cons id rest =>
          rw [sweep_cons, sweepTrace_cons]
          exact ih

theorem sweepTrace_before (steps : Nat) {before after : List (Visit σ)} {v : Visit σ}
    (heq : sweepTrace h steps agenda l s = before ++ v :: after) :
    (v.before, v.state) = recomputeAll h (before.map (·.node)) (l, s) := by
  induction steps generalizing agenda l s before with
  | zero => cases before <;> cases heq
  | succ steps ih =>
      cases agenda with
      | nil => cases before <;> cases heq
      | cons id rest =>
          rw [sweepTrace_cons] at heq
          cases before with
          | nil =>
              obtain ⟨rfl, -⟩ := List.cons.inj heq
              rfl
          | cons first before =>
              obtain ⟨rfl, hrest⟩ := List.cons.inj heq
              exact (ih hrest :)

/-- What a sweep has left behind is not met again. -/
theorem le_of_mem_sweepTrace (steps : Nat) {least : Nat} (hsorted : agenda.Pairwise (· < ·))
    (hleast : ∀ id ∈ agenda, least ≤ id) {v : Visit σ} (hv : v ∈ sweepTrace h steps agenda l s) :
    least ≤ v.node := by
  induction steps generalizing least agenda l s with
  | zero => cases hv
  | succ steps ih =>
      cases agenda with
      | nil => cases hv
      | cons id rest =>
          obtain ⟨hid, hrest⟩ := List.pairwise_cons.mp hsorted
          have hle := hleast id List.mem_cons_self
          rcases List.mem_cons.mp hv with rfl | hv
          · exact hle
          · have := ih (nextAgenda_sorted hrest) (fun j hj => lt_of_mem_nextAgenda hid hj) hv
            omega

/-- The rest of a sweep is beyond the node that it has just come by. -/
theorem lt_of_mem_sweepTrace (steps : Nat) {id : Nat} {rest : List Nat} {changed : Bool}
    (hsorted : (id :: rest).Pairwise (· < ·)) {v : Visit σ}
    (hv : v ∈ sweepTrace h steps (l.nextAgenda id rest changed) l s) : id < v.node := by
  obtain ⟨hid, hrest⟩ := List.pairwise_cons.mp hsorted
  exact le_of_mem_sweepTrace steps (nextAgenda_sorted hrest)
    (fun _ hj => lt_of_mem_nextAgenda hid hj) hv

theorem sweep_ledger_of_unvisited (steps : Nat) {id : Nat}
    (hid : ∀ v ∈ sweepTrace h steps agenda l s, v.node ≠ id) :
    (sweep h steps agenda l s).1.ledger.get id = l.ledger.get id := by
  induction steps generalizing agenda l s with
  | zero => rfl
  | succ steps ih =>
      cases agenda with
      | nil => rfl
      | cons first rest =>
          rw [sweepTrace_cons, List.forall_mem_cons] at hid
          obtain ⟨hfirst, hrest⟩ := hid
          rw [sweep_cons, ih hrest]
          exact (recompute_spec h first l s).ledger_of_ne hfirst.symm

/-- A visited node is recomputed in a graph that still has its own result, and what it takes then is its
result in the end. -/
theorem sweep_ledger_of_visited (steps : Nat) (hsorted : agenda.Pairwise (· < ·)) {v : Visit σ}
    (hv : v ∈ sweepTrace h steps agenda l s) :
    v.before.graph = l.graph ∧ v.before.ledger.get v.node = l.ledger.get v.node ∧
      (v.changed, (sweep h steps agenda l s).1.ledger.get v.node) =
        ((v.before.recompute h v.node v.state).1,
          (v.before.recompute h v.node v.state).2.1.ledger.get v.node) := by
  induction steps generalizing agenda l s with
  | zero => cases hv
  | succ steps ih =>
      cases agenda with
      | nil => cases hv
      | cons id rest =>
          have hr := recompute_spec h id l s
          rw [sweepTrace_cons] at hv
          rw [sweep_cons]
          have hsorted' : ((l.recompute h id s).2.1.nextAgenda id rest (l.recompute h id s).1).Pairwise
              (· < ·) := nextAgenda_sorted (List.pairwise_cons.mp hsorted).2
          rcases List.mem_cons.mp hv with rfl | hv
          · refine ⟨rfl, rfl, ?_⟩
            -- the rest of the sweep is beyond the node
            rw [sweep_ledger_of_unvisited steps fun v hv => ?_]
            exact (lt_of_mem_sweepTrace steps hsorted hv).ne'
          · obtain ⟨hgraph, hown, hend⟩ := ih hsorted' hv
            have hne := (lt_of_mem_sweepTrace steps hsorted hv).ne'
            exact ⟨hgraph.trans hr.frame.graph, hown.trans (hr.ledger_of_ne hne), hend⟩

/-- A visited node has been evaluated, and has taken the result if its policy tells it from the old one. -/
theorem sweep_result (steps : Nat) (hsorted : agenda.Pairwise (· < ·)) {v : Visit σ}
    (hv : v ∈ sweepTrace h steps agenda l s) :
    let t := v.before.rewatch h v.node v.state
    let r := (t.1.evaluate h v.node t.2).1
    v.changed = !Result.sameAs (l.graph.policyOf v.node) (l.ledger.get v.node) r ∧
      (sweep h steps agenda l s).1.ledger.get v.node =
        if v.changed then r else l.ledger.get v.node := by
  obtain ⟨hgraph, hown, hend⟩ := sweep_ledger_of_visited steps hsorted hv
  obtain ⟨hchanged, hresult⟩ := Prod.mk.inj hend
  have hrecomputed := recompute_result h v.node v.before v.state
  rwa [← hchanged, ← hresult, hgraph, hown] at hrecomputed

/-! ## What a sweep keeps -/

/-- The steps left are enough when there is one for every node from `least` on and one for every
entry that names no node. -/
theorem sweep_preserves {P : List Nat → Live → σ → Prop} {g : Graph}
    (step : ∀ {id rest l s changed l' s'}, l.graph = g → P (id :: rest) l s →
      Recomputed h id l s changed l' s' → P (l'.nextAgenda id rest changed) l' s')
    (steps least : Nat) {agenda : List Nat} {l : Live} {s : σ} (hg : l.graph = g)
    (hsorted : agenda.Pairwise (· < ·)) (hleast : ∀ id ∈ agenda, least ≤ id)
    (henough : (g.size - least) + agenda.countP (g.size ≤ ·) ≤ steps) (hP : P agenda l s) :
    P [] (sweep h steps agenda l s).1 (sweep h steps agenda l s).2 := by
  induction steps generalizing least agenda l s with
  | zero =>
      have hnil : agenda = [] := by
        refine List.eq_nil_iff_forall_not_mem.mpr fun id hid => ?_
        have hcount : agenda.countP (g.size ≤ ·) = 0 := by omega
        have := List.countP_eq_zero.mp hcount id hid
        have := hleast id hid
        simp only [decide_eq_true_eq] at *
        omega
      subst hnil
      exact hP
  | succ steps ih =>
      cases agenda with
      | nil => exact hP
      | cons id rest =>
          obtain ⟨hid, hrest⟩ := List.pairwise_cons.mp hsorted
          have hr := recompute_spec h id l s
          rw [sweep_cons]
          generalize l.recompute h id s = t at *
          obtain ⟨changed, l', s'⟩ := t
          simp only at hr ⊢
          have hg' : l'.graph = g := hr.frame.graph.trans hg
          have hcount : (l'.nextAgenda id rest changed).countP (g.size ≤ ·) =
              rest.countP (g.size ≤ ·) := by
            unfold nextAgenda
            split
            · refine Agenda.countP_insertAll (fun j hj => ?_) rest
              rw [hg', Graph.mem_readersOf] at hj
              exact Graph.lt_size_of_mem_inputs hj
            · rfl
          refine ih (id + 1) hg' (nextAgenda_sorted hrest) (fun j hj => ?_) ?_ (step hg hP hr)
          · exact lt_of_mem_nextAgenda hid hj
          · have hle := hleast id (by simp)
            rw [List.countP_cons] at henough
            by_cases hsize : g.size ≤ id
            · simp only [hsize, decide_true, if_true] at henough
              omega
            · simp only [hsize, decide_false, Bool.false_eq_true, if_false] at henough
              omega

theorem propagate_preserves {P : List Nat → Live → σ → Prop} {g : Graph}
    (step : ∀ {id rest l s changed l' s'}, l.graph = g → P (id :: rest) l s →
      Recomputed h id l s changed l' s' → P (l'.nextAgenda id rest changed) l' s')
    {dirty : List Nat} {l : Live} {s : σ} (hg : l.graph = g) (hP : P (Agenda.ofList dirty) l s) :
    P [] (propagate h dirty l s).1 (propagate h dirty l s).2 := by
  refine sweep_preserves step _ 0 hg (Agenda.sorted_ofList dirty) (by simp) ?_ hP
  have hcount := List.countP_le_length (p := (g.size ≤ ·)) (l := Agenda.ofList dirty)
  have hlength := Agenda.length_insertAll_le dirty []
  rw [hg]
  simp only [Agenda.ofList, List.length_nil] at *
  omega

/-- `Done` may be anything that holds of a node once it has been recomputed, and that goes on to hold
while nothing about the node changes. -/
theorem propagate_visits (I : Live → σ → Prop) (Done : Live → σ → Nat → Prop)
    (visit : ∀ {id l s changed l' s'}, I l s → Recomputed h id l s changed l' s' →
      I l' s' ∧ Done l' s' id)
    (keep : ∀ {id j l s changed l' s'}, I l s → Recomputed h id l s changed l' s' →
      SameAt l l' j → Done l s j → Done l' s' j)
    (dirty : List Nat) {l : Live} {s : σ} (hI : I l s) :
    I (l.propagate h dirty s).1 (l.propagate h dirty s).2 ∧
      SameFrame l (l.propagate h dirty s).1 ∧
      ∀ j, Done (l.propagate h dirty s).1 (l.propagate h dirty s).2 j ∨
        (SameAt l (l.propagate h dirty s).1 j ∧ j ∉ dirty) := by
  let P (agenda : List Nat) (m : Live) (t : σ) : Prop :=
    I m t ∧ SameFrame l m ∧ ∀ j, j ∈ agenda ∨ Done m t j ∨ (SameAt l m j ∧ j ∉ dirty)
  have hstart : P (Agenda.ofList dirty) l s := by
    refine ⟨hI, .refl l, fun j => ?_⟩
    by_cases hj : j ∈ dirty
    · exact .inl (Agenda.mem_ofList.mpr hj)
    · exact .inr (.inr ⟨.refl l j, hj⟩)
  have hend := propagate_preserves (h := h) (P := P) (g := l.graph) ?_ rfl hstart
  · obtain ⟨hI', hframe, hall⟩ := hend
    exact ⟨hI', hframe, fun j => (hall j).resolve_left (by simp)⟩
  · intro id rest m t changed m' t' _ hP hr
    obtain ⟨hIm, hframe, hall⟩ := hP
    obtain ⟨hIm', hdone⟩ := visit hIm hr
    refine ⟨hIm', hframe.trans hr.frame, fun j => ?_⟩
    by_cases hj : j = id
    · exact .inr (.inl (hj ▸ hdone))
    · by_cases hread : changed = true ∧ id ∈ m.graph.inputs j
      · exact .inl (mem_nextAgenda.mpr (.inl ⟨hread.1, hr.frame.graph ▸ hread.2⟩))
      · -- nothing that `j` depends on has moved, so that what held of it still does
        have hsame : SameAt m m' j := hr.sameAt hj fun hc hid => hread ⟨hc, hid⟩
        rcases hall j with hmem | hdone | ⟨hsame', hclean⟩
        · exact .inl (mem_nextAgenda.mpr (.inr ((List.mem_cons.mp hmem).resolve_left hj)))
        · exact .inr (.inl (keep hIm hr hsame hdone))
        · exact .inr (.inr ⟨hsame'.trans hframe.graph hsame, hclean⟩)

end Live

end LiveExpr
