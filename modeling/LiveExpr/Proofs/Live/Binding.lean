import LiveExpr.Proofs.Live.Adoption

/-!
What binding, unbinding and an announced change leave behind: the parameter has what was bound, the
nodes that had to be recomputed are settled, and the others are as they were.
-/

namespace LiveExpr.Live

variable {σ : Type} {h : Host σ} {read : String → Value → Value}

/-! ## The parameter -/

/-- A parameter keeps its result, even when it is recomputed. -/
theorem Recomputed.parameter {id j : Nat} {l l' : Live} {s s' : σ} {changed : Bool}
    (hr : Recomputed h id l s changed l' s') (hj : l.kindAt j = some .parameter) :
    l'.ledger.get j = l.ledger.get j := by
  by_cases hne : j = id
  · subst hne
    cases hr with
    | @mk l₁ _ s₁ s₂ _ r _ hw he ha =>
        have hown : r = l.ledger.get j := by
          have hk : l₁.kindAt j = some .parameter := by rw [kindAt_of_graph hw.frame.graph, hj]
          have hdue := @evaluate_of_not_member _ h (fun _ v => v) l₁ j (by rw [hk]; rfl) s₁
          rw [he, due, hk] at hdue
          rw [← hw.ledger]
          exact hdue
        cases ha with
        | same => rw [hw.ledger]
        | new => rw [setResult_ledger_get, if_pos rfl, hown]
  · cases hr with
    | mk hw _ ha =>
        rw [← hw.ledger]
        cases ha with
        | same => rfl
        | new => rw [setResult_ledger_get, if_neg hne]

def withParameter (l : Live) (b : Bool) (r : Result) : Live :=
  { l with bound := b }.setResult l.parameter r

theorem sameAt_withParameter (l : Live) (b : Bool) (r : Result) {j : Nat} (hj : j ≠ l.parameter)
    (hread : j ∉ l.graph.readersOf l.parameter) : SameAt l (l.withParameter b r) j := by
  have hinputs : l.parameter ∉ l.graph.inputs j := fun hin => hread (Graph.mem_readersOf.mpr hin)
  have hsame := SameAt.setResult l r hj hinputs
  exact ⟨hsame.result, hsame.inputs, hsame.watch⟩

theorem settled_of_parameter {l : Live} {id : Nat} (hk : l.kindAt id = some .parameter) :
    l.Settled read id := by
  rw [Settled, due, hk]
  exact BEq.rfl

/-! ## The result of the whole -/

theorem settleRoot_eq (l : Live) (target : Result) :
    ∃ r cs, l.settleRoot target = { l with root := r, pending := l.pending ++ cs } ∧ r == target := by
  unfold settleRoot
  split
  · rename_i hsame
    refine ⟨l.root, [], ?_, Result.equal_of_sameAs hsame⟩
    rw [List.append_nil]
  · exact ⟨target, _, rfl, BEq.rfl⟩

/-- The same graph with the same results: only the result of the whole may differ. -/
structure SameLedger (l l' : Live) : Prop where
  graph : l'.graph = l.graph
  parameter : l'.parameter = l.parameter
  body : l'.body = l.body
  mode : l'.mode = l.mode
  bound : l'.bound = l.bound
  ledger : l'.ledger = l.ledger
  watches : l'.watches = l.watches

theorem settleRoot_sameLedger (l : Live) (target : Result) : SameLedger l (l.settleRoot target) := by
  obtain ⟨r, cs, heq, -⟩ := settleRoot_eq l target
  rw [heq]
  exact ⟨rfl, rfl, rfl, rfl, rfl, rfl, rfl⟩

theorem SameLedger.copyOf {p : Prototype} {l l' : Live} (hl : SameLedger l l') (hc : CopyOf p l) :
    CopyOf p l' where
  nodes := by rw [hl.graph, hl.mode, hc.nodes]
  parameter := hl.parameter.trans hc.parameter
  body := hl.body.trans hc.body
  watches := by rw [hl.watches, hl.graph, hc.watches]

theorem SameLedger.sameAt {l l' : Live} (hl : SameLedger l l') (j : Nat) : SameAt l l' j := by
  refine ⟨by rw [hl.ledger], fun i _ => by rw [hl.ledger], ?_⟩
  rw [watchAt, hl.watches, watchAt]

theorem SameLedger.settled {l l' : Live} (hl : SameLedger l l') (j : Nat) :
    l'.Settled read j ↔ l.Settled read j :=
  (hl.sameAt j).settled hl.graph

/-! ## What follows changes -/

theorem observedMember?_of_graph {l l' : Live} (hg : l'.graph = l.graph) (node : Nat) :
    l'.observedMember? node = l.observedMember? node := by
  rw [observedMember?, observedMember?, hg]

theorem lt_size_of_observed {l : Live} {node : Nat} {member : String}
    (hm : l.observedMember? node = some member) : node < l.graph.size := by
  unfold observedMember? at hm
  split at hm
  · rename_i heq
    exact (Array.getElem?_eq_some_iff.mp heq).1
  · cases hm

theorem observes_of_observedMember? {l : Live} {j : Nat} {member : String}
    (hm : l.observedMember? j = some member) : l.graph.observes j = true := by
  unfold observedMember? at hm
  split at hm
  · rename_i heq
    rw [Graph.observes, heq]
    rfl
  · cases hm

theorem mem_bindAgenda_of_observes {l : Live} {j : Nat} (hj : l.graph.observes j = true) :
    j ∈ l.bindAgenda := by
  refine List.mem_append.mpr (.inr (List.mem_filter.mpr ⟨List.mem_range.mpr ?_, hj⟩))
  by_contra hlt
  rw [Graph.observes, Array.getElem?_eq_none (Nat.le_of_not_lt hlt)] at hj
  cases hj

theorem mem_bindAgenda_of_observed {l : Live} {j : Nat} {member : String}
    (hm : l.observedMember? j = some member) : j ∈ l.bindAgenda :=
  mem_bindAgenda_of_observes (observes_of_observedMember? hm)

theorem mem_bindAgenda_of_reader {l : Live} {j : Nat} (hj : j ∈ l.graph.readersOf l.parameter) :
    j ∈ l.bindAgenda :=
  List.mem_append.mpr (.inl hj)

/-! ## Binding -/

theorem copyOf_withParameter {p : Prototype} {l : Live} (hl : CopyOf p l) (b : Bool) (r : Result) :
    CopyOf p (l.withParameter b r) :=
  ⟨hl.nodes, hl.parameter, hl.body, hl.watches⟩

theorem bind_eq (h : Host σ) (v : Value) (l : Live) (s : σ) :
    l.bind h v s =
      let t := (l.withParameter true (some v)).propagate h l.bindAgenda (h.note (.binding v) s)
      (t.1.settleOnBody, t.2) := rfl

theorem memberChanged_eq (h : Host σ) (node : Nat) {l : Live} (hb : l.bound = true) (s : σ) :
    l.memberChanged h node s =
      let t := l.propagate h [node] s
      (t.1.settleOnBody, t.2) := by
  rw [memberChanged, if_pos hb]

theorem memberChanged_unbound (h : Host σ) (node : Nat) {l : Live} (hb : l.bound = false) (s : σ) :
    l.memberChanged h node s = (l, s) := by
  rw [memberChanged, hb]
  rfl

theorem propagate_frame (h : Host σ) (dirty : List Nat) (l : Live) (s : σ) :
    SameFrame l (l.propagate h dirty s).1 :=
  (propagate_visits (fun _ _ => True) (fun _ _ _ => True) (fun _ _ => ⟨trivial, trivial⟩)
    (fun _ _ _ _ => trivial) dirty trivial).2.1

theorem propagate_parameter (h : Host σ) (dirty : List Nat) {l : Live} {j : Nat}
    (hj : l.kindAt j = some .parameter) (s : σ) :
    (l.propagate h dirty s).1.ledger.get j = l.ledger.get j := by
  have hvisits := propagate_visits (h := h)
    (fun m _ => m.kindAt j = some .parameter ∧ m.ledger.get j = l.ledger.get j) (fun _ _ _ => True)
    (fun hI hr => ⟨⟨by rw [kindAt_of_graph hr.frame.graph, hI.1],
      (hr.parameter hI.1).trans hI.2⟩, trivial⟩)
    (fun _ _ _ _ => trivial) dirty (l := l) (s := s) ⟨hj, rfl⟩
  exact hvisits.1.2

theorem bind_graph (h : Host σ) (v : Value) (l : Live) (s : σ) :
    (l.bind h v s).1.graph = l.graph ∧ (l.bind h v s).1.parameter = l.parameter := by
  have hframe := propagate_frame h l.bindAgenda (l.withParameter true (some v)) (h.note (.binding v) s)
  rw [bind_eq]
  have hlast := settleRoot_sameLedger ((l.withParameter true (some v)).propagate h l.bindAgenda
    (h.note (.binding v) s)).1
  exact ⟨(hlast _).graph.trans hframe.graph, (hlast _).parameter.trans hframe.parameter⟩

/-- Whatever the host does: the parameter has what was bound, and the result of the whole is the
body's. -/
theorem bind_bound {e : Lambda} {p : Prototype} (hp : e.compile = .ok p) {l : Live} (hl : CopyOf p l)
    (h : Host σ) (v : Value) (s : σ) :
    CopyOf p (l.bind h v s).1 ∧ (l.bind h v s).1.mode = l.mode ∧ (l.bind h v s).1.bound = true ∧
      (l.bind h v s).1.ledger.get (l.bind h v s).1.parameter = some v ∧
      (l.bind h v s).1.root == (l.bind h v s).1.ledger.get (l.bind h v s).1.body := by
  have hm := copyOf_withParameter hl true (some v)
  have hpar : (l.withParameter true (some v)).kindAt l.parameter = some .parameter :=
    (hm.kindAt_parameter hp l.parameter).mpr rfl
  have hframe := propagate_frame h l.bindAgenda (l.withParameter true (some v)) (h.note (.binding v) s)
  have hkept := propagate_parameter h l.bindAgenda hpar (h.note (.binding v) s)
  rw [bind_eq]
  generalize (l.withParameter true (some v)).propagate h l.bindAgenda (h.note (.binding v) s) = t at *
  obtain ⟨r, cs, hroot, heq⟩ := settleRoot_eq t.1 (t.1.ledger.get t.1.body)
  have hlast := settleRoot_sameLedger t.1 (t.1.ledger.get t.1.body)
  simp only [settleOnBody]
  refine ⟨hlast.copyOf (hm.ofFrame hframe), hlast.mode.trans hframe.mode,
    hlast.bound.trans hframe.bound, ?_, ?_⟩
  · rw [hlast.ledger, hlast.parameter, hframe.parameter]
    refine hkept.trans ?_
    rw [withParameter, setResult_ledger_get, if_pos rfl]
  · rw [hroot]
    exact heq

/-- The parameter gets a new result, and its readers at least are recomputed: a node that is not is as
it was. -/
theorem reset_settles {e : Lambda} {p : Prototype} (hp : e.compile = .ok p) {l : Live}
    (hl : CopyOf p l) (b : Bool) (r : Result) (dirty : List Nat)
    (hdirty : ∀ j ∈ l.graph.readersOf l.parameter, j ∈ dirty) {s : σ} (hs : h.Still read s) :
    let t := (l.withParameter b r).propagate h dirty s
    h.Still read t.2 ∧ ∀ target j, (t.1.settleRoot target).Settled read j ∨
      (SameAt l (t.1.settleRoot target) j ∧ j ≠ l.parameter ∧ j ∉ dirty) := by
  intro t
  have hm := copyOf_withParameter hl b r
  obtain ⟨hs', hframe, hall⟩ := propagate_settles dirty (l.withParameter b r) hs
  refine ⟨hs', fun target j => ?_⟩
  have hlast := settleRoot_sameLedger t.1 target
  rcases hall j with hj | ⟨hsame, hclean⟩
  · exact .inl ((hlast.settled j).mpr hj)
  · by_cases hpar : j = l.parameter
    · refine .inl (settled_of_parameter ?_)
      exact ((hlast.copyOf (hm.ofFrame hframe)).kindAt_parameter hp j).mpr
        (hpar.trans (hlast.parameter.trans hframe.parameter).symm)
    · have hstart := sameAt_withParameter l b r hpar fun hr => hclean (hdirty j hr)
      have hgraph : (l.withParameter b r).graph = l.graph := rfl
      exact .inr ⟨hstart.trans hgraph (hsame.trans hframe.graph (hlast.sameAt j)), hpar, hclean⟩

theorem bind_settles {e : Lambda} {p : Prototype} (hp : e.compile = .ok p) {l : Live} (hl : CopyOf p l)
    (v : Value) {s : σ} (hs : h.Still read s) :
    h.Still read (l.bind h v s).2 ∧ ∀ j, (l.bind h v s).1.Settled read j ∨
      (SameAt l (l.bind h v s).1 j ∧ j ≠ l.parameter ∧ j ∉ l.bindAgenda) := by
  obtain ⟨hs', hall⟩ := reset_settles hp hl true (some v) l.bindAgenda
    (fun _ hj => mem_bindAgenda_of_reader hj) (hs.note (.binding v))
  exact ⟨hs', hall _⟩

def adoptBound (h : Host σ) (p : Prototype) (mode : BindingMode) (v : Value) (s : σ) : Live × σ :=
  (adopt h p mode s).1.bind h v (adopt h p mode s).2

/-- What is given back is the result of the whole while the value is bound. -/
theorem evaluateOnce_result (h : Host σ) (v : Value) (l : Live) (s : σ) :
    (l.evaluateOnce h v s).1 = (l.bind h v s).1.root := rfl

theorem adoptBound_bound {e : Lambda} {p : Prototype} (hp : e.compile = .ok p) (h : Host σ)
    (mode : BindingMode) (v : Value) (s : σ) :
    let l := (adoptBound h p mode v s).1
    CopyOf p l ∧ l.ledger.get l.parameter = some v ∧ l.root == l.ledger.get l.body := by
  obtain ⟨hcopy, -, -, hparam, hroot⟩ :=
    bind_bound hp (adopt_fresh hp h mode s).toCopyOf h v (adopt h p mode s).2
  exact ⟨hcopy, hparam, hroot⟩

theorem adoptBound_settled {e : Lambda} {p : Prototype} (hp : e.compile = .ok p) (mode : BindingMode)
    (v : Value) {s : σ} (hs : h.Still read s) (id : Nat) :
    (adoptBound h p mode v s).1.Settled read id := by
  obtain ⟨hs', hsettled⟩ := adopt_settles h p mode hs
  have hcopy := (adopt_fresh hp h mode s).toCopyOf
  rcases (bind_settles hp hcopy v hs').2 id with hid | ⟨hsame, -⟩
  · exact hid
  · exact (hsame.settled (bind_graph ..).1).mpr (hsettled id)

/-- A copy whose results are all settled has those of a new copy bound to the same value. -/
theorem CopyOf.results_eq {e : Lambda} {p : Prototype} (hp : e.compile = .ok p) {l : Live}
    (hl : CopyOf p l) {v : Value} (hv : l.ledger.get l.parameter = some v)
    (hsettled : ∀ id, l.Settled read id) {s : σ} (hs : h.Still read s) (mode : BindingMode) (id : Nat) :
    l.ledger.get id == (adoptBound h p mode v s).1.ledger.get id := by
  obtain ⟨hcopy, hparam, -⟩ := adoptBound_bound hp h mode v s
  refine (hl.sameRules hcopy).results_eq hs.congr (fun j hj => ?_) hsettled
    (adoptBound_settled hp mode v hs) id
  obtain rfl := (hl.kindAt_parameter hp j).mp hj
  rw [hv, hl.parameter, ← hcopy.parameter, hparam]
  exact BEq.rfl

theorem CopyOf.root_eq {e : Lambda} {p : Prototype} (hp : e.compile = .ok p) {l : Live}
    (hl : CopyOf p l) (hroot : l.root == l.ledger.get l.body) {v : Value} {s : σ}
    (hall : ∀ id, l.ledger.get id == (adoptBound h p .oneTime v s).1.ledger.get id) :
    l.root == ((adopt h p .oneTime s).1.evaluateOnce h v (adopt h p .oneTime s).2).1 := by
  obtain ⟨hcopy, -, hroot'⟩ := adoptBound_bound hp h .oneTime v s
  have hbody := hall l.body
  rw [hl.body.trans hcopy.body.symm] at hroot hbody
  rw [evaluateOnce_result]
  exact BEq.trans hroot (BEq.trans hbody (BEq.symm hroot'))

end LiveExpr.Live
