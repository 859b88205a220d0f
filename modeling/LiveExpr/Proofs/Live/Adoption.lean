import LiveExpr.Proofs.Compile.Copy
import LiveExpr.Proofs.Compile.Represents
import LiveExpr.Proofs.Live.Settled

/-!
A new copy of a prototype is settled throughout, with nothing bound and nothing followed.
-/

namespace LiveExpr.Live

variable {σ : Type} {h : Host σ} {read : String → Value → Value}

/-! ## Evaluating every node once -/

theorem store_frame (h : Host σ) (l : Live) (s : σ) (id : Nat) : SameFrame l (store h (l, s) id).1 :=
  .setResult l id _

theorem store_sameAt (h : Host σ) (l : Live) (s : σ) {id j : Nat} (hj : j < id) :
    SameAt l (store h (l, s) id).1 j := by
  refine .setResult l _ (Nat.ne_of_lt hj) fun hid => ?_
  have := Graph.lt_of_mem_inputs hid
  omega

/-- `Done` may be anything that holds of a node once its result has been stored, and that goes on to
hold while nothing about the node changes. -/
theorem foldl_store_visits (I : Live → σ → Prop) (Done : Live → Nat → Prop)
    (visit : ∀ {id l s}, I l s →
      I (store h (l, s) id).1 (store h (l, s) id).2 ∧ Done (store h (l, s) id).1 id)
    (keep : ∀ {j l l'}, SameFrame l l' → SameAt l l' j → Done l j → Done l' j)
    (l : Live) (s : σ) (hI : I l s) (size : Nat) :
    let t := (List.range size).foldl (store h) (l, s)
    I t.1 t.2 ∧ SameFrame l t.1 ∧ t.1.watches = l.watches ∧ (∀ j < size, Done t.1 j) ∧
      ∀ j, size ≤ j → t.1.ledger.get j = l.ledger.get j := by
  induction size with
  | zero => exact ⟨hI, .refl l, rfl, by simp, fun _ _ => rfl⟩
  | succ id ih =>
      simp only [List.range_succ, List.foldl_append, List.foldl_cons, List.foldl_nil] at ih ⊢
      generalize (List.range id).foldl (store h) (l, s) = t at ih ⊢
      obtain ⟨m, u⟩ := t
      obtain ⟨hIu, hframe, hwatches, hdone, hrest⟩ := ih
      obtain ⟨hI', hid⟩ := @visit id m u hIu
      refine ⟨hI', hframe.trans (store_frame h m u id), hwatches, fun j hj => ?_, fun j hj => ?_⟩
      · rcases Nat.lt_succ_iff_lt_or_eq.mp hj with hj | rfl
        · exact keep (store_frame h m u id) (store_sameAt h m u hj) (hdone j hj)
        · exact hid
      · rw [← hrest j (by omega)]
        exact (setResult_ledger_get m id j _).trans (if_neg (by omega))

/-! ## Copies of a prototype -/

/-- The graph is the prototype's, apart from which member accesses follow changes. -/
structure CopyOf (p : Prototype) (l : Live) : Prop where
  nodes : l.graph.nodes = p.graph.nodes.map (Node.adapt l.mode)
  parameter : l.parameter = p.parameter
  body : l.body = p.body
  watches : l.watches.size = l.graph.size

theorem CopyOf.ofFrame {p : Prototype} {l l' : Live} (hl : CopyOf p l) (hf : SameFrame l l') :
    CopyOf p l' where
  nodes := by rw [hf.graph, hf.mode, hl.nodes]
  parameter := hf.parameter.trans hl.parameter
  body := hf.body.trans hl.body
  watches := by rw [hf.watches, hf.graph, hl.watches]

theorem BindingMode.oneTime_adapt (mode : BindingMode) (k : NodeKind) :
    (mode.adapt k).oneTime = k.oneTime := by
  cases mode
  · rfl
  · cases k <;> rfl

theorem CopyOf.kindAt {p : Prototype} {l : Live} (hl : CopyOf p l) (id : Nat) :
    l.kindAt id = (p.graph.nodes[id]?).map fun n => l.mode.adapt n.kind := by
  rw [Live.kindAt, hl.nodes, Array.getElem?_map, Option.map_map]
  rfl

theorem CopyOf.kindAt_oneTime {p : Prototype} {l : Live} (hl : CopyOf p l) (id : Nat) :
    (l.kindAt id).map NodeKind.oneTime = (p.graph.nodes[id]?).map fun n => n.kind.oneTime := by
  rw [hl.kindAt, Option.map_map]
  congr 1
  funext n
  exact BindingMode.oneTime_adapt l.mode n.kind

theorem CopyOf.inputs {p : Prototype} {l : Live} (hl : CopyOf p l) (id : Nat) :
    l.graph.inputs id = p.graph.inputs id := by
  rw [Graph.inputs, hl.nodes, Array.getElem?_map, Graph.inputs]
  cases p.graph.nodes[id]? <;> rfl

theorem CopyOf.policyOf {p : Prototype} {l : Live} (hl : CopyOf p l) (id : Nat) :
    l.graph.policyOf id = p.graph.policyOf id := by
  rw [Graph.policyOf, hl.nodes, Array.getElem?_map, Graph.policyOf]
  cases p.graph.nodes[id]? <;> rfl

theorem CopyOf.sameRules {p : Prototype} {l l' : Live} (hl : CopyOf p l) (hl' : CopyOf p l') :
    SameRules l l' :=
  ⟨fun id => (hl'.kindAt_oneTime id).trans (hl.kindAt_oneTime id).symm,
    fun id => (hl'.inputs id).trans (hl.inputs id).symm⟩

theorem CopyOf.kindAt_parameter {e : Lambda} {p : Prototype} (hp : e.compile = .ok p) {l : Live}
    (hl : CopyOf p l) (id : Nat) : l.kindAt id = some .parameter ↔ id = l.parameter := by
  rw [hl.parameter, ← Compile.parameter_iff_of_compile hp, hl.kindAt]
  cases p.graph.nodes[id]? with
  | none => simp
  | some n => cases hm : l.mode <;> cases hk : n.kind <;> simp [BindingMode.adapt, NodeKind.oneTime, hk]

structure Fresh (p : Prototype) (mode : BindingMode) (l : Live) : Prop extends CopyOf p l where
  mode : l.mode = mode
  bound : l.bound = false
  root : l.root = none
  pending : l.pending = []
  unwatched : ∀ id, l.watchAt id = none

theorem copy_fresh {e : Lambda} {p : Prototype} (hp : e.compile = .ok p) (mode : BindingMode) :
    Fresh p mode (copy p mode).1 := by
  obtain ⟨hnodes, hparam, hbody, -⟩ := Compile.copy_of_compile hp mode
  refine ⟨⟨hnodes, hparam, hbody, ?_⟩, rfl, rfl, rfl, rfl, fun id => ?_⟩
  · exact Array.size_replicate
  · simp only [copy, watchAt, Array.getD_eq_getD_getElem?, Array.getElem?_replicate]
    split <;> rfl

/-- No result in it is wrong but perhaps those of member accesses, whatever members hold. -/
def OperatorsSettled (l : Live) : Prop :=
  ∀ id, (l.kindAt id).any (·.isMember) = false → ∀ read, l.Settled read id

theorem settled_of_no_node {l : Live} {id : Nat} (hid : l.graph.nodes[id]? = none)
    (hl : l.ledger.get id = none) : l.Settled read id := by
  rw [Settled, due, kindAt, hid, hl]
  rfl

theorem copy_ledger (p : Prototype) (mode : BindingMode) (id : Nat) :
    (copy p mode).1.ledger.get id = none := by
  change (Ledger.empty.ensureCapacity _).get id = none
  rw [Ledger.get_ensureCapacity]
  rfl

theorem adopt_eq (h : Host σ) (p : Prototype) (mode : BindingMode) (s : σ) :
    adopt h p mode s = (List.range (copy p mode).1.graph.size).foldl (store h)
      ((copy p mode).1, h.note (.cloned (copy p mode).2 mode) s) := rfl

theorem adopt_fresh {e : Lambda} {p : Prototype} (hp : e.compile = .ok p) (h : Host σ)
    (mode : BindingMode) (s : σ) : Fresh p mode (adopt h p mode s).1 := by
  have hcopy := copy_fresh hp mode
  obtain ⟨-, hframe, hwatches, -⟩ := foldl_store_visits (h := h) (fun _ _ => True) (fun _ _ => True)
    (fun _ => ⟨trivial, trivial⟩) (fun _ _ _ => trivial) (copy p mode).1
    (h.note (.cloned (copy p mode).2 mode) s) trivial (copy p mode).1.graph.size
  rw [adopt_eq]
  refine ⟨hcopy.toCopyOf.ofFrame hframe, hframe.mode.trans hcopy.mode, hframe.bound.trans hcopy.bound,
    hframe.root.trans hcopy.root, hframe.pending.trans hcopy.pending, fun id => ?_⟩
  rw [watchAt, hwatches]
  exact hcopy.unwatched id

theorem adopt_settles (h : Host σ) (p : Prototype) (mode : BindingMode) {s : σ}
    (hs : h.Still read s) :
    h.Still read (adopt h p mode s).2 ∧ ∀ id, (adopt h p mode s).1.Settled read id := by
  obtain ⟨hs', hframe, -, hdone, hrest⟩ := foldl_store_visits (h := h) (fun _ t => h.Still read t)
    (fun l id => l.Settled read id)
    (fun {id l s} hs => by
      rw [store, evaluate_of_still hs]
      exact ⟨hs, settled_setResult_due l id⟩)
    (fun hf hj hd => (hj.settled hf.graph).mpr hd) (copy p mode).1
    (h.note (.cloned (copy p mode).2 mode) s) (hs.note _) (copy p mode).1.graph.size
  rw [adopt_eq]
  refine ⟨hs', fun id => ?_⟩
  by_cases hid : id < (copy p mode).1.graph.size
  · exact hdone id hid
  · refine settled_of_no_node ?_ ((hrest id (Nat.le_of_not_lt hid)).trans (copy_ledger p mode id))
    rw [hframe.graph]
    exact Array.getElem?_eq_none (Nat.le_of_not_lt hid)

theorem adopt_aside (h : Host σ) (p : Prototype) (mode : BindingMode) {s : σ} (hs : h.Still read s) :
    (adopt h p mode s).2 = h.note (.cloned (copy p mode).2 mode) s := by
  obtain ⟨⟨-, heq⟩, -⟩ := foldl_store_visits (h := h)
    (fun _ t => h.Still read t ∧ t = h.note (.cloned (copy p mode).2 mode) s) (fun _ _ => True)
    (fun {id l t} ht => by
      rw [store, evaluate_of_still ht.1]
      exact ⟨ht, trivial⟩)
    (fun _ _ _ => trivial) (copy p mode).1 (h.note (.cloned (copy p mode).2 mode) s)
    ⟨hs.note _, rfl⟩ (copy p mode).1.graph.size
  rw [adopt_eq]
  exact heq

theorem adopt_operatorsSettled (h : Host σ) (p : Prototype) (mode : BindingMode) (s : σ) :
    (adopt h p mode s).1.OperatorsSettled := by
  obtain ⟨-, hframe, -, hdone, hrest⟩ := foldl_store_visits (h := h) (fun _ _ => True)
    (fun l id => (l.kindAt id).any (·.isMember) = false → ∀ read, l.Settled read id)
    (fun {id l s} _ => by
      refine ⟨trivial, fun hk read => ?_⟩
      have hr : (store h (l, s) id).1 = l.setResult id (l.due read id) := by
        rw [← evaluate_of_not_member (h := h) read (l := l) hk s]
        rfl
      rw [hr]
      exact settled_setResult_due l id)
    (fun hf hj hd hk read => (hj.settled hf.graph).mpr (hd (by rwa [← kindAt_of_graph hf.graph]) read))
    (copy p mode).1 (h.note (.cloned (copy p mode).2 mode) s) trivial (copy p mode).1.graph.size
  rw [adopt_eq]
  intro id hk read
  by_cases hid : id < (copy p mode).1.graph.size
  · exact hdone id hid hk read
  · refine settled_of_no_node ?_ ((hrest id (Nat.le_of_not_lt hid)).trans (copy_ledger p mode id))
    rw [hframe.graph]
    exact Array.getElem?_eq_none (Nat.le_of_not_lt hid)

end LiveExpr.Live
