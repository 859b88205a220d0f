import LiveExpr.Live.State

/-!
What one recomputed node does to a live graph: it may move its own subscription and store its own
result, and nothing else.
-/

namespace LiveExpr.Live

variable {σ : Type} {h : Host σ}

@[simp] theorem setResult_ledger_get (l : Live) (id j : Nat) (r : Result) :
    (l.setResult id r).ledger.get j = if j = id then r else l.ledger.get j :=
  l.ledger.get_set id j r

/-! ## What stays -/

/-- The same graph in the same binding: only results and subscriptions may differ. -/
structure SameFrame (l l' : Live) : Prop where
  graph : l'.graph = l.graph
  parameter : l'.parameter = l.parameter
  body : l'.body = l.body
  mode : l'.mode = l.mode
  bound : l'.bound = l.bound
  root : l'.root = l.root
  pending : l'.pending = l.pending
  watches : l'.watches.size = l.watches.size

theorem SameFrame.refl (l : Live) : SameFrame l l :=
  ⟨rfl, rfl, rfl, rfl, rfl, rfl, rfl, rfl⟩

theorem SameFrame.trans {l l' l'' : Live} (a : SameFrame l l') (b : SameFrame l' l'') :
    SameFrame l l'' :=
  ⟨b.graph.trans a.graph, b.parameter.trans a.parameter, b.body.trans a.body, b.mode.trans a.mode,
    b.bound.trans a.bound, b.root.trans a.root, b.pending.trans a.pending, b.watches.trans a.watches⟩

theorem SameFrame.setResult (l : Live) (id : Nat) (r : Result) : SameFrame l (l.setResult id r) :=
  ⟨rfl, rfl, rfl, rfl, rfl, rfl, rfl, rfl⟩

theorem SameFrame.setWatch (l : Live) (id : Nat) (w : Option Watch) : SameFrame l (l.setWatch id w) :=
  ⟨rfl, rfl, rfl, rfl, rfl, rfl, rfl, Array.size_setIfInBounds⟩

/-- Node `j` has the same result, reads the same results and holds the same subscription. -/
structure SameAt (l l' : Live) (j : Nat) : Prop where
  result : l'.ledger.get j = l.ledger.get j
  inputs : ∀ i ∈ l.graph.inputs j, l'.ledger.get i = l.ledger.get i
  watch : l'.watchAt j = l.watchAt j

theorem SameAt.refl (l : Live) (j : Nat) : SameAt l l j :=
  ⟨rfl, fun _ _ => rfl, rfl⟩

theorem SameAt.trans {l l' l'' : Live} {j : Nat} (hg : l'.graph = l.graph) (a : SameAt l l' j)
    (b : SameAt l' l'' j) : SameAt l l'' j :=
  ⟨b.result.trans a.result, fun i hi => (b.inputs i (hg ▸ hi)).trans (a.inputs i hi),
    b.watch.trans a.watch⟩

theorem SameAt.operand {l l' : Live} {j : Nat} (hg : l'.graph = l.graph) (hj : SameAt l l' j)
    (k : Nat) : l'.operand j k = l.operand j k := by
  unfold Live.operand
  rw [hg]
  cases hk : (l.graph.inputs j)[k]? with
  | none => rfl
  | some i => exact hj.inputs i (List.mem_of_getElem? hk)

theorem watchAt_setWatch (l : Live) (id j : Nat) (w : Option Watch) :
    (l.setWatch id w).watchAt j =
      if j = id ∧ id < l.watches.size then w else l.watchAt j := by
  simp only [watchAt, setWatch, Array.getD_eq_getD_getElem?, Array.getElem?_setIfInBounds]
  by_cases hj : id = j
  · subst hj
    by_cases hlt : id < l.watches.size <;> simp [hlt]
  · have hj' : j ≠ id := Ne.symm hj
    simp [hj, hj']

theorem SameAt.setWatch (l : Live) {id j : Nat} (w : Option Watch) (hj : j ≠ id) :
    SameAt l (l.setWatch id w) j :=
  ⟨rfl, fun _ _ => rfl, by rw [watchAt_setWatch, if_neg fun h => hj h.1]⟩

theorem SameAt.setResult (l : Live) {id j : Nat} (r : Result) (hj : j ≠ id)
    (hid : id ∉ l.graph.inputs j) : SameAt l (l.setResult id r) j := by
  refine ⟨?_, fun i hi => ?_, rfl⟩
  · rw [setResult_ledger_get, if_neg hj]
  · rw [setResult_ledger_get, if_neg]
    rintro rfl
    exact hid hi

/-! ## The parts of a recomputation -/

inductive Rewatched (h : Host σ) (id : Nat) (l : Live) (s : σ) : Live → σ → Prop
  | unobserved : l.observedMember? id = none → Rewatched h id l s l s
  | kept {member : String} {w : Watch} {r : ObjectRef} : l.observedMember? id = some member →
      l.watchAt id = some w → l.watchTarget id = some r → w.object = r.id → Rewatched h id l s l s
  | left {member : String} : l.observedMember? id = some member → l.watchTarget id = none →
      Rewatched h id l s (l.setWatch id none) ((l.watchAt id).elim s (h.unwatch · s))
  | moved {member : String} {r : ObjectRef} {key : Option Nat} {s' : σ} :
      l.observedMember? id = some member → l.watchTarget id = some r →
      (∀ w, l.watchAt id = some w → w.object ≠ r.id) →
      h.watch r id member ((l.watchAt id).elim s (h.unwatch · s)) = (key, s') →
      Rewatched h id l s (l.setWatch id (key.map (⟨r.id, ·⟩))) s'

theorem rewatch_spec (h : Host σ) (id : Nat) (l : Live) (s : σ) :
    Rewatched h id l s (l.rewatch h id s).1 (l.rewatch h id s).2 := by
  unfold rewatch
  cases hm : l.observedMember? id with
  | none => exact .unobserved hm
  | some member =>
      simp only
      split
      · rename_i hkeep
        obtain ⟨hsome, hsame⟩ := Bool.and_eq_true_iff.mp hkeep
        obtain ⟨w, hw⟩ := Option.isSome_iff_exists.mp hsome
        rw [hw] at hsame
        cases ht : l.watchTarget id with
        | none => simp [ht] at hsame
        | some r => exact .kept hm hw ht (by simpa [ht] using hsame)
      · rename_i hmove
        cases ht : l.watchTarget id with
        | none => exact .left hm ht
        | some r =>
            refine .moved hm ht (fun w hw hobject => hmove ?_) rfl
            simp [hw, ht, hobject]

theorem Rewatched.frame {id : Nat} {l l' : Live} {s s' : σ} (hr : Rewatched h id l s l' s') :
    SameFrame l l' := by
  cases hr with
  | unobserved | kept => exact .refl l
  | left | moved => exact .setWatch l _ _

theorem Rewatched.ledger {id : Nat} {l l' : Live} {s s' : σ} (hr : Rewatched h id l s l' s') :
    l'.ledger = l.ledger := by
  cases hr <;> rfl

theorem Rewatched.sameAt {id j : Nat} {l l' : Live} {s s' : σ} (hr : Rewatched h id l s l' s')
    (hj : j ≠ id) : SameAt l l' j := by
  cases hr with
  | unobserved | kept => exact .refl l j
  | left | moved => exact .setWatch l _ hj

inductive Accepted (h : Host σ) (id : Nat) (r : Result) (l : Live) (s : σ) : Bool → Live → σ → Prop
  | same : Result.sameAs (l.graph.policyOf id) (l.ledger.get id) r = true →
      Accepted h id r l s false l (h.note (.unchanged id (l.graph.sourceOf id)) s)
  | new : Result.sameAs (l.graph.policyOf id) (l.ledger.get id) r = false →
      Accepted h id r l s true (l.setResult id r)
        (h.note (.changed id (l.graph.sourceOf id) ⟨l.ledger.get id, r⟩) s)

theorem accept_spec (h : Host σ) (id : Nat) (r : Result) (l : Live) (s : σ) :
    Accepted h id r l s (l.accept h id r s).1 (l.accept h id r s).2.1 (l.accept h id r s).2.2 := by
  unfold accept
  by_cases hsame : Result.sameAs (l.graph.policyOf id) (l.ledger.get id) r = true
  · simp only [if_pos hsame]
    exact .same hsame
  · simp only [if_neg hsame]
    exact .new (by simpa using hsame)

/-- A member access first follows its target, and then the node is read and its result stored. -/
inductive Recomputed (h : Host σ) (id : Nat) (l : Live) (s : σ) : Bool → Live → σ → Prop
  | mk {l₁ l' : Live} {s₁ s₂ s' : σ} {r : Result} {changed : Bool} : Rewatched h id l s l₁ s₁ →
      l₁.evaluate h id s₁ = (r, s₂) → Accepted h id r l₁ s₂ changed l' s' →
      Recomputed h id l s changed l' s'

theorem recompute_spec (h : Host σ) (id : Nat) (l : Live) (s : σ) :
    Recomputed h id l s (l.recompute h id s).1 (l.recompute h id s).2.1 (l.recompute h id s).2.2 :=
  .mk (rewatch_spec h id l s) rfl (accept_spec h id _ _ _)

theorem Recomputed.frame {id : Nat} {l l' : Live} {s s' : σ} {changed : Bool}
    (hr : Recomputed h id l s changed l' s') : SameFrame l l' := by
  cases hr with
  | mk hw _ ha =>
      refine hw.frame.trans ?_
      cases ha with
      | same => exact .refl _
      | new => exact .setResult _ _ _

/-- A node other than the one recomputed has noticed nothing, unless it reads the one recomputed and
that one has changed. -/
theorem Recomputed.sameAt {id j : Nat} {l l' : Live} {s s' : σ} {changed : Bool}
    (hr : Recomputed h id l s changed l' s') (hj : j ≠ id)
    (hid : changed = true → id ∉ l.graph.inputs j) : SameAt l l' j := by
  cases hr with
  | mk hw _ ha =>
      refine (hw.sameAt hj).trans hw.frame.graph ?_
      cases ha with
      | same => exact .refl _ j
      | new => exact .setResult _ _ hj (hw.frame.graph ▸ hid rfl)

theorem Recomputed.ledger_of_ne {id j : Nat} {l l' : Live} {s s' : σ} {changed : Bool}
    (hr : Recomputed h id l s changed l' s') (hj : j ≠ id) : l'.ledger.get j = l.ledger.get j := by
  cases hr with
  | mk hw _ ha =>
      rw [← hw.ledger]
      cases ha with
      | same => rfl
      | new => rw [setResult_ledger_get, if_neg hj]

/-- A node takes the result that it is evaluated to when its policy tells it from the one it has. -/
theorem recompute_result (h : Host σ) (id : Nat) (l : Live) (s : σ) :
    let t := l.rewatch h id s
    let r := (t.1.evaluate h id t.2).1
    (l.recompute h id s).1 = !Result.sameAs (l.graph.policyOf id) (l.ledger.get id) r ∧
      (l.recompute h id s).2.1.ledger.get id =
        if (l.recompute h id s).1 then r else l.ledger.get id := by
  intro t r
  have hw := rewatch_spec h id l s
  have ha := accept_spec h id r t.1 (t.1.evaluate h id t.2).2
  rw [show l.recompute h id s = t.1.accept h id r (t.1.evaluate h id t.2).2 from rfl, ← hw.ledger,
    ← hw.frame.graph]
  generalize t.1.accept h id r (t.1.evaluate h id t.2).2 = a at ha ⊢
  obtain ⟨changed, l', s'⟩ := a
  cases ha with
  | same hsame => exact ⟨by rw [hsame]; rfl, rfl⟩
  | new hne => exact ⟨by rw [hne]; rfl, (t.1.setResult_ledger_get id id r).trans (if_pos rfl)⟩

end LiveExpr.Live
