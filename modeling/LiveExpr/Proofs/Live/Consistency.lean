import LiveExpr.Proofs.Live.Rebinding

/-!
Results agree with the results they were made of, in whatever way members change unnoticed or changes
are announced that never were. What a node holds is what its rule makes of the results it reads, up
to the policy of the node; of what is read outside, a member access only tells whether there is a
target.
-/

namespace LiveExpr

namespace NodeKind

/-- The nodes of a strict kind have no result as long as one of their operands is missing. -/
def isStrict : NodeKind → Bool
  | memberAccess .. | unaryOp .. | binaryDefault .. => true
  | _ => false

theorem operands_adapt (mode : BindingMode) (k : NodeKind) : (mode.adapt k).operands = k.operands := by
  cases mode with
  | live => rfl
  | oneTime => cases k <;> rfl

end NodeKind

namespace Result

theorem none_iff_of_sameAs {policy : EqualityPolicy} {x y : Result}
    (h : sameAs policy x y = true) : x = none ↔ y = none := by
  cases x <;> cases y <;> simp [sameAs] at h ⊢

theorem object?_eq_none {x : Result} : object? x = none ↔ x = none ∨ x = some .null := by
  cases x with
  | none => simp [object?]
  | some v => cases v <;> simp [object?, Value.isNull]

end Result

namespace Live

variable {σ : Type} {h : Host σ} {p : Prototype} {mode : BindingMode} {l l' : Live}

/-! ## Results that fit -/

/-- The result is one that the node can have over the results of its inputs: the one that its rule
makes of them, and for a member access any, as long as it is there just when the target is. -/
def Fits (l : Live) (id : Nat) (r : Result) : Prop :=
  match l.kindAt id with
  | none | some .parameter => True
  | some (.constant v) => r = some v
  | some (.memberAccess ..) => r = none ↔ Result.object? (l.operand id 0) = none
  | some k => r = k.combine (l.operand id 0) (l.operand id 1)

/-- The node holds a result that fits, or one that its policy takes for the same. -/
def Consistent (l : Live) (id : Nat) : Prop :=
  ∃ r, l.Fits id r ∧
    (l.ledger.get id = r ∨ Result.sameAs (l.graph.policyOf id) (l.ledger.get id) r = true)

theorem evaluate_fits (h : Host σ) (l : Live) (id : Nat) (s : σ) :
    l.Fits id (l.evaluate h id s).1 := by
  unfold evaluate Fits kindAt
  cases l.graph.nodes[id]? with
  | none => trivial
  | some n =>
      simp only [Option.map_some]
      cases n.kind with
      | memberAccess member reads observe =>
          simp only
          cases Result.object? (l.operand id 0) <;> simp
      | _ => simp

theorem fits_congr {id : Nat} {r : Result} (hg : l'.graph = l.graph)
    (ho : ∀ k, l'.operand id k = l.operand id k) : l'.Fits id r ↔ l.Fits id r := by
  simp only [Fits, kindAt_of_graph hg, ho]

theorem SameAt.consistent {id : Nat} (hs : SameAt l l' id) (hg : l'.graph = l.graph) :
    l'.Consistent id ↔ l.Consistent id := by
  simp only [Consistent, fits_congr hg (hs.operand hg), hs.result, hg]

theorem consistent_of_parameter {id : Nat} (hk : l.kindAt id = some .parameter) :
    l.Consistent id :=
  ⟨l.ledger.get id, by simp [Fits, hk], .inl rfl⟩

theorem consistent_setResult {id : Nat} {r : Result} (hr : l.Fits id r) :
    (l.setResult id r).Consistent id := by
  have hfits : (l.setResult id r).Fits id r ↔ l.Fits id r :=
    fits_congr rfl fun k => operand_setResult_self l id k r
  exact ⟨r, hfits.mpr hr, .inl (by simp)⟩

theorem Recomputed.consistent {id : Nat} {s s' : σ} {changed : Bool}
    (hr : Recomputed h id l s changed l' s') : l'.Consistent id := by
  cases hr with
  | @mk l₁ _ s₁ _ _ r _ hw he ha =>
      have hfits : l₁.Fits id r := by
        have := evaluate_fits h l₁ id s₁
        rwa [he] at this
      cases ha with
      | same hsame => exact ⟨r, hfits, .inr hsame⟩
      | new => exact consistent_setResult hfits

/-! ## Requests -/

theorem propagate_consistent (h : Host σ) (dirty : List Nat) (s : σ)
    (hl : ∀ id, id ∈ dirty ∨ l.Consistent id) (id : Nat) :
    (l.propagate h dirty s).1.Consistent id := by
  obtain ⟨-, hframe, hall⟩ := propagate_visits (h := h) (fun _ _ => True)
    (fun m _ j => m.Consistent j) (fun _ hr => ⟨trivial, hr.consistent⟩)
    (fun _ hr hj hd => (hj.consistent hr.frame.graph).mpr hd) dirty (l := l) (s := s) trivial
  rcases hall id with hid | ⟨hsame, hclean⟩
  · exact hid
  · exact (hsame.consistent hframe.graph).mpr ((hl id).resolve_left hclean)

theorem adopt_consistent (h : Host σ) (p : Prototype) (mode : BindingMode) (s : σ) (id : Nat) :
    (adopt h p mode s).1.Consistent id := by
  obtain ⟨-, hframe, -, hdone, -⟩ := foldl_store_visits (h := h) (fun _ _ => True)
    (fun m j => m.Consistent j)
    (fun {j m t} _ => ⟨trivial, consistent_setResult (evaluate_fits h m j t)⟩)
    (fun hf hj hd => (hj.consistent hf.graph).mpr hd) (copy p mode).1
    (h.note (.cloned (copy p mode).2 mode) s) trivial (copy p mode).1.graph.size
  rw [← adopt_eq] at hframe hdone
  by_cases hid : id < (copy p mode).1.graph.size
  · exact hdone id hid
  · -- there is no such node
    have hnone : (adopt h p mode s).1.kindAt id = none := by
      rw [kindAt, hframe.graph, Array.getElem?_eq_none (Nat.le_of_not_lt hid)]
      rfl
    exact ⟨_, by simp [Fits, hnone], .inl rfl⟩

theorem SameLedger.consistent (hl : SameLedger l l') {id : Nat} (hc : l.Consistent id) :
    l'.Consistent id :=
  ((hl.sameAt id).consistent hl.graph).mpr hc

/-- A new result of the parameter leaves all but its readers consistent. -/
theorem consistent_withParameter {e : Lambda} (hp : e.compile = .ok p) (hl : CopyOf p l)
    (hc : ∀ id, l.Consistent id) (b : Bool) (r : Result) (id : Nat) :
    id ∈ l.graph.readersOf l.parameter ∨ (l.withParameter b r).Consistent id := by
  by_cases hread : id ∈ l.graph.readersOf l.parameter
  · exact .inl hread
  · refine .inr ?_
    by_cases hpar : id = l.parameter
    · exact consistent_of_parameter (((copyOf_withParameter hl b r).kindAt_parameter hp id).mpr hpar)
    · exact ((sameAt_withParameter l b r hpar hread).consistent rfl).mpr (hc id)

theorem Reached.consistent {e : Lambda} (hp : e.compile = .ok p) (hl : Reached h p mode l)
    (id : Nat) : l.Consistent id := by
  induction hl generalizing id with
  | adopt s => exact adopt_consistent h p mode s id
  | @bind l v s hl ih =>
      obtain ⟨hcopy, -⟩ := hl.settled hp
      rw [bind_eq]
      refine (settleRoot_sameLedger _ _).consistent (propagate_consistent h _ _ (fun j => ?_) id)
      exact (consistent_withParameter hp hcopy ih true (some v) j).imp_left mem_bindAgenda_of_reader
  | @unbind l s hl ih =>
      obtain ⟨hcopy, -⟩ := hl.settled hp
      rw [unbind_eq]
      refine (settleRoot_sameLedger _ _).consistent (propagate_consistent h _ _ ?_ id)
      exact consistent_withParameter (l := l.unwatched) hp (copyOf_unwatched hcopy) ih false none
  | @memberChanged l node s _ ih =>
      cases hb : l.bound with
      | false =>
          rw [memberChanged_unbound h node hb]
          exact ih id
      | true =>
          rw [memberChanged_eq h node hb]
          refine (settleRoot_sameLedger _ _).consistent (propagate_consistent h _ _ ?_ id)
          exact fun j => .inr (ih j)
  | takePending _ ih => exact ih id

/-! ## Absence -/

/-- The result is missing just when the one that fits is. -/
theorem Consistent.exists_fits {id : Nat} (hc : l.Consistent id) :
    ∃ r, l.Fits id r ∧ (l.ledger.get id = none ↔ r = none) := by
  obtain ⟨r, hfits, rfl | hsame⟩ := hc
  · exact ⟨_, hfits, .rfl⟩
  · exact ⟨r, hfits, Result.none_iff_of_sameAs hsame⟩

theorem Consistent.member {id : Nat} {k : NodeKind} (hc : l.Consistent id)
    (hk : l.kindAt id = some k) (hm : k.isMember = true) :
    l.ledger.get id = none ↔ l.operand id 0 = none ∨ l.operand id 0 = some .null := by
  obtain ⟨r, hfits, hnone⟩ := hc.exists_fits
  cases k with
  | memberAccess =>
      simp only [Fits, hk] at hfits
      rw [hnone, hfits, Result.object?_eq_none]
  | _ => cases hm

theorem Consistent.strict {id : Nat} {k : NodeKind} (hc : l.Consistent id)
    (hk : l.kindAt id = some k) (hstrict : k.isStrict = true) (hpresent : l.ledger.get id ≠ none)
    {j : Nat} (hj : j < k.operands) : l.operand id j ≠ none := by
  obtain ⟨r, hfits, hnone⟩ := hc.exists_fits
  rw [Ne, hnone] at hpresent
  intro habsent
  apply hpresent
  cases k with
  | memberAccess =>
      obtain rfl : j = 0 := by simpa [NodeKind.operands] using hj
      simp only [Fits, hk] at hfits
      simp [hfits, habsent, Result.object?]
  | unaryOp =>
      obtain rfl : j = 0 := by simpa [NodeKind.operands] using hj
      simp only [Fits, hk] at hfits
      simp [hfits, NodeKind.combine, Result.mapPresent, habsent]
  | binaryDefault =>
      have hboth : j = 0 ∨ j = 1 := by
        simp only [NodeKind.operands] at hj
        omega
      simp only [Fits, hk] at hfits
      rw [hfits]
      rcases hboth with rfl | rfl
      · simp [NodeKind.combine, Result.mapBoth, habsent]
      · cases hx : l.operand id 0 <;> simp [NodeKind.combine, Result.mapBoth, habsent]
  | _ => cases hstrict

theorem Consistent.operator {id : Nat} {k : NodeKind} (hc : l.Consistent id)
    (hk : l.kindAt id = some k) (hpar : k ≠ .parameter) (hm : k.isMember = false)
    (read : String → Value → Value) :
    let r := k.rule read none (l.operand id 0) (l.operand id 1)
    l.ledger.get id = r ∨ Result.sameAs (l.graph.policyOf id) (l.ledger.get id) r = true := by
  obtain ⟨r, hfits, hheld⟩ := hc
  have hr : r = k.rule read none (l.operand id 0) (l.operand id 1) := by
    cases k with
    | parameter => exact absurd rfl hpar
    | memberAccess => cases hm
    | _ =>
        simp only [Fits, hk] at hfits
        exact hfits
  rw [← hr]
  exact hheld

theorem CopyOf.operands_length {e : Lambda} (hp : e.compile = .ok p) (hl : CopyOf p l) {id : Nat}
    {k : NodeKind} (hk : l.kindAt id = some k) : (l.graph.inputs id).length = k.operands := by
  rw [hl.kindAt] at hk
  obtain ⟨n, hn, rfl⟩ := Option.map_eq_some_iff.mp hk
  rw [hl.inputs, Graph.inputs_of_node hn, NodeKind.operands_adapt]
  exact Compile.inputs_length_of_compile hp hn

/-- Whatever has been bound, unbound and announced, and whatever was read meanwhile: an operator has
the result that its rule makes of the results of its inputs, or one that its policy takes for the
same; a member access has none just when its target has none or a null; and a strict node has none
over an input that has none. -/
theorem Reached.locally_consistent {e : Lambda} (hp : e.compile = .ok p) (hl : Reached h p mode l)
    (id : Nat) {k : NodeKind} (hk : l.kindAt id = some k) :
    (k ≠ .parameter → k.isMember = false → ∀ read,
        let r := k.rule read none (l.operand id 0) (l.operand id 1)
        l.ledger.get id = r ∨
          Result.sameAs (l.graph.policyOf id) (l.ledger.get id) r = true) ∧
      (k.isMember = true →
        (l.ledger.get id = none ↔ l.operand id 0 = none ∨ l.operand id 0 = some .null)) ∧
      (k.isStrict = true → l.ledger.get id ≠ none → ∀ i ∈ l.graph.inputs id,
        l.ledger.get i ≠ none) := by
  have hc := hl.consistent hp id
  obtain ⟨hcopy, -⟩ := hl.settled hp
  refine ⟨hc.operator hk, hc.member hk, fun hstrict hpresent i hi => ?_⟩
  obtain ⟨j, hj, rfl⟩ := List.getElem_of_mem hi
  have hoperand := hc.strict hk hstrict hpresent (hcopy.operands_length hp hk ▸ hj)
  rwa [operand, List.getElem?_eq_getElem hj] at hoperand

/-- The boss has left and become younger without a word, and then a change of the boss's age is
announced: it is read, converted and compared again, though the boss is not. -/
theorem locally_consistent_bossOverThirty :
    let h := World.host (World.dispatch World.callDepth) .recorder
    let t := adoptBound h .bossOverThirty .live World.employee World.staff
    let w := (t.2.modifyObject 0 (·.write "boss" .null)).modifyObject 1 (·.write "age" (.i32 20))
    let l := (t.1.memberChanged h 2 w).1
    (l.kindAt 3).any (·.isStrict) = true ∧ l.ledger.get 3 ≠ none ∧
      (∀ i ∈ l.graph.inputs 3, l.ledger.get i ≠ none) ∧
      (∃ k, l.kindAt 6 = some k ∧ ∀ read,
        let r := k.rule read none (l.operand 6 0) (l.operand 6 1)
        l.ledger.get 6 = r ∨ Result.sameAs (l.graph.policyOf 6) (l.ledger.get 6) r = true) ∧
      (l.ledger.get 6 == some (.bool false)) = true := by
  intro h t w l
  have hl : Reached h .bossOverThirty .live l :=
    .memberChanged 2 _ (.bind World.employee _ (.adopt World.staff))
  have hstrict : (l.kindAt 3).any (·.isStrict) = true := by decide +kernel
  have hpresent : (l.ledger.get 3).isSome = true := by decide +kernel
  have hcompares : (l.kindAt 6).any (fun k => !k.isMember && k.operands == 2) = true := by
    decide +kernel
  obtain ⟨k, hk, hkstrict⟩ := (Option.any_eq_true _ _).mp hstrict
  obtain ⟨k', hk', hoperator⟩ := (Option.any_eq_true _ _).mp hcompares
  have hsome := Option.isSome_iff_ne_none.mp hpresent
  have hmember : k'.isMember = false := by simpa using (Bool.and_eq_true_iff.mp hoperator).1
  have hpar : k' ≠ .parameter := by
    rintro rfl
    simp [NodeKind.operands] at hoperator
  exact ⟨hstrict, hsome,
    (hl.locally_consistent Lambda.compile_bossOverThirty 3 hk).2.2 hkstrict hsome,
    ⟨k', hk', (hl.locally_consistent Lambda.compile_bossOverThirty 6 hk').1 hpar hmember⟩,
    by decide +kernel⟩

end Live

end LiveExpr
