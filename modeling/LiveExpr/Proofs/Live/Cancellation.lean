import LiveExpr.Proofs.Compile.Meaning
import LiveExpr.Proofs.Compile.Numbering
import LiveExpr.Proofs.Live.Consistency
import LiveExpr.Proofs.Live.Reports

/-!
What unbinding makes of a graph, whatever reading does meanwhile. The graph is withdrawn: it follows
nothing, has no result, and no further request but binding changes anything about it. The readers of
the parameter may still be present, as comparisons answer for operands that are absent, but each of
them has settled for its answer.
-/

namespace LiveExpr

theorem Ledger.set_of_get {l : Ledger} {id : Nat} {r : Result} (hid : id < l.size)
    (hr : l.get id = r) : l.set id r = l := by
  unfold size at hid
  have hcapacity : l.ensureCapacity (id + 1) = l := by
    simp [ensureCapacity, Nat.sub_eq_zero_of_le (Nat.succ_le_of_lt hid)]
  rw [set, hcapacity, ← hr]
  congr 1
  apply Array.ext
  · exact Array.size_setIfInBounds
  · intro j hj hj'
    rw [Array.getElem_setIfInBounds]
    split
    · subst id
      simp [get, hid]
    · rfl

/-! ## Nodes that read an absent result -/

theorem BinaryOp.resultType_of_connective {op : BinaryOp} {left right t : ValueType}
    (hop : op = .and ∨ op = .or) (hbool : (left.isBoolean && right.isBoolean) = true)
    (h : op.resultType left right = .ok t) : t.nonNullable = .bool := by
  obtain ⟨hleft, hright⟩ := Bool.and_eq_true_iff.mp hbool
  have hleft : left.nonNullable = .bool := of_decide_eq_true hleft
  have hright : right.nonNullable = .bool := of_decide_eq_true hright
  rw [resultType_eq_ok] at h
  rcases hop with rfl | rfl <;>
    · simp only [resultType?, hleft, hright, bitwiseResult?, ne_eq, not_true_eq_false, if_false] at h
      cases h
      cases left.isNullable || right.isNullable <;> rfl

theorem EqualityPolicy.ofType_of_boolean {t : ValueType} (ht : t.nonNullable = .bool) :
    EqualityPolicy.ofType t = .standard := by
  rw [ofType, ht]

open Compile in
/-- Comparisons and connectives yield booleans, which are compared by content. -/
theorem Compile.NodeFor.policy_of_not_strict {e : Expr} {operands : List (Expr × Nat)} {n : Node}
    (hn : NodeFor e operands n) (he : e.TypeInferred) (hinputs : n.inputs ≠ [])
    (hk : n.kind.isStrict = false) : n.policy = .standard := by
  rw [hn.policy he]
  cases hn with
  | constant => exact absurd rfl hinputs
  | member | unary => cases hk
  | @binary i j k t op left right tag kernel htag hkernel =>
      obtain ⟨result, hresult⟩ := BinaryOp.resultType_of_build hkernel
      have ht : t = result := by
        rw [Expr.TypeInferred, hresult] at he
        exact he
      have hcomparison : op = .equal ∨ op = .notEqual ∨ op.isRelational = true →
          EqualityPolicy.ofType t = .standard := by
        intro hop
        rw [ht, BinaryOp.resultType_of_comparison hop hresult]
        rfl
      have hconnective : op = .and ∨ op = .or → (left.type.isBoolean && right.type.isBoolean) = true →
          EqualityPolicy.ofType t = .standard := by
        intro hop hbool
        rw [ht]
        exact EqualityPolicy.ofType_of_boolean (BinaryOp.resultType_of_connective hop hbool hresult)
      cases op <;> simp only [binaryTag, Except.ok.injEq, reduceCtorEq] at htag <;> subst htag
      case exclusiveOr | arrayIndex => cases hk
      case and | or =>
        cases hbool : left.type.isBoolean && right.type.isBoolean with
        | false =>
            rw [hbool] at hk
            cases hk
        | true => exact hconnective (by simp) hbool
      all_goals exact hcomparison (by simp [BinaryOp.isRelational])

namespace Result

/-- Nothing, or a truth value. -/
def Answer (r : Result) : Prop :=
  r = none ∨ ∃ b, r = some (.bool b)

variable {f : Value → Value → Value} {x y : Result}

theorem answer_compareEqual (negated : Bool) (h : x = none ∨ y = none) :
    Answer (compareEqual f negated x y) := by
  rcases h with rfl | rfl
  · cases y <;> simp [compareEqual, Answer]
  · cases x <;> simp [compareEqual, Answer]

theorem answer_compareOrder (h : x = none ∨ y = none) : Answer (compareOrder f x y) := by
  rcases h with rfl | rfl
  · simp [compareOrder, Answer]
  · cases x <;> simp [compareOrder, Answer]

theorem answer_connect (absorbing : Bool) (h : x = none ∨ y = none) :
    Answer ((connect absorbing x y).resolve f) := by
  rw [connect_of_absent absorbing f h]
  split
  · exact .inr ⟨absorbing, rfl⟩
  · exact .inl rfl

end Result

/-- Over an absent operand there is nothing, or the answer of a comparison or a connective. -/
theorem NodeKind.combine_of_absent (k : NodeKind) {x y : Result}
    (h : x = none ∨ (k.operands = 2 ∧ y = none)) :
    k.combine x y = none ∨ (k.isStrict = false ∧ Result.Answer (k.combine x y)) := by
  have hany : x = none ∨ y = none := h.imp_right And.right
  cases k with
  | parameter | constant | memberAccess => exact .inl rfl
  | unaryOp op kernel =>
      rcases h with rfl | ⟨hk, -⟩
      · exact .inl rfl
      · cases hk
  | binaryDefault op kernel =>
      left
      rcases hany with rfl | rfl
      · rfl
      · cases x <;> rfl
  | binaryEqual kernel => exact .inr ⟨rfl, Result.answer_compareEqual false hany⟩
  | binaryNotEqual kernel => exact .inr ⟨rfl, Result.answer_compareEqual true hany⟩
  | binaryRelational op kernel => exact .inr ⟨rfl, Result.answer_compareOrder hany⟩
  | binaryLogicalAnd kernel => exact .inr ⟨rfl, Result.answer_connect false hany⟩
  | binaryLogicalOr kernel => exact .inr ⟨rfl, Result.answer_connect true hany⟩

theorem Result.Answer.sameAs {r : Result} (h : r.Answer) : sameAs .standard r r = true := by
  rcases h with rfl | ⟨b, rfl⟩
  · rfl
  · cases b <;> rfl

theorem NodeKind.operands_le (k : NodeKind) : k.operands ≤ 2 := by
  cases k <;> simp [operands]

theorem NodeKind.isStrict_adapt (mode : BindingMode) (k : NodeKind) :
    (mode.adapt k).isStrict = k.isStrict := by
  cases mode with
  | live => rfl
  | oneTime => cases k <;> rfl

namespace Live

variable {σ : Type} {h : Host σ} {p : Prototype} {l l' : Live} {s s' : σ}

theorem operand_of_input {i id : Nat} (hid : i ∈ l.graph.inputs id) :
    ∃ j < (l.graph.inputs id).length, l.operand id j = l.ledger.get i := by
  obtain ⟨j, hj, rfl⟩ := List.getElem_of_mem hid
  exact ⟨j, hj, by rw [operand, List.getElem?_eq_getElem hj, Option.elim_some]⟩

theorem kindAt_of_input {i id : Nat} (hid : i ∈ l.graph.inputs id) : ∃ k, l.kindAt id = some k := by
  cases hn : l.graph.nodes[id]? with
  | none =>
      rw [Graph.inputs, hn] at hid
      cases hid
  | some n => exact ⟨n.kind, by rw [Live.kindAt, hn, Option.map_some]⟩

section

variable {i id : Nat} {k : NodeKind}

theorem CopyOf.absent_operand {e : Lambda} (hp : e.compile = .ok p) (hl : CopyOf p l)
    (hid : i ∈ l.graph.inputs id) (hi : l.ledger.get i = none) (hk : l.kindAt id = some k) :
    l.operand id 0 = none ∨ (k.operands = 2 ∧ l.operand id 1 = none) := by
  obtain ⟨j, hj, hoperand⟩ := operand_of_input hid
  rw [hi] at hoperand
  rw [hl.operands_length hp hk] at hj
  have htwo := k.operands_le
  match j with
  | 0 => exact .inl hoperand
  | 1 => exact .inr ⟨by omega, hoperand⟩
  | j + 2 => omega

theorem CopyOf.policy_of_not_strict {e : Lambda} (he : e.Inferred) (hp : e.compile = .ok p)
    (hl : CopyOf p l) (hid : i ∈ l.graph.inputs id) (hk : l.kindAt id = some k)
    (hstrict : k.isStrict = false) : l.graph.policyOf id = .standard := by
  rw [hl.kindAt] at hk
  obtain ⟨n, hn, rfl⟩ := Option.map_eq_some_iff.mp hk
  rw [hl.inputs, Graph.inputs_of_node hn] at hid
  rw [NodeKind.isStrict_adapt] at hstrict
  rw [hl.policyOf, Graph.policyOf, hn, Option.elim_some]
  rcases Compile.node_of_compile hp hn with ⟨-, t, name, rfl⟩ | ⟨f, operands, hf, hnode⟩
  · cases hid
  · exact hnode.policy_of_not_strict (he f (.inr hf)) (List.ne_nil_of_mem hid) hstrict

/-- A node that reads an absent result can have one result only, which counts as the same as itself. -/
theorem fits_of_absent {e : Lambda} (he : e.Inferred) (hp : e.compile = .ok p) (hl : CopyOf p l)
    (hid : i ∈ l.graph.inputs id) (hi : l.ledger.get i = none) :
    ∃ r, Result.sameAs (l.graph.policyOf id) r r = true ∧ ∀ r', l.Fits id r' → r' = r := by
  obtain ⟨k, hk⟩ := kindAt_of_input hid
  have habsent := hl.absent_operand hp hid hi hk
  have hsame : Result.sameAs (l.graph.policyOf id) (k.combine (l.operand id 0) (l.operand id 1))
      (k.combine (l.operand id 0) (l.operand id 1)) = true := by
    rcases k.combine_of_absent habsent with hnone | ⟨hstrict, hanswer⟩
    · rw [hnone]
      rfl
    · rw [hl.policy_of_not_strict he hp hid hk hstrict]
      exact hanswer.sameAs
  have hlength := hl.operands_length hp hk
  cases k with
  | parameter | constant =>
      rw [List.length_eq_zero_iff.mp hlength] at hid
      cases hid
  | memberAccess =>
      have hobject : l.operand id 0 = none := habsent.resolve_right (by simp [NodeKind.operands])
      refine ⟨none, rfl, fun r' hr' => ?_⟩
      simp only [Fits, hk, hobject, Result.object?, Option.filter_none, iff_true] at hr'
      exact hr'
  | _ =>
      refine ⟨_, hsame, fun r' hr' => ?_⟩
      simpa only [Fits, hk] using hr'

end

/-! ## Recomputing while nothing is bound -/

/-- Nothing is bound, and nothing is followed. -/
structure Detached (l : Live) : Prop where
  bound : l.bound = false
  watches : l.watches.map (fun _ => none) = l.watches

theorem Detached.unwatched (hl : l.Detached) : l.unwatched = l := by
  rw [Live.unwatched, hl.watches]

theorem Detached.watchAt (hl : l.Detached) (node : Nat) : l.watchAt node = none := by
  rw [← hl.unwatched]
  exact watchAt_unwatched l node

theorem Detached.setWatch_none (hl : l.Detached) (id : Nat) : l.setWatch id none = l := by
  have hnone : ∀ j : Nat, ∀ hj : j < l.watches.size, l.watches[j] = none := by
    intro j hj
    simpa [Live.watchAt, hj] using hl.watchAt j
  have hwatches : l.watches.setIfInBounds id none = l.watches := by
    apply Array.ext
    · exact Array.size_setIfInBounds
    · intro j hj hj'
      rw [Array.getElem_setIfInBounds]
      split
      · exact (hnone j hj').symm
      · rfl
  rw [setWatch, hwatches]

theorem Rewatched.eq_of_detached {id : Nat} (hr : Rewatched h id l s l' s') (hl : l.Detached) :
    l' = l := by
  have htarget : l.watchTarget id = none := by rw [watchTarget, hl.bound]
  cases hr with
  | unobserved | kept => rfl
  | left => exact hl.setWatch_none id
  | moved _ ht =>
      rw [htarget] at ht
      cases ht

theorem Recomputed.detached {id : Nat} {changed : Bool} (hr : Recomputed h id l s changed l' s')
    (hl : l.Detached) : l'.Detached ∧ l.ledger.size ≤ l'.ledger.size := by
  cases hr with
  | mk hw _ ha =>
      obtain rfl := hw.eq_of_detached hl
      cases ha with
      | same => exact ⟨hl, Nat.le_refl _⟩
      | new =>
          refine ⟨⟨hl.bound, hl.watches⟩, ?_⟩
          rw [setResult, Ledger.size_set]
          exact Nat.le_max_left _ _

theorem propagate_detached (h : Host σ) (dirty : List Nat) (s : σ) (hl : l.Detached) :
    (l.propagate h dirty s).1.Detached ∧ l.ledger.size ≤ (l.propagate h dirty s).1.ledger.size :=
  (propagate_visits (fun m _ => m.Detached ∧ l.ledger.size ≤ m.ledger.size) (fun _ _ _ => True)
    (fun hI hr => ⟨⟨(hr.detached hI.1).1, Nat.le_trans hI.2 (hr.detached hI.1).2⟩, trivial⟩)
    (fun _ _ _ _ => trivial) dirty ⟨hl, Nat.le_refl _⟩).1

/-- What is on the agenda is consistent afterwards, whatever it was before. -/
theorem propagate_visited (h : Host σ) (dirty : List Nat) (l : Live) (s : σ) :
    ∀ id ∈ dirty, (l.propagate h dirty s).1.Consistent id := by
  intro id hid
  obtain ⟨-, -, hall⟩ := propagate_visits (h := h) (fun _ _ => True) (fun m _ j => m.Consistent j)
    (fun _ hr => ⟨trivial, hr.consistent⟩) (fun _ hr hj hd => (hj.consistent hr.frame.graph).mpr hd)
    dirty (l := l) (s := s) trivial
  exact (hall id).resolve_right fun h => h.2 hid

/-! ## Unbinding -/

/-- What has been unbound: there is no result, and every reader of the parameter has recorded that
the parameter has none. -/
structure Withdrawn (l : Live) : Prop extends Detached l where
  root : l.root = none
  parameter_lt : l.parameter < l.ledger.size
  parameter : l.ledger.get l.parameter = none
  readers : ∀ id ∈ l.graph.readersOf l.parameter, l.Consistent id

theorem Withdrawn.takePending (hl : l.Withdrawn) : l.takePending.2.Withdrawn :=
  ⟨⟨hl.bound, hl.watches⟩, hl.root, hl.parameter_lt, hl.parameter, hl.readers⟩

theorem settleRoot_none (l : Live) :
    l.settleRoot none =
      { l with
        root := none
        pending := l.pending ++ if l.root.isSome then [⟨l.root, none⟩] else [] } := by
  obtain ⟨graph, parameter, body, mode, ledger, watches, bound, root, pending⟩ := l
  cases root <;> simp [settleRoot, Result.sameAs]

theorem Detached.settleRoot (hl : l.Detached) (target : Result) : (l.settleRoot target).Detached := by
  have hlast := settleRoot_sameLedger l target
  exact ⟨hlast.bound.trans hl.bound, by rw [hlast.watches, hl.watches]⟩

theorem detached_withdrawing (l : Live) : (l.unwatched.withParameter false none).Detached :=
  ⟨rfl, by simp [withParameter, setResult, Live.unwatched]⟩

/-- Whatever reading does meanwhile, the result of the whole is gone, which is one change if there has
been one. -/
theorem unbind_withdrawn {e : Lambda} (hp : e.compile = .ok p) (hl : CopyOf p l) (h : Host σ) (s : σ) :
    (l.unbind h s).1.Withdrawn ∧
      (l.unbind h s).1.pending =
        l.pending ++ if l.root.isSome then [⟨l.root, none⟩] else [] := by
  have hcopy : CopyOf p (l.unwatched.withParameter false none) :=
    copyOf_withParameter (copyOf_unwatched hl) false none
  have hpar : (l.unwatched.withParameter false none).kindAt l.parameter = some .parameter :=
    (hcopy.kindAt_parameter hp l.parameter).mpr rfl
  have hstart : (l.unwatched.withParameter false none).ledger.get l.parameter = none :=
    (setResult_ledger_get _ _ _ _).trans (if_pos rfl)
  have hsize : l.parameter < (l.unwatched.withParameter false none).ledger.size := by
    rw [withParameter, setResult, Ledger.size_set]
    exact Nat.lt_of_lt_of_le (Nat.lt_succ_self _) (Nat.le_max_right _ _)
  rw [unbind_eq]
  simp only
  generalize ({ l with bound := false }.releaseWatches h _).2 = released
  obtain ⟨hdetached, hgrown⟩ := propagate_detached h (l.graph.readersOf l.parameter) released
    (detached_withdrawing l)
  have hframe := propagate_frame h (l.graph.readersOf l.parameter)
    (l.unwatched.withParameter false none) released
  have hkept := propagate_parameter h (l.graph.readersOf l.parameter) hpar released
  have hdone := propagate_visited h (l.graph.readersOf l.parameter)
    (l.unwatched.withParameter false none) released
  generalize (l.unwatched.withParameter false none).propagate h _ released = t at *
  have hparameter : t.1.parameter = l.parameter := hframe.parameter
  have hgraph : t.1.graph = l.graph := hframe.graph
  have hlast := settleRoot_sameLedger t.1 none
  refine ⟨{ hdetached.settleRoot none with
    root := by rw [settleRoot_none]
    parameter_lt := ?_
    parameter := ?_
    readers := fun id hid => ?_ }, ?_⟩
  · rw [hlast.parameter, hlast.ledger, hparameter]
    exact Nat.lt_of_lt_of_le hsize hgrown
  · rw [hlast.parameter, hlast.ledger, hparameter, hkept, hstart]
  · rw [hlast.parameter, hlast.graph, hparameter, hgraph] at hid
    exact hlast.consistent (hdone id hid)
  · rw [settleRoot_none, hframe.root, hframe.pending]
    rfl

/-! ## Unbinding again -/

section

variable {e : Lambda} (he : e.Inferred) (hp : e.compile = .ok p) (hcopy : CopyOf p l)

include he hp hcopy

/-- A reader of the parameter arrives at the result that it has. -/
theorem Withdrawn.recomputed (hl : l.Withdrawn) {id : Nat} (hid : id ∈ l.graph.readersOf l.parameter)
    {changed : Bool} (hr : Recomputed h id l s changed l' s') : changed = false ∧ l' = l := by
  obtain ⟨r, hself, hunique⟩ :=
    fits_of_absent he hp hcopy (Graph.mem_readersOf.mp hid) hl.parameter
  have hheld : Result.sameAs (l.graph.policyOf id) (l.ledger.get id) r = true := by
    obtain ⟨r', hr', hheld | hheld⟩ := hl.readers id hid
    · rw [hheld, hunique r' hr', hself]
    · rwa [hunique r' hr'] at hheld
  cases hr with
  | @mk l₁ _ s₁ _ _ _ _ hw hevaluate ha =>
      obtain rfl := hw.eq_of_detached hl.toDetached
      have hfits := evaluate_fits h l₁ id s₁
      rw [hevaluate] at hfits
      obtain rfl := hunique _ hfits
      cases ha with
      | same => exact ⟨rfl, rfl⟩
      | new hne =>
          rw [hheld] at hne
          cases hne

theorem Withdrawn.propagate_readers (hl : l.Withdrawn) (h : Host σ) (s : σ) :
    (l.propagate h (l.graph.readersOf l.parameter) s).1 = l := by
  have hstart : l = l ∧ ∀ id ∈ Agenda.ofList (l.graph.readersOf l.parameter),
      id ∈ l.graph.readersOf l.parameter := ⟨rfl, fun id hid => Agenda.mem_ofList.mp hid⟩
  have hend := propagate_preserves (h := h) (g := l.graph) (l := l) (s := s)
    (P := fun agenda m _ => m = l ∧ ∀ id ∈ agenda, id ∈ l.graph.readersOf l.parameter) ?_ rfl hstart
  · exact hend.1
  · rintro id rest m t changed m' t' - ⟨rfl, hagenda⟩ hr
    obtain ⟨rfl, rfl⟩ := hl.recomputed he hp hcopy (hagenda id List.mem_cons_self) hr
    exact ⟨rfl, fun j hj => hagenda j (List.mem_cons_of_mem id hj)⟩

/-- Unbinding a second time changes nothing at all about the graph. -/
theorem Withdrawn.unbind_eq_self (hl : l.Withdrawn) (h : Host σ) (s : σ) : (l.unbind h s).1 = l := by
  have hstart : l.unwatched.withParameter false none = l := by
    have hledger : l.ledger.set l.parameter none = l.ledger :=
      Ledger.set_of_get hl.parameter_lt hl.parameter
    have hbound := hl.bound
    rw [hl.unwatched, withParameter, setResult, hledger, ← hbound]
  rw [unbind_eq, hstart]
  simp only
  rw [hl.propagate_readers he hp hcopy, settleRoot_none, hl.root]
  obtain ⟨graph, parameter, body, mode, ledger, watches, bound, root, pending⟩ := l
  obtain rfl : root = none := hl.root
  simp

end

end Live

end LiveExpr
