import LiveExpr.Proofs.Live.Sweep
import LiveExpr.Proofs.Value.Congruence

/-!
A node is settled when its result is the one its rule makes of the results it reads. Where reading has
no effect, whatever is recomputed settles, and the settled results of a graph are determined by that
of the parameter.
-/

namespace LiveExpr

/-! ## Hosts that hold still -/

namespace Host

variable {σ : Type} {h : Host σ}

/-- From one state to another by subscribing, unsubscribing and reporting alone. -/
inductive Aside (h : Host σ) : σ → σ → Prop
  | refl (s : σ) : Aside h s s
  | watch {s s' : σ} (r : ObjectRef) (node : Nat) (member : String) :
      Aside h s s' → Aside h s (h.watch r node member s').2
  | unwatch {s s' : σ} (w : Watch) : Aside h s s' → Aside h s (h.unwatch w s')
  | note {s s' : σ} (n : Notice) : Aside h s s' → Aside h s (h.note n s')

theorem Aside.trans {s s' s'' : σ} (a : Aside h s s') (b : Aside h s' s'') : Aside h s s'' := by
  induction b with
  | refl => exact a
  | watch r node member _ ih => exact .watch r node member ih
  | unwatch w _ ih => exact .unwatch w ih
  | note n _ ih => exact .note n ih

/-- Equal values have equal members. -/
def RespectsEquality (read : String → Value → Value) : Prop :=
  ∀ member v w, v == w → read member v == read member w

/-- Whatever is subscribed or reported from `s` on, an access has no effect and finds what `read` says;
equal targets have equal members. -/
structure Still (h : Host σ) (read : String → Value → Value) (s : σ) : Prop where
  access : ∀ {s'}, Aside h s s' → ∀ member v, h.access member v s' = (read member v, s')
  congr : RespectsEquality read

variable {read : String → Value → Value} {s s' : σ}

theorem Still.aside (hs : h.Still read s) (a : Aside h s s') : h.Still read s' :=
  ⟨fun b => hs.access (a.trans b), hs.congr⟩

theorem Still.access_here (hs : h.Still read s) (member : String) (v : Value) :
    h.access member v s = (read member v, s) :=
  hs.access (.refl s) member v

theorem Still.watch (hs : h.Still read s) (r : ObjectRef) (node : Nat) (member : String) :
    h.Still read (h.watch r node member s).2 :=
  hs.aside (.watch r node member (.refl s))

theorem Still.unwatch (hs : h.Still read s) (w : Watch) : h.Still read (h.unwatch w s) :=
  hs.aside (.unwatch w (.refl s))

theorem Still.note (hs : h.Still read s) (n : Notice) : h.Still read (h.note n s) :=
  hs.aside (.note n (.refl s))

end Host

/-! ## The rule of a node -/

/-- The result that a node makes of its own one, which only a parameter keeps, and of its operands. -/
def NodeKind.rule (read : String → Value → Value) (own x y : Result) : NodeKind → Result
  | .parameter => own
  | .constant v => some v
  | .memberAccess _ reads _ => (Result.object? x).map (read reads)
  | k => k.combine x y

theorem NodeKind.rule_oneTime (read : String → Value → Value) (own x y : Result) (k : NodeKind) :
    k.oneTime.rule read own x y = k.rule read own x y := by
  cases k <;> rfl

theorem NodeKind.rule_congr {read : String → Value → Value}
    (hread : Host.RespectsEquality read) (k : NodeKind)
    {own own' x x' y y' : Result} (hown : k = .parameter → own == own') (hx : x == x') (hy : y == y') :
    k.rule read own x y == k.rule read own' x' y' := by
  cases k with
  | parameter => exact hown rfl
  | constant => exact BEq.rfl
  | memberAccess member reads observe =>
      have ho := Result.object?_congr hx
      simp only [rule]
      cases hv : Result.object? x <;> cases hw : Result.object? x' <;> simp [hv, hw] at ho ⊢
      exact hread _ _ _ ho
  | _ => simp only [rule]; exact combine_congr _ hx hy

def NodeKind.isMember : NodeKind → Bool
  | .memberAccess .. => true
  | _ => false

namespace Live

variable {σ : Type} {h : Host σ} {read : String → Value → Value}

def kindAt (l : Live) (id : Nat) : Option NodeKind :=
  (l.graph.nodes[id]?).map (·.kind)

def due (read : String → Value → Value) (l : Live) (id : Nat) : Result :=
  (l.kindAt id).bind (NodeKind.rule read (l.ledger.get id) (l.operand id 0) (l.operand id 1))

def Settled (read : String → Value → Value) (l : Live) (id : Nat) : Prop :=
  l.ledger.get id == l.due read id

theorem evaluate_of_still {s : σ} (hs : h.Still read s) (l : Live) (id : Nat) :
    l.evaluate h id s = (l.due read id, s) := by
  unfold evaluate due kindAt
  cases l.graph.nodes[id]? with
  | none => rfl
  | some n =>
      simp only [Option.map_some, Option.bind_some]
      cases n.kind with
      | memberAccess member reads observe =>
          simp only [NodeKind.rule]
          cases Result.object? (l.operand id 0) with
          | none => rfl
          | some target => simp only [hs.access_here, Option.map_some]
      | _ => rfl

theorem evaluate_of_not_member (read : String → Value → Value) {l : Live} {id : Nat}
    (hk : (l.kindAt id).any (·.isMember) = false) (s : σ) :
    (l.evaluate h id s).1 = l.due read id := by
  unfold kindAt at hk
  unfold evaluate due kindAt
  cases hn : l.graph.nodes[id]? with
  | none => rfl
  | some n =>
      rw [hn] at hk
      simp only [Option.map_some, Option.bind_some, Option.any_some] at hk ⊢
      cases hkind : n.kind <;> simp [hkind, NodeKind.isMember] at hk <;> rfl

theorem kindAt_of_graph {l l' : Live} (hg : l'.graph = l.graph) (id : Nat) :
    l'.kindAt id = l.kindAt id := by
  rw [kindAt, kindAt, hg]

theorem SameAt.due {l l' : Live} {j : Nat} (hj : SameAt l l' j) (hg : l'.graph = l.graph) :
    l'.due read j = l.due read j := by
  rw [Live.due, Live.due, kindAt_of_graph hg, hj.result, hj.operand hg, hj.operand hg]

theorem SameAt.settled {l l' : Live} {j : Nat} (hj : SameAt l l' j) (hg : l'.graph = l.graph) :
    l'.Settled read j ↔ l.Settled read j := by
  rw [Settled, Settled, hj.due hg, hj.result]

theorem operand_setResult_self (l : Live) (id k : Nat) (r : Result) :
    (l.setResult id r).operand id k = l.operand id k := by
  unfold operand
  change ((l.graph.inputs id)[k]?).elim none (l.setResult id r).ledger.get = _
  cases hk : (l.graph.inputs id)[k]? with
  | none => rfl
  | some i =>
      have hlt := Graph.lt_of_mem_inputs (List.mem_of_getElem? hk)
      simp only [Option.elim_some, setResult_ledger_get]
      rw [if_neg (Nat.ne_of_lt hlt)]

/-- Storing the result that a node should have settles it, as it does not read itself. -/
theorem due_setResult_due (l : Live) (id : Nat) :
    (l.setResult id (l.due read id)).due read id = l.due read id := by
  conv_lhs => unfold due
  simp only [operand_setResult_self, setResult_ledger_get, if_true]
  change (l.kindAt id).bind _ = _
  cases hk : l.kindAt id with
  | none => simp [due, hk]
  | some k => cases k <;> simp [due, hk, NodeKind.rule]

theorem settled_setResult_due (l : Live) (id : Nat) :
    (l.setResult id (l.due read id)).Settled read id := by
  rw [Settled, due_setResult_due, setResult_ledger_get, if_pos rfl]
  exact BEq.rfl

/-! ## What is recomputed settles -/

theorem Accepted.settled {id : Nat} {l l' : Live} {s s' : σ} {changed : Bool}
    (ha : Accepted h id (l.due read id) l s changed l' s') : l'.Settled read id := by
  cases ha with
  | same hsame => exact Result.equal_of_sameAs hsame
  | new => exact settled_setResult_due l id

theorem Rewatched.still {id : Nat} {l l' : Live} {s s' : σ} (hr : Rewatched h id l s l' s')
    (hs : h.Still read s) : h.Still read s' := by
  have hleft : h.Still read ((l.watchAt id).elim s (h.unwatch · s)) := by
    cases l.watchAt id with
    | none => exact hs
    | some w => exact hs.unwatch w
  cases hr with
  | unobserved | kept => exact hs
  | left => exact hleft
  | moved _ _ _ hw => rw [← show _ = s' from congrArg Prod.snd hw]; exact hleft.watch ..

theorem Accepted.still {id : Nat} {r : Result} {l l' : Live} {s s' : σ} {changed : Bool}
    (ha : Accepted h id r l s changed l' s') (hs : h.Still read s) : h.Still read s' := by
  cases ha <;> exact hs.note _

theorem Recomputed.settles {id : Nat} {l l' : Live} {s s' : σ} {changed : Bool}
    (hr : Recomputed h id l s changed l' s') (hs : h.Still read s) :
    h.Still read s' ∧ l'.Settled read id := by
  cases hr with
  | mk hw he ha =>
      rw [evaluate_of_still (hw.still hs)] at he
      obtain ⟨rfl, rfl⟩ := Prod.mk.inj he
      exact ⟨ha.still (hw.still hs), ha.settled⟩

theorem Recomputed.settles_of_not_member {id : Nat} {l l' : Live} {s s' : σ} {changed : Bool}
    (hr : Recomputed h id l s changed l' s') (hk : (l.kindAt id).any (·.isMember) = false)
    (read : String → Value → Value) : l'.Settled read id := by
  cases hr with
  | @mk l₁ _ s₁ _ _ r _ hw he ha =>
      have hk₁ : (l₁.kindAt id).any (·.isMember) = false := by rwa [kindAt_of_graph hw.frame.graph]
      have hr := evaluate_of_not_member (h := h) read hk₁ s₁
      rw [he] at hr
      simp only at hr
      subst hr
      exact ha.settled

theorem propagate_settles (dirty : List Nat) (l : Live) {s : σ} (hs : h.Still read s) :
    h.Still read (l.propagate h dirty s).2 ∧ SameFrame l (l.propagate h dirty s).1 ∧
      ∀ j, (l.propagate h dirty s).1.Settled read j ∨
        (SameAt l (l.propagate h dirty s).1 j ∧ j ∉ dirty) :=
  propagate_visits (fun _ t => h.Still read t) (fun m _ j => m.Settled read j)
    (fun hI hr => hr.settles hI) (fun _ hr hj hd => (hj.settled hr.frame.graph).mpr hd) dirty hs

/-! ## Settled results are determined -/

structure SameRules (l l' : Live) : Prop where
  kind : ∀ id, (l'.kindAt id).map NodeKind.oneTime = (l.kindAt id).map NodeKind.oneTime
  inputs : ∀ id, l'.graph.inputs id = l.graph.inputs id

theorem due_eq_oneTime (l : Live) (id : Nat) :
    l.due read id = ((l.kindAt id).map NodeKind.oneTime).bind
      (NodeKind.rule read (l.ledger.get id) (l.operand id 0) (l.operand id 1)) := by
  rw [due]
  cases l.kindAt id with
  | none => rfl
  | some k => exact (NodeKind.rule_oneTime ..).symm

theorem operand_congr {l l' : Live} {id : Nat} (hg : l'.graph.inputs id = l.graph.inputs id)
    (hi : ∀ i ∈ l.graph.inputs id, l.ledger.get i == l'.ledger.get i) (k : Nat) :
    l.operand id k == l'.operand id k := by
  unfold operand
  rw [hg]
  cases hk : (l.graph.inputs id)[k]? with
  | none => exact BEq.rfl
  | some i => exact hi i (List.mem_of_getElem? hk)

theorem SameRules.due_eq {l l' : Live} (hl : SameRules l l') (hread : Host.RespectsEquality read)
    {id : Nat} (hown : l.kindAt id = some .parameter → l.ledger.get id == l'.ledger.get id)
    (hinputs : ∀ i ∈ l.graph.inputs id, l.ledger.get i == l'.ledger.get i) :
    l.due read id == l'.due read id := by
  have hop := operand_congr (hl.inputs id) hinputs
  rw [due_eq_oneTime, due_eq_oneTime, hl.kind]
  cases hk : l.kindAt id with
  | none => exact BEq.rfl
  | some k =>
      refine NodeKind.rule_congr hread k.oneTime (fun hpar => hown ?_) (hop 0) (hop 1)
      rw [hk]
      cases k <;> simp [NodeKind.oneTime] at hpar ⊢

/-- Two graphs with the same rules, all of whose nodes are settled, have equal results if their
parameters have. -/
theorem SameRules.results_eq {l l' : Live} (hl : SameRules l l') (hread : Host.RespectsEquality read)
    (hparam : ∀ id, l.kindAt id = some .parameter → l.ledger.get id == l'.ledger.get id)
    (hs : ∀ id, l.Settled read id) (hs' : ∀ id, l'.Settled read id) (id : Nat) :
    l.ledger.get id == l'.ledger.get id := by
  induction id using Nat.strongRecOn with
  | ind id ih =>
      have hdue := hl.due_eq hread (hparam id) fun i hi => ih i (Graph.lt_of_mem_inputs hi)
      exact BEq.trans (hs id) (BEq.trans hdue (BEq.symm (hs' id)))

theorem SameRules.settled_of_results_eq {l l' : Live} (hl : SameRules l l')
    (hread : Host.RespectsEquality read) (hall : ∀ id, l.ledger.get id == l'.ledger.get id) {id : Nat}
    (hs : l'.Settled read id) : l.Settled read id :=
  BEq.trans (hall id) (BEq.trans hs (BEq.symm (hl.due_eq hread (fun _ => hall id) fun i _ => hall i)))

end Live

end LiveExpr
