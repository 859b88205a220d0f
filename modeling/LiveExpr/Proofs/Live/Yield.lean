import LiveExpr.Proofs.Live.Rebinding

/-!
The results that a node can ever have, whatever is bound and whatever members hold, as long as both
stay within given bounds. They are read off the graph alone, in no order of evaluation.
-/

namespace LiveExpr

/-- The bounds of a run: what each binding is bound to, what members hold, and which objects' members
may change. -/
structure Scope where
  binds : String → Value → Prop
  holds : Nat → String → Value → Prop
  changes : Nat → Prop

/-- What can be read of an object is null or one of the values that the member may hold. -/
def Scope.Allows (sc : Scope) (read : String → Value → Value) : Prop :=
  ∀ (member : String) (v : Value),
    match v with
    | .object r | .struct r => read member v = .null ∨ sc.holds r.id member (read member v)
    | v => read member v = v.builtinMember member

/-- `binds` are the values of the parameter. -/
inductive CanYield (sc : Scope) (binds : Value → Prop) (g : Graph) : Nat → Result → Prop
  | absent (id : Nat) : CanYield sc binds g id none
  | parameter {id : Nat} {n : Node} {v : Value} : g.nodes[id]? = some n → n.kind = .parameter →
      binds v → CanYield sc binds g id (some v)
  | rule {id : Nat} {n : Node} (read : String → Value → Value) (results : Nat → Result) :
      g.nodes[id]? = some n → n.kind ≠ .parameter → sc.Allows read →
      (∀ i ∈ g.inputs id, CanYield sc binds g i (results i)) →
      CanYield sc binds g id (n.kind.rule read none
        (((g.inputs id)[0]?).elim none results) (((g.inputs id)[1]?).elim none results))

/-- A member access that can read of an object whose members change follows it, by the name of the
member that it reads. -/
def Followable (sc : Scope) (binds : Value → Prop) (g : Graph) : Prop :=
  ∀ {id : Nat} {n : Node} {member reads : String} {observe : Bool}, g.nodes[id]? = some n →
    n.kind = .memberAccess member reads observe →
    ∀ target ∈ g.inputs id, ∀ r : ObjectRef, sc.changes r.id →
      ¬ CanYield sc binds g target (some (.struct r)) ∧
        (CanYield sc binds g target (some (.object r)) → observe = true ∧ reads = member)

namespace Live

variable {σ : Type} {h : Host σ} {read : String → Value → Value} {sc : Scope}
  {binds : Value → Prop} {p : Prototype} {l l' : Live}

def Yields (sc : Scope) (binds : Value → Prop) (p : Prototype) (l : Live) : Prop :=
  ∀ id, CanYield sc binds p.graph id (l.ledger.get id)

theorem rule_own {k : NodeKind} (hk : k ≠ .parameter) (own x y : Result) :
    k.rule read own x y = k.rule read none x y := by
  cases k with
  | parameter => exact absurd rfl hk
  | _ => rfl

theorem due_yields (hl : CopyOf p l) (hread : sc.Allows read) {id : Nat}
    (hid : l.kindAt id ≠ some .parameter)
    (hinputs : ∀ i ∈ p.graph.inputs id, CanYield sc binds p.graph i (l.ledger.get i)) :
    CanYield sc binds p.graph id (l.due read id) := by
  rw [due_eq_oneTime, hl.kindAt_oneTime]
  rw [hl.kindAt] at hid
  cases hn : p.graph.nodes[id]? with
  | none => exact .absent id
  | some n =>
      have hkind : n.kind ≠ .parameter := by
        intro hk
        rw [hn, Option.map_some, hk] at hid
        cases hm : l.mode <;> simp [hm, BindingMode.adapt, NodeKind.oneTime] at hid
      simp only [Option.map_some, Option.bind_some, NodeKind.rule_oneTime, rule_own hkind]
      have hrule := CanYield.rule read l.ledger.get hn hkind hread hinputs
      simp only [← hl.inputs] at hrule
      exact hrule

/-- A recomputed node keeps its result or gets the one that it should have. -/
theorem Recomputed.result {id : Nat} {s s' : σ} {changed : Bool}
    (hr : Recomputed h id l s changed l' s') (hs : h.Still read s) (j : Nat) :
    l'.ledger.get j = l.ledger.get j ∨ (j = id ∧ l'.ledger.get j = l.due read id) := by
  cases hr with
  | @mk l₁ _ s₁ _ _ r _ hw he ha =>
      rw [evaluate_of_still (hw.still hs)] at he
      obtain ⟨rfl, -⟩ := Prod.mk.inj he
      have hdue : l₁.due read id = l.due read id := by
        simp only [due, kindAt, operand, hw.frame.graph, hw.ledger]
      rw [← hw.ledger]
      cases ha with
      | same => exact .inl rfl
      | new =>
          rw [setResult_ledger_get]
          split
          · exact .inr ⟨‹_›, hdue⟩
          · exact .inl rfl

theorem Recomputed.yields {id : Nat} {s s' : σ} {changed : Bool}
    (hr : Recomputed h id l s changed l' s') (hs : h.Still read s) (hread : sc.Allows read)
    (hl : CopyOf p l) (hy : l.Yields sc binds p) : l'.Yields sc binds p := by
  intro j
  rcases hr.result hs j with hj | ⟨rfl, hj⟩
  · rw [hj]
    exact hy j
  · by_cases hpar : l.kindAt j = some .parameter
    · rw [hr.parameter hpar]
      exact hy j
    · rw [hj]
      exact due_yields hl hread hpar fun i _ => hy i

theorem propagate_yields (dirty : List Nat) {s : σ} (hs : h.Still read s) (hread : sc.Allows read)
    (hl : CopyOf p l) (hy : l.Yields sc binds p) :
    (l.propagate h dirty s).1.Yields sc binds p := by
  obtain ⟨⟨-, -, hy'⟩, -⟩ := propagate_visits (h := h)
    (fun m t => h.Still read t ∧ CopyOf p m ∧ m.Yields sc binds p) (fun _ _ _ => True)
    (fun hI hr => ⟨⟨(hr.settles hI.1).1, hI.2.1.ofFrame hr.frame,
      hr.yields hI.1 hread hI.2.1 hI.2.2⟩, trivial⟩)
    (fun _ _ _ _ => trivial) dirty (l := l) (s := s) ⟨hs, hl, hy⟩
  exact hy'

theorem Yields.ofLedger (hy : l.Yields sc binds p) (hl : l'.ledger = l.ledger) :
    l'.Yields sc binds p := by
  intro j
  rw [hl]
  exact hy j

/-! ## Requests -/

section

variable {e : Lambda} (hp : e.compile = .ok p)

include hp

theorem yields_withParameter (hl : CopyOf p l) (hy : l.Yields sc binds p) (b : Bool) {r : Result}
    (hr : ∀ v, r = some v → binds v) : (l.withParameter b r).Yields sc binds p := by
  intro j
  rw [withParameter, setResult_ledger_get]
  split
  · subst j
    cases r with
    | none => exact .absent _
    | some v =>
        obtain ⟨n, hn, hkind⟩ := Option.map_eq_some_iff.mp
          ((Compile.parameter_iff_of_compile hp l.parameter).mpr hl.parameter)
        exact .parameter hn hkind (hr v rfl)
  · exact hy j

theorem bind_yields {v : Value} (hv : binds v) {s : σ} (hs : h.Still read s)
    (hread : sc.Allows read) (hl : CopyOf p l) (hy : l.Yields sc binds p) :
    (l.bind h v s).1.Yields sc binds p := by
  rw [bind_eq]
  have hstart : (l.withParameter true (some v)).Yields sc binds p :=
    yields_withParameter hp hl hy true fun u hu => by cases hu; exact hv
  have hend := propagate_yields l.bindAgenda (hs.note (.binding v)) hread
    (copyOf_withParameter hl true (some v)) hstart
  exact hend.ofLedger (settleRoot_sameLedger _ _).ledger

theorem unbind_yields {s : σ} (hs : h.Still read s) (hread : sc.Allows read) (hl : CopyOf p l)
    (hy : l.Yields sc binds p) : (l.unbind h s).1.Yields sc binds p := by
  rw [unbind_eq]
  have hunwatched : l.unwatched.Yields sc binds p := hy.ofLedger rfl
  have hstart := yields_withParameter hp (copyOf_unwatched hl) hunwatched false (r := none) nofun
  have hend := propagate_yields (l.graph.readersOf l.parameter) (still_released l hs) hread
    (copyOf_withParameter (copyOf_unwatched hl) false none) hstart
  exact hend.ofLedger (settleRoot_sameLedger _ _).ledger

omit hp

theorem memberChanged_yields (node : Nat) {s : σ} (hs : h.Still read s) (hread : sc.Allows read)
    (hl : CopyOf p l) (hy : l.Yields sc binds p) : (l.memberChanged h node s).1.Yields sc binds p := by
  cases hb : l.bound with
  | false =>
      rw [memberChanged_unbound h node hb]
      exact hy
  | true =>
      rw [memberChanged_eq h node hb]
      exact (propagate_yields [node] hs hread hl hy).ofLedger (settleRoot_sameLedger _ _).ledger

end

theorem adopt_yields {e : Lambda} (hp : e.compile = .ok p) (mode : BindingMode) {s : σ}
    (hs : h.Still read s) (hread : sc.Allows read) :
    (adopt h p mode s).1.Yields sc binds p := by
  obtain ⟨⟨-, -, hy⟩, -⟩ := foldl_store_visits (h := h)
    (fun m t => h.Still read t ∧ CopyOf p m ∧ m.Yields sc binds p) (fun _ _ => True)
    (fun {id m t} hI => by
      obtain ⟨hs, hl, hy⟩ := hI
      have hstore : store h (m, t) id = (m.setResult id (m.due read id), t) := by
        rw [store, evaluate_of_still hs]
      rw [hstore]
      refine ⟨⟨hs, hl.ofFrame (.setResult m id _), fun j => ?_⟩, trivial⟩
      rw [setResult_ledger_get]
      split
      · subst j
        by_cases hpar : m.kindAt id = some .parameter
        · have hown : m.due read id = m.ledger.get id := by rw [due, hpar]; rfl
          rw [hown]
          exact hy id
        · exact due_yields hl hread hpar fun i _ => hy i
      · exact hy j)
    (fun _ _ _ => trivial) (copy p mode).1 (h.note (.cloned (copy p mode).2 mode) s)
    ⟨hs.note _, (copy_fresh hp mode).toCopyOf, fun j => copy_ledger p mode j ▸ .absent j⟩
    (copy p mode).1.graph.size
  rw [adopt_eq]
  exact hy

end Live

end LiveExpr
