import LiveExpr.Proofs.Live.Rebinding

/-!
When a change of the whole is reported. Every request reports at most one change, and the changes lead
without a gap from the result before to the result after. What an announced change of a member reports
depends on whether the body has taken a new result; but as the result of the whole is compared anew
each time, one that its policy does not take for the same as itself is reported again.
-/

namespace LiveExpr

/-- The changes lead from one result to another, each from where the one before has led to a result
that the policy tells from it. -/
inductive Leads (policy : EqualityPolicy) : Result → List ResultChange → Result → Prop
  | refl (r : Result) : Leads policy r [] r
  | cons {old new r : Result} {cs : List ResultChange} : Result.sameAs policy old new = false →
      Leads policy new cs r → Leads policy old (⟨old, new⟩ :: cs) r

theorem Leads.trans {policy : EqualityPolicy} {x y z : Result} {cs cs' : List ResultChange}
    (h : Leads policy x cs y) (h' : Leads policy y cs' z) : Leads policy x (cs ++ cs') z := by
  induction h with
  | refl => exact h'
  | cons hne _ ih => exact .cons hne (ih h')

theorem Leads.of_append {policy : EqualityPolicy} {x y z : Result} {cs cs' : List ResultChange}
    (h : Leads policy x cs y) (h' : Leads policy x (cs ++ cs') z) : Leads policy y cs' z := by
  induction h with
  | refl => exact h'
  | cons _ _ ih =>
      cases h' with
      | cons _ h' => exact ih h'

theorem Leads.last {policy : EqualityPolicy} {x y : Result} {cs : List ResultChange}
    (h : Leads policy x cs y) : cs.getLast?.elim x (·.new) = y := by
  induction h with
  | refl => rfl
  | @cons old new r cs _ _ ih =>
      rw [List.getLast?_cons, Option.elim_some, ← ih]
      cases cs.getLast? <;> rfl

namespace Live

variable {σ : Type} {h : Host σ} {p : Prototype} {mode : BindingMode} {l l' : Live}

/-! ## Any request -/

/-- From one graph to another while `changes` of the result are reported. -/
structure Reports (l l' : Live) (changes : List ResultChange) : Prop where
  graph : l'.graph = l.graph
  body : l'.body = l.body
  pending : l'.pending = l.pending ++ changes
  length : changes.length ≤ 1
  leads : Leads (l.graph.policyOf l.body) l.root changes l'.root

theorem Reports.refl (l : Live) : Reports l l [] :=
  ⟨rfl, rfl, (List.append_nil _).symm, Nat.zero_le _, .refl _⟩

theorem settleRoot_reports (l : Live) (target : Result) :
    ∃ changes, Reports l (l.settleRoot target) changes := by
  unfold settleRoot
  split
  · exact ⟨[], .refl l⟩
  · rename_i hsame
    exact ⟨[⟨l.root, target⟩], rfl, rfl, rfl, Nat.le_refl _, .cons (by simpa using hsame) (.refl _)⟩

/-- Before the result of the whole is settled, nothing of it has changed. -/
theorem Reports.ofFrame {m : Live} {changes : List ResultChange} (hf : SameFrame l m)
    (hm : Reports m l' changes) : Reports l l' changes where
  graph := hm.graph.trans hf.graph
  body := hm.body.trans hf.body
  pending := by rw [hm.pending, hf.pending]
  length := hm.length
  leads := by
    have hleads := hm.leads
    rwa [hf.graph, hf.body, hf.root] at hleads

theorem Reports.ofWithParameter {b : Bool} {r : Result} {changes : List ResultChange}
    (hr : Reports (l.withParameter b r) l' changes) : Reports l l' changes :=
  ⟨hr.graph, hr.body, hr.pending, hr.length, hr.leads⟩

theorem propagate_settleRoot_reports (h : Host σ) (dirty : List Nat) (l : Live) (s : σ)
    (target : Live → Result) :
    ∃ changes, Reports l ((l.propagate h dirty s).1.settleRoot (target (l.propagate h dirty s).1))
      changes := by
  obtain ⟨changes, hr⟩ := settleRoot_reports (l.propagate h dirty s).1 _
  exact ⟨changes, hr.ofFrame (propagate_frame h dirty l s)⟩

theorem bind_reports (h : Host σ) (v : Value) (l : Live) (s : σ) :
    ∃ changes, Reports l (l.bind h v s).1 changes := by
  obtain ⟨changes, hr⟩ := propagate_settleRoot_reports h l.bindAgenda
    (l.withParameter true (some v)) (h.note (.binding v) s) fun m => m.ledger.get m.body
  exact ⟨changes, hr.ofWithParameter⟩

theorem unbind_reports (h : Host σ) (l : Live) (s : σ) :
    ∃ changes, Reports l (l.unbind h s).1 changes := by
  rw [unbind_eq]
  obtain ⟨changes, hr⟩ := propagate_settleRoot_reports h (l.graph.readersOf l.parameter)
    (l.unwatched.withParameter false none) _ fun _ => none
  have hr' : Reports l.unwatched _ changes := hr.ofWithParameter
  exact ⟨changes, hr'.graph, hr'.body, hr'.pending, hr'.length, hr'.leads⟩

theorem memberChanged_reports (h : Host σ) (node : Nat) (l : Live) (s : σ) :
    ∃ changes, Reports l (l.memberChanged h node s).1 changes := by
  cases hb : l.bound with
  | false =>
      rw [memberChanged_unbound h node hb]
      exact ⟨[], .refl l⟩
  | true =>
      rw [memberChanged_eq h node hb]
      exact propagate_settleRoot_reports h [node] l s fun m => m.ledger.get m.body

/-! ## What a sweep recomputes -/

/-- The nodes that a propagation recomputes, each with whether it has taken a new result, that is one
that differs from its own under its policy. -/
def visits (h : Host σ) (dirty : List Nat) (l : Live) (s : σ) : List (Nat × Bool) :=
  (l.propagateTrace h dirty s).map fun v => (v.node, v.changed)

/-- A visited node has taken a new result just when its result in the end is one that its policy tells
from the old one. -/
theorem propagate_changed {dirty : List Nat} {s : σ} {v : Visit σ}
    (hv : v ∈ l.propagateTrace h dirty s) :
    v.changed = !Result.sameAs (l.graph.policyOf v.node) (l.ledger.get v.node)
      ((l.propagate h dirty s).1.ledger.get v.node) := by
  obtain ⟨hdiffers, htaken⟩ := sweep_result _ (Agenda.sorted_ofList dirty) hv
  rw [propagate, htaken]
  cases hchanged : v.changed with
  | true =>
      rw [hchanged] at hdiffers
      exact hdiffers
  | false =>
      rw [hchanged, eq_comm, Bool.not_eq_false_eq_eq_true] at hdiffers
      rw [if_neg Bool.false_ne_true, Result.sameAs_trans hdiffers (Result.sameAs_symm hdiffers)]
      rfl

/-- A node has a new result just when it has taken one in the propagation. -/
theorem propagate_result (h : Host σ) (dirty : List Nat) (l : Live) (s : σ) (j : Nat) :
    ((j, true) ∈ l.visits h dirty s →
        Result.sameAs (l.graph.policyOf j) (l.ledger.get j)
          ((l.propagate h dirty s).1.ledger.get j) = false) ∧
      ((j, true) ∉ l.visits h dirty s →
        (l.propagate h dirty s).1.ledger.get j = l.ledger.get j) := by
  constructor
  · intro hmem
    obtain ⟨v, hv, heq⟩ := List.mem_map.mp hmem
    obtain ⟨rfl, hchanged⟩ := Prod.mk.inj heq
    rw [propagate_changed hv] at hchanged
    simpa using hchanged
  · intro hmem
    by_cases hvisited : ∃ v ∈ l.propagateTrace h dirty s, v.node = j
    · obtain ⟨v, hv, rfl⟩ := hvisited
      have hchanged : v.changed = false := by
        refine Bool.eq_false_iff.mpr fun hc => hmem ?_
        exact List.mem_map.mpr ⟨v, hv, by rw [hc]⟩
      obtain ⟨-, htaken⟩ := sweep_result _ (Agenda.sorted_ofList dirty) hv
      rwa [hchanged] at htaken
    · exact sweep_ledger_of_unvisited _ fun v hv heq => hvisited ⟨v, hv, heq⟩

/-! ## Announced changes -/

/-- The result of the whole is the body's, or one that its policy takes for the same. -/
def RootSettled (l : Live) : Prop :=
  l.root = l.ledger.get l.body ∨
    Result.sameAs (l.graph.policyOf l.body) l.root (l.ledger.get l.body) = true

theorem settleOnBody_rootSettled (l : Live) : l.settleOnBody.RootSettled := by
  unfold settleOnBody settleRoot RootSettled
  split
  · rename_i hsame
    exact .inr hsame
  · exact .inl rfl

theorem Reached.rootSettled {e : Lambda} (hp : e.compile = .ok p) (hl : Reached h p mode l)
    (hb : l.bound = true) : l.RootSettled := by
  induction hl with
  | adopt s =>
      rw [(adopt_fresh hp h mode s).bound] at hb
      cases hb
  | bind v s _ _ => exact settleOnBody_rootSettled _
  | @unbind l s hl _ =>
      obtain ⟨hcopy, -⟩ := hl.settled hp
      rw [(unbind_unbound hcopy h s).2.2] at hb
      cases hb
  | @memberChanged l node s _ ih =>
      cases hbound : l.bound with
      | false =>
          rw [memberChanged_unbound h node hbound] at hb ⊢
          exact ih hb
      | true =>
          rw [memberChanged_eq h node hbound]
          exact settleOnBody_rootSettled _
  | takePending _ ih => exact ih hb

theorem SameFrame.settleOnBody_eq {m : Live} (hf : SameFrame l m) :
    m.settleOnBody =
      if Result.sameAs (l.graph.policyOf l.body) l.root (m.ledger.get l.body) then m
      else { m with
        root := m.ledger.get l.body
        pending := l.pending ++ [⟨l.root, m.ledger.get l.body⟩] } := by
  rw [← hf.graph, ← hf.body, ← hf.root, ← hf.pending]
  rfl

/-- A body that has taken a new result makes one change of the whole. -/
theorem RootSettled.settleOnBody_of_ne {m : Live} (hl : l.RootSettled) (hf : SameFrame l m)
    (hne : Result.sameAs (l.graph.policyOf l.body) (l.ledger.get l.body) (m.ledger.get l.body) =
      false) :
    m.settleOnBody = { m with
      root := m.ledger.get l.body
      pending := l.pending ++ [⟨l.root, m.ledger.get l.body⟩] } := by
  rw [hf.settleOnBody_eq, if_neg]
  intro hsame
  rcases hl with hroot | hroot
  · rw [hroot, hne] at hsame
    cases hsame
  · rw [Result.sameAs_trans (Result.sameAs_symm hroot) hsame] at hne
    cases hne

theorem RootSettled.settleOnBody_of_eq {m : Live} (hl : l.RootSettled) (hf : SameFrame l m)
    (heq : m.ledger.get l.body = l.ledger.get l.body) :
    m.settleOnBody = { m with
      pending := l.pending ++
        if Result.sameAs (l.graph.policyOf l.body) l.root l.root then [] else [⟨l.root, l.root⟩] } := by
  rw [hf.settleOnBody_eq, heq]
  rcases hl with hroot | hroot
  · rw [← hroot]
    split
    · simp [← hf.pending]
    · rw [← hf.root]
  · rw [if_pos hroot, if_pos (Result.sameAs_trans hroot (Result.sameAs_symm hroot))]
    simp [← hf.pending]

/-- When a change of a member is announced to a bound graph, one change of the whole is reported if
the body has taken a new result. Otherwise none is, unless the result of the whole is not the same as
itself under the policy of the body, as a struct is not: then it is reported once more. -/
theorem Reached.memberChanged_reports_iff {e : Lambda} (hp : e.compile = .ok p)
    (hl : Reached h p mode l) (hb : l.bound = true) (node : Nat) (s : σ) :
    let l' := (l.memberChanged h node s).1
    let policy := l.graph.policyOf l.body
    ((l.body, true) ∈ l.visits h [node] s →
        Result.sameAs policy (l.ledger.get l.body) (l'.ledger.get l.body) = false ∧
        l'.root = l'.ledger.get l.body ∧ l'.pending = l.pending ++ [⟨l.root, l'.root⟩]) ∧
      ((l.body, true) ∉ l.visits h [node] s →
        l'.ledger.get l.body = l.ledger.get l.body ∧ l'.root = l.root ∧
        l'.pending = l.pending ++
          if Result.sameAs policy l.root l.root then [] else [⟨l.root, l.root⟩]) := by
  intro l' policy
  have hsettled := hl.rootSettled hp hb
  have hframe := propagate_frame h [node] l s
  obtain ⟨hnew, hold⟩ := propagate_result h [node] l s l.body
  have hl' : l' = (l.propagate h [node] s).1.settleOnBody :=
    congrArg Prod.fst (memberChanged_eq h node hb s)
  rw [hl']
  constructor
  · intro hvisit
    rw [hsettled.settleOnBody_of_ne hframe (hnew hvisit)]
    exact ⟨hnew hvisit, rfl, rfl⟩
  · intro hvisit
    rw [hsettled.settleOnBody_of_eq hframe (hold hvisit)]
    exact ⟨hold hvisit, hframe.root, rfl⟩

end Live

/-! ## A struct that is reported again -/

/-- The position of a person's boss. -/
def Lambda.bossPosition : Lambda :=
  let person : ValueType := .object "Person" true
  let p : Expr := .parameter 0 person "p"
  ⟨p, .member 2 (.struct "Point") (.member 1 person p "boss" "boss") "position" "position"⟩

def Prototype.bossPosition : Prototype :=
  Lambda.bossPosition.compile.toOption.get rfl

theorem Lambda.compile_bossPosition : bossPosition.compile = .ok .bossPosition :=
  rfl

/-- The boss of the staff is somewhere. -/
def World.placedStaff : World :=
  (World.staff.addObject (.new "Point" .record)).2.modifyObject 1
    (·.write "position" (.struct ⟨2, "Point"⟩))

namespace Live

def placed : Live :=
  (adoptBound (World.host (World.dispatch World.callDepth) .recorder) .bossPosition .live
    World.employee World.placedStaff).1

theorem placed_reached :
    Reached (World.host (World.dispatch World.callDepth) .recorder) .bossPosition .live placed :=
  .bind World.employee _ (.adopt World.placedStaff)

theorem memberChanged_reports_bossPosition :
    let h := World.host (World.dispatch World.callDepth) .recorder
    let l' := (placed.memberChanged h 2 World.placedStaff).1
    placed.bound = true ∧ (placed.body, true) ∈ placed.visits h [2] World.placedStaff ∧
      l'.root = l'.ledger.get placed.body ∧ l'.pending = placed.pending ++ [⟨placed.root, l'.root⟩] := by
  intro h l'
  have hb : placed.bound = true := by decide +kernel
  have hvisit : (placed.body, true) ∈ placed.visits h [2] World.placedStaff := by decide +kernel
  exact ⟨hb, hvisit, ((placed_reached.memberChanged_reports_iff Lambda.compile_bossPosition hb 2
    World.placedStaff).1 hvisit).2⟩

/-- The boss is announced to have changed, but is the same person, so that the position is not even
read; it is reported once more all the same. -/
theorem memberChanged_reports_unvisited :
    ¬ ∀ (e : Lambda) (p : Prototype) (mode : BindingMode) (l : Live) (node : Nat) (w : World),
      let h := World.host (World.dispatch World.callDepth) .recorder
      let l' := (l.memberChanged h node w).1
      e.compile = .ok p → p.body ≠ p.parameter → Reached h p mode l → l.bound = true →
        ((l.body, true) ∈ l.visits h [node] w → ∃ c, l'.pending = l.pending ++ [c]) ∧
          ((l.body, true) ∉ l.visits h [node] w → l'.pending = l.pending) := by
  intro hall
  obtain ⟨-, hquiet⟩ := hall .bossPosition .bossPosition .live placed 1 World.placedStaff
    Lambda.compile_bossPosition (by decide +kernel) placed_reached (by decide +kernel)
  have hlength := congrArg List.length (hquiet (by decide +kernel))
  revert hlength
  decide +kernel

end Live

end LiveExpr
