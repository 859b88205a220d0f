import LiveExpr.Proofs.Live.Reports

/-!
A graph touches the world around it through the services of its host alone, so that what all of them
keep is kept by every request.
-/

namespace LiveExpr

variable {σ : Type}

/-- No service of the host, whatever it is asked for, takes the property away. -/
structure Host.Preserves (h : Host σ) (P : σ → Prop) : Prop where
  access : ∀ {s} member v, P s → P (h.access member v s).2
  watch : ∀ {s} r node member, P s → P (h.watch r node member s).2
  unwatch : ∀ {s} w, P s → P (h.unwatch w s)
  note : ∀ {s} n, P s → P (h.note n s)

variable {h : Host σ} {P : σ → Prop} {l l' : Live} {s s' : σ}

/-! ## One node -/

theorem Host.Preserves.leave (hP : h.Preserves P) (w : Option Watch) (hs : P s) :
    P (w.elim s (h.unwatch · s)) := by
  cases w with
  | none => exact hs
  | some w => exact hP.unwatch w hs

theorem Live.Rewatched.preserves {id : Nat} (hr : Rewatched h id l s l' s') (hP : h.Preserves P)
    (hs : P s) : P s' := by
  cases hr with
  | unobserved | kept => exact hs
  | left => exact hP.leave _ hs
  | moved _ _ _ hw =>
      rw [← show _ = s' from congrArg Prod.snd hw]
      exact hP.watch _ _ _ (hP.leave _ hs)

theorem Live.evaluate_preserves (hP : ∀ {s} member v, P s → P (h.access member v s).2) (l : Live)
    (id : Nat) (hs : P s) : P (l.evaluate h id s).2 := by
  unfold Live.evaluate
  cases l.graph.nodes[id]? with
  | none => exact hs
  | some n =>
      simp only
      cases n.kind with
      | memberAccess member reads observe =>
          simp only
          cases Result.object? (l.operand id 0) with
          | none => exact hs
          | some target => exact hP reads target hs
      | _ => exact hs

theorem Host.Preserves.evaluate (hP : h.Preserves P) (l : Live) (id : Nat) (hs : P s) :
    P (l.evaluate h id s).2 :=
  Live.evaluate_preserves hP.access l id hs

theorem Live.Accepted.preserves {id : Nat} {r : Result} {changed : Bool}
    (ha : Accepted h id r l s changed l' s') (hP : h.Preserves P) (hs : P s) : P s' := by
  cases ha <;> exact hP.note _ hs

theorem Live.Recomputed.preserves {id : Nat} {changed : Bool}
    (hr : Recomputed h id l s changed l' s') (hP : h.Preserves P) (hs : P s) : P s' := by
  cases hr with
  | @mk l₁ _ s₁ _ _ _ _ hw he ha =>
      have hread := hP.evaluate l₁ id (hw.preserves hP hs)
      rw [he] at hread
      exact ha.preserves hP hread

/-! ## Requests -/

namespace Host.Preserves

variable (hP : h.Preserves P)

include hP

theorem propagate (dirty : List Nat) (l : Live) (hs : P s) : P (l.propagate h dirty s).2 :=
  (Live.propagate_visits (fun _ t => P t) (fun _ _ _ => True)
    (fun ht hr => ⟨hr.preserves hP ht, trivial⟩) (fun _ _ _ _ => trivial) dirty hs).1

theorem bind (v : Value) (l : Live) (hs : P s) : P (l.bind h v s).2 :=
  hP.propagate _ _ (hP.note _ hs)

theorem releaseWatches (l : Live) (hs : P s) : P (l.releaseWatches h s).2 := by
  change P (l.watches.toList.foldl (fun s w => w.elim s (h.unwatch · s)) s)
  generalize l.watches.toList = watches
  induction watches generalizing s with
  | nil => exact hs
  | cons w rest ih => exact ih (hP.leave w hs)

theorem unbind (l : Live) (hs : P s) : P (l.unbind h s).2 := by
  rw [Live.unbind_eq]
  refine hP.propagate _ _ (hP.releaseWatches _ ?_)
  split
  · exact hP.note _ hs
  · exact hs

theorem memberChanged (node : Nat) (l : Live) (hs : P s) : P (l.memberChanged h node s).2 := by
  cases hb : l.bound with
  | false =>
      rw [Live.memberChanged_unbound h node hb]
      exact hs
  | true =>
      rw [Live.memberChanged_eq h node hb]
      exact hP.propagate [node] l hs

theorem adopt (p : Prototype) (mode : BindingMode) (hs : P s) : P (Live.adopt h p mode s).2 := by
  rw [Live.adopt_eq]
  exact (Live.foldl_store_visits (fun _ t => P t) (fun _ _ => True)
    (fun {id l _} ht => ⟨hP.evaluate l id ht, trivial⟩) (fun _ _ _ => trivial) _ _ (hP.note _ hs) _).1

theorem evaluateOnce (v : Value) (l : Live) (hs : P s) : P (l.evaluateOnce h v s).2.2 := by
  have hbound := hP.bind v l hs
  unfold Live.evaluateOnce
  generalize l.bind h v s = t at *
  exact hP.unbind t.1 hbound

end Host.Preserves

/-- A request does nothing to the world but through the services of the host, and reports at most one
change. -/
structure Host.Conducts (h : Host σ) (op : Live → σ → Live × σ) : Prop where
  preserves : ∀ {P : σ → Prop}, h.Preserves P → ∀ (l : Live) {s}, P s → P (op l s).2
  reports : ∀ l s, ∃ changes, Live.Reports l (op l s).1 changes

theorem Host.conducts_bind (h : Host σ) (v : Value) : h.Conducts (Live.bind h v) :=
  ⟨fun hP l => hP.bind v l, Live.bind_reports h v⟩

theorem Host.conducts_unbind (h : Host σ) : h.Conducts (Live.unbind h) :=
  ⟨fun hP l => hP.unbind l, Live.unbind_reports h⟩

theorem Host.conducts_memberChanged (h : Host σ) (node : Nat) :
    h.Conducts (Live.memberChanged h node) :=
  ⟨fun hP l => hP.memberChanged node l, Live.memberChanged_reports h node⟩

/-! ## Tasks -/

/-- What a graph can be asked for. -/
inductive Task
  | bind (v : Value)
  | unbind
  | memberChanged (node : Nat)

namespace Task

def request : Task → Request
  | bind _ => .bind
  | unbind => .unbind
  | memberChanged _ => .memberNotification

def run (h : Host σ) : Task → Live → σ → Live × σ
  | bind v => Live.bind h v
  | unbind => Live.unbind h
  | memberChanged node => Live.memberChanged h node

def binds : Task → Bool
  | bind _ => true
  | unbind | memberChanged _ => false

theorem conducts (t : Task) (h : Host σ) : h.Conducts (t.run h) := by
  cases t with
  | bind v => exact h.conducts_bind v
  | unbind => exact h.conducts_unbind
  | memberChanged node => exact h.conducts_memberChanged node

theorem pending_le (t : Task) (h : Host σ) {l : Live} (hl : l.pending = []) (s : σ) :
    (t.run h l s).1.pending.length ≤ 1 := by
  obtain ⟨changes, hreports⟩ := (t.conducts h).reports l s
  rw [hreports.pending, hl]
  exact hreports.length

end Task

end LiveExpr
