import LiveExpr.Graph.Telemetry
import Mathlib.Data.List.Perm.Basic
import Mathlib.Data.Finset.Card
import Mathlib.Tactic

/-!
One pass in ascending order finds what a breadth-first search along the readers would: everything
that can be reached from where it starts.
-/

namespace LiveExpr.Graph

variable {g : Graph} {start : List Nat}

def readBy (g : Graph) (i j : Nat) : Prop :=
  j ∈ g.readersOf i

theorem lt_of_readBy {i j : Nat} (h : g.readBy i j) : i < j ∧ j < g.size :=
  ⟨lt_of_mem_inputs (mem_readersOf.mp h), lt_size_of_mem_inputs (mem_readersOf.mp h)⟩

/-- What the pass has reached when it has looked at the nodes up to a number. -/
def downstreamBelow (g : Graph) (start : List Nat) (size : Nat) : List Nat :=
  (List.range size).foldl
    (fun reached id =>
      if start.contains id || (g.inputs id).any reached.contains then reached ++ [id] else reached)
    []

theorem downstreamBelow_succ (g : Graph) (start : List Nat) (size : Nat) :
    g.downstreamBelow start (size + 1) =
      if start.contains size || (g.inputs size).any (g.downstreamBelow start size).contains then
        g.downstreamBelow start size ++ [size]
      else g.downstreamBelow start size := by
  rw [downstreamBelow, List.range_succ, List.foldl_append]
  rfl

theorem mem_downstreamBelow_succ {size id : Nat} :
    id ∈ g.downstreamBelow start (size + 1) ↔ id ∈ g.downstreamBelow start size ∨
      (id = size ∧ (size ∈ start ∨ ∃ i ∈ g.inputs size, i ∈ g.downstreamBelow start size)) := by
  rw [downstreamBelow_succ]
  have hcond : (start.contains size || (g.inputs size).any (g.downstreamBelow start size).contains) =
      true ↔ size ∈ start ∨ ∃ i ∈ g.inputs size, i ∈ g.downstreamBelow start size := by
    simp
  split
  · rename_i h
    simp [hcond.mp h]
  · rename_i h
    simp [mt hcond.mpr h]

theorem mem_downstreamBelow {size id : Nat} :
    id ∈ g.downstreamBelow start size ↔
      id < size ∧ (id ∈ start ∨ ∃ i ∈ g.inputs id, i ∈ g.downstreamBelow start size) := by
  induction size generalizing id with
  | zero => simp [downstreamBelow]
  | succ size ih =>
      -- a node that the pass has come by reads only nodes that it came by before
      have hsame : ∀ j ≤ size, (∃ i ∈ g.inputs j, i ∈ g.downstreamBelow start (size + 1)) ↔
          ∃ i ∈ g.inputs j, i ∈ g.downstreamBelow start size := by
        intro j hj
        refine exists_congr fun i => and_congr_right fun hi => ?_
        have hne : i ≠ size := Nat.ne_of_lt (Nat.lt_of_lt_of_le (lt_of_mem_inputs hi) hj)
        simp [mem_downstreamBelow_succ, hne]
      rw [mem_downstreamBelow_succ]
      constructor
      · rintro (hid | ⟨rfl, hid⟩)
        · obtain ⟨hlt, hid⟩ := ih.mp hid
          exact ⟨Nat.lt_succ_of_lt hlt, by rwa [hsame id hlt.le]⟩
        · exact ⟨Nat.lt_succ_self id, by rwa [hsame id le_rfl]⟩
      · rintro ⟨hlt, hid⟩
        rw [hsame id (Nat.le_of_lt_succ hlt)] at hid
        rcases Nat.lt_succ_iff_lt_or_eq.mp hlt with hlt | rfl
        · exact .inl (ih.mpr ⟨hlt, hid⟩)
        · exact .inr ⟨rfl, hid⟩

theorem mem_downstream {id : Nat} :
    id ∈ g.downstream start ↔
      id < g.size ∧ (id ∈ start ∨ ∃ i ∈ g.inputs id, i ∈ g.downstream start) :=
  mem_downstreamBelow

/-- Downstream of a set of nodes is what can be reached from it by going from a node to its readers.
-/
theorem mem_downstream_iff_reaches {id : Nat} :
    id ∈ g.downstream start ↔
      id < g.size ∧ ∃ i ∈ start, Relation.ReflTransGen g.readBy i id := by
  constructor
  · intro hid
    induction id using Nat.strongRecOn with
    | ind id ih =>
        obtain ⟨hlt, hstart | ⟨i, hi, hmem⟩⟩ := mem_downstream.mp hid
        · exact ⟨hlt, id, hstart, .refl⟩
        · obtain ⟨-, j, hj, hpath⟩ := ih i (lt_of_mem_inputs hi) hmem
          exact ⟨hlt, j, hj, hpath.tail (mem_readersOf.mpr hi)⟩
  · rintro ⟨hlt, i, hi, hpath⟩
    induction hpath with
    | refl => exact mem_downstream.mpr ⟨hlt, .inl hi⟩
    | @tail j k _ hread ih =>
        have hj : j < g.size := (lt_of_readBy hread).1.trans hlt
        exact mem_downstream.mpr ⟨hlt, .inr ⟨j, mem_readersOf.mp hread, ih hj⟩⟩

theorem readersOf_of_size_le {id : Nat} (hid : g.size ≤ id) : g.readersOf id = [] := by
  rw [List.eq_nil_iff_forall_not_mem]
  intro j hj
  exact Nat.not_lt_of_le hid ((lt_of_readBy hj).1.trans (lt_of_readBy hj).2)

theorem lt_size_of_reaches {x y : Nat} (hx : x < g.size)
    (h : Relation.ReflTransGen g.readBy x y) : y < g.size := by
  cases h with
  | refl => exact hx
  | tail _ hread => exact (lt_of_readBy hread).2

/-! ## Breadth first -/

variable {reached queue : List Nat} {id x y : Nat}

/-- The nodes that a search has still to come by. -/
def unreached (g : Graph) (reached : List Nat) : Finset Nat :=
  Finset.range g.size \ reached.toFinset

theorem unreached_append (g : Graph) (reached : List Nat) (id : Nat) :
    g.unreached (reached ++ [id]) = (g.unreached reached).erase id := by
  rw [unreached, unreached, List.toFinset_append, ← Finset.sdiff_insert]
  congr 1
  ext
  simp

/-- Takes the nodes from the front of a queue and puts the readers of those that are new at its end.
It ends, as each node is new once. -/
def search (g : Graph) (reached queue : List Nat) : List Nat :=
  match queue with
  | [] => reached
  | id :: rest =>
    if id ∈ reached then g.search reached rest
    else g.search (reached ++ [id]) (rest ++ g.readersOf id)
termination_by ((g.unreached reached).card, queue.length)
decreasing_by
  · exact Prod.Lex.right _ (Nat.lt_succ_self _)
  · rw [unreached_append]
    by_cases hid : id ∈ g.unreached reached
    · exact Prod.Lex.left _ _ (Finset.card_erase_lt_of_mem hid)
    · have hsize : g.size ≤ id := by
        simpa [unreached, *] using hid
      rw [Finset.erase_eq_of_notMem hid, readersOf_of_size_le hsize, List.append_nil]
      exact Prod.Lex.right _ (Nat.lt_succ_self _)

/-- The readers of what has been reached have been reached, or will be looked at later. -/
def ClosedUpTo (g : Graph) (reached later : List Nat) : Prop :=
  ∀ i ∈ reached, ∀ j ∈ g.readersOf i, j ∈ reached ∨ j ∈ later

theorem closedUpTo_nil (g : Graph) (later : List Nat) : g.ClosedUpTo [] later :=
  fun _ hi => absurd hi List.not_mem_nil

theorem ClosedUpTo.pass (h : g.ClosedUpTo reached (id :: queue)) (hid : id ∈ reached) :
    g.ClosedUpTo reached queue := by
  intro i hi j hj
  rcases h i hi j hj with hj | hj
  · exact .inl hj
  · rcases List.mem_cons.mp hj with rfl | hj
    · exact .inl hid
    · exact .inr hj

theorem ClosedUpTo.reach (h : g.ClosedUpTo reached (id :: queue)) :
    g.ClosedUpTo (reached ++ [id]) (queue ++ g.readersOf id) := by
  intro i hi j hj
  rcases List.mem_append.mp hi with hi | hi
  · rcases h i hi j hj with hj | hj
    · exact .inl (List.mem_append_left _ hj)
    · rcases List.mem_cons.mp hj with rfl | hj
      · exact .inl (List.mem_append_right _ List.mem_cons_self)
      · exact .inr (List.mem_append_left _ hj)
  · obtain rfl := List.mem_singleton.mp hi
    exact .inr (List.mem_append_right _ hj)

/-- A path out of what has been reached goes through what will be looked at later. -/
theorem ClosedUpTo.reaches (h : g.ClosedUpTo reached queue) (hid : id ∈ reached)
    (hpath : Relation.ReflTransGen g.readBy id x) :
    x ∈ reached ∨ ∃ s ∈ queue, Relation.ReflTransGen g.readBy s x := by
  induction hpath with
  | refl => exact .inl hid
  | @tail y z _ hread ih =>
      rcases ih with hy | ⟨s, hs, hpath⟩
      · exact (h y hy z hread).imp_right fun hz => ⟨z, hz, .refl⟩
      · exact .inr ⟨s, hs, hpath.tail hread⟩

theorem mem_search (h : g.ClosedUpTo reached queue) :
    x ∈ g.search reached queue ↔
      x ∈ reached ∨ ∃ s ∈ queue, Relation.ReflTransGen g.readBy s x := by
  fun_induction search g reached queue with
  | case1 reached => simp
  | case2 reached id rest hid ih =>
      rw [ih (h.pass hid)]
      constructor
      · exact Or.imp_right fun ⟨s, hs, hpath⟩ => ⟨s, List.mem_cons_of_mem id hs, hpath⟩
      · rintro (hx | ⟨s, hs, hpath⟩)
        · exact .inl hx
        · rcases List.mem_cons.mp hs with rfl | hs
          · exact (h.pass hid).reaches hid hpath
          · exact .inr ⟨s, hs, hpath⟩
  | case3 reached id rest hid ih =>
      have hpath : Relation.ReflTransGen g.readBy id x ↔
          x = id ∨ ∃ j ∈ g.readersOf id, Relation.ReflTransGen g.readBy j x := by
        rw [Relation.ReflTransGen.cases_head_iff, eq_comm]
        rfl
      rw [ih h.reach]
      simp only [List.mem_append, List.mem_cons, List.not_mem_nil, or_false, or_and_right, exists_or,
        exists_eq_left, hpath, or_assoc]
      exact or_congr_right (or_congr_right or_comm)

theorem nodup_search (h : reached.Nodup) : (g.search reached queue).Nodup := by
  fun_induction search g reached queue with
  | case1 => exact h
  | case2 reached id rest hid ih => exact ih h
  | case3 reached id rest hid ih =>
      exact ih (h.append (List.nodup_singleton id) (List.disjoint_singleton.mpr hid))

/-- In ascending order each node is looked at once. -/
theorem downstreamBelow_sublist (g : Graph) (start : List Nat) (size : Nat) :
    (g.downstreamBelow start size).Sublist (List.range size) := by
  induction size with
  | zero => exact List.Sublist.refl _
  | succ size ih =>
      rw [downstreamBelow_succ, List.range_succ]
      split
      · exact ih.append (List.Sublist.refl _)
      · exact ih.trans (List.sublist_append_left _ _)

theorem nodup_downstream (g : Graph) (start : List Nat) : (g.downstream start).Nodup :=
  (downstreamBelow_sublist g start g.size).nodup List.nodup_range

/-- A breadth-first search comes once by each of the nodes that one pass in ascending order finds. -/
theorem search_perm_downstream (hstart : ∀ s ∈ start, s < g.size) :
    (g.search [] start).Perm (g.downstream start) := by
  rw [List.perm_ext_iff_of_nodup (nodup_search List.nodup_nil) (nodup_downstream g start)]
  intro id
  rw [mem_search (closedUpTo_nil g start), mem_downstream_iff_reaches, or_iff_right List.not_mem_nil,
    and_iff_right_of_imp]
  rintro ⟨s, hs, hpath⟩
  exact lt_size_of_reaches (hstart s hs) hpath

end LiveExpr.Graph
