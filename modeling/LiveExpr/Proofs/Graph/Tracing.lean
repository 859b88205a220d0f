import LiveExpr.Graph.Trace
import LiveExpr.Proofs.Compile.Copy
import LiveExpr.Proofs.Graph.Cloning
import Mathlib.Algebra.BigOperators.Finprod

/-!
A trace is a walk through what a node reads: depth first, a node before its inputs, these in order. The
walk is a tree, in which a node that has been met before is only referred to; the lines are the tree,
drawn from the top.
-/

namespace LiveExpr

/-! ## Trees and their lines -/

/-- What a line of a trace and the lines below it are about: a node with what it reads, or a reference to
the level of the line of a node. -/
inductive TraceTree
  | node (id : Nat) (below : List TraceTree)
  | reference (id firstLevel : Nat)

/-- The columns before a line that stands below lines of these positions. -/
def TracePosition.stem (above : List TracePosition) : String :=
  String.join (above.map continuation)

namespace TraceTree

def id : TraceTree → Nat
  | node id _ | reference id _ => id

mutual

/-- The lines of a tree, of which the first has its own position below those above. -/
def draw (above : List TracePosition) (own : TracePosition) : TraceTree → List TraceEntry
  | node id below =>
    .node (TracePosition.stem above ++ own.connector) (above.length + 1) id ::
      drawAll (above ++ [own]) below
  | reference id first => [.reference (TracePosition.stem above ++ own.connector) id first]

def drawAll (above : List TracePosition) : List TraceTree → List TraceEntry
  | [] => []
  | t :: rest => t.draw above (if rest.isEmpty then .last else .inner) ++ drawAll above rest

end

/-- Below a node is what it reads, in order. -/
inductive Follows (g : Graph) : TraceTree → Prop
  | node {id : Nat} {below : List TraceTree} :
      below.map TraceTree.id = g.inputs id → (∀ t ∈ below, Follows g t) → Follows g (.node id below)
  | reference (id first : Nat) : Follows g (.reference id first)

end TraceTree

namespace TraceEntry

def id : TraceEntry → Nat
  | node _ _ id | reference _ id _ => id

def shown? : TraceEntry → Option Nat
  | node _ _ id => some id
  | reference .. => none

/-- The nodes that are shown, and not only referred to, from the top. -/
def shown (entries : List TraceEntry) : List Nat :=
  entries.filterMap shown?

/-- A node is referred to by the level at which it has been shown before. -/
def Refers (entries : List TraceEntry) : Prop :=
  ∀ before lead id first after, entries = before ++ .reference lead id first :: after →
    ∃ lead', .node lead' first id ∈ before

@[simp] theorem shown_nil : shown [] = [] := rfl

@[simp] theorem shown_cons_reference (lead : String) (id first : Nat) (entries : List TraceEntry) :
    shown (.reference lead id first :: entries) = shown entries := rfl

@[simp] theorem shown_append (entries entries' : List TraceEntry) :
    shown (entries ++ entries') = shown entries ++ shown entries' :=
  List.filterMap_append

variable {entries : List TraceEntry}

theorem mem_shown {x : Nat} : x ∈ shown entries ↔ ∃ lead level, .node lead level x ∈ entries := by
  rw [shown, List.mem_filterMap]
  constructor
  · rintro ⟨e, he, hx⟩
    cases e with
    | node lead level y =>
        cases hx
        exact ⟨lead, level, he⟩
    | reference => cases hx
  · rintro ⟨lead, level, he⟩
    exact ⟨_, he, rfl⟩

theorem Refers.concat (h : Refers entries) {e : TraceEntry}
    (he : ∀ lead id first, e = .reference lead id first → ∃ lead', .node lead' first id ∈ entries) :
    Refers (entries ++ [e]) := by
  intro before lead id first after heq
  rcases List.eq_nil_or_concat after with rfl | ⟨after, e', rfl⟩
  · obtain ⟨rfl, hlast⟩ := List.append_inj' heq rfl
    exact he lead id first (List.singleton_inj.mp hlast)
  · rw [List.concat_eq_append, ← List.cons_append, ← List.append_assoc] at heq
    exact h before lead id first after (List.append_inj' heq rfl).1

/-- What is referred to is shown as well. -/
theorem Refers.mem_shown (h : Refers entries) {e : TraceEntry} (he : e ∈ entries) :
    e.id ∈ shown entries := by
  cases e with
  | node lead level id => exact TraceEntry.mem_shown.mpr ⟨lead, level, he⟩
  | reference lead id first =>
      obtain ⟨before, after, rfl⟩ := List.append_of_mem he
      obtain ⟨lead', hshown⟩ := h before lead id first after rfl
      exact TraceEntry.mem_shown.mpr ⟨lead', first, List.mem_append_left _ hshown⟩

end TraceEntry

/-! ## The table of levels -/

namespace TraceWalk

/-- The table has the level of every node that has been shown, and no node is shown twice. -/
structure Sound (w : TraceWalk) : Prop where
  known : ∀ id level, w.levels.lookup id = some level ↔ ∃ lead, .node lead level id ∈ w.entries
  once : (TraceEntry.shown w.entries).Nodup
  refers : TraceEntry.Refers w.entries

variable {w : TraceWalk} {id first : Nat}

theorem Sound.not_mem (hw : w.Sound) (h : w.levels.lookup id = none) (lead : String) (level : Nat) :
    .node lead level id ∉ w.entries := by
  intro hmem
  rw [(hw.known id level).mpr ⟨lead, hmem⟩] at h
  cases h

theorem Sound.show (hw : w.Sound) (h : w.levels.lookup id = none) (lead : String) (level : Nat) :
    Sound ⟨(id, level) :: w.levels, w.entries ++ [.node lead level id]⟩ where
  known := by
    intro x k
    rw [List.lookup_cons]
    by_cases hx : x = id
    · subst hx
      simp [hw.not_mem h, eq_comm]
    · rw [beq_false_of_ne hx]
      simp [hw.known, hx]
  once := by
    rw [TraceEntry.shown_append]
    refine hw.once.append (List.nodup_singleton id) (List.disjoint_singleton.mpr fun hmem => ?_)
    obtain ⟨lead', k, hmem⟩ := TraceEntry.mem_shown.mp hmem
    exact hw.not_mem h lead' k hmem
  refers := hw.refers.concat nofun

end TraceWalk

/-! ## The walk -/

namespace Graph

variable {g : Graph} {w : TraceWalk}

end Graph

/-! ## What a tree shows -/

namespace TraceTree

variable {g : Graph} {t : TraceTree} {ts : List TraceTree} {above : List TracePosition}
  {own : TracePosition} {e : TraceEntry}

theorem of_mem_drawAll (h : e ∈ drawAll above ts) :
    ∃ t ∈ ts, ∃ own, e ∈ t.draw above own ∧ t.draw above own ⊆ drawAll above ts := by
  induction ts with
  | nil => cases h
  | cons u rest ih =>
      rw [drawAll] at h ⊢
      rcases List.mem_append.mp h with h | h
      · exact ⟨u, List.mem_cons_self, _, h, List.subset_append_left _ _⟩
      · obtain ⟨t, ht, own, he, hsub⟩ := ih h
        exact ⟨t, List.mem_cons_of_mem u ht, own, he,
          List.Subset.trans hsub (List.subset_append_right _ _)⟩

namespace Follows

theorem reaches (ht : t.Follows g) (he : e ∈ t.draw above own) :
    Relation.ReflTransGen g.reads t.id e.id := by
  induction ht generalizing above own with
  | @node id below hids _ ih =>
      rw [draw] at he
      rcases List.mem_cons.mp he with rfl | he
      · exact .refl
      · obtain ⟨t, ht, own', he, -⟩ := of_mem_drawAll he
        have hread : t.id ∈ g.inputs id := by
          rw [← hids]
          exact List.mem_map_of_mem ht
        exact .head hread (ih t ht he)
  | reference id first =>
      rw [draw] at he
      obtain rfl := List.mem_singleton.mp he
      exact .refl

end Follows

end TraceTree

/-! ## Columns -/

namespace TracePosition

end TracePosition

/-! ## Traces of compiled graphs -/

namespace Graph

variable {g : Graph}

variable {l : Lambda} {p : Prototype} {mode : BindingMode}

end Graph

end LiveExpr
