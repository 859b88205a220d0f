import LiveExpr.Proofs.Compile.Copy
import LiveExpr.Proofs.Compile.Numbering
import Mathlib.Data.Set.Function
import Mathlib.Logic.Relation

/-!
A cloning session, whatever it is asked to copy. It copies what the requested nodes read, directly or
indirectly, and nothing else; every such node has one copy, whose inputs are the copies of its inputs.
-/

namespace LiveExpr

def Graph.reads (g : Graph) (id i : Nat) : Prop :=
  i ∈ g.inputs id

/-- The nodes that some of the starts read, directly or indirectly, and the starts themselves. -/
def Graph.readFrom (g : Graph) (starts : List Nat) : Set Nat :=
  {x | ∃ i ∈ starts, Relation.ReflTransGen g.reads i x}

/-- In a table without repeated keys every entry is found. -/
theorem lookup_of_mem {κ ν : Type} [BEq κ] [LawfulBEq κ] {table : List (κ × ν)} {k : κ} {v : ν}
    (hnodup : (table.map (·.1)).Nodup) (h : (k, v) ∈ table) : table.lookup k = some v := by
  obtain ⟨before, after, rfl⟩ := List.append_of_mem h
  rw [List.lookup_eq_some_iff]
  refine ⟨before, after, rfl, fun y hy => bne_iff_ne.mpr ?_⟩
  rw [List.map_append, List.nodup_append] at hnodup
  exact (hnodup.2.2 y.1 (List.mem_map_of_mem hy) k (by simp)).symm

namespace Cloning

variable {source : Graph} {c c' c'' : Cloning} {x y k : Nat} {starts starts' : List Nat}

/-- The copy of a node that has been copied. -/
def copyOf (c : Cloning) (x : Nat) : Nat :=
  (c.lookup x).getD 0

theorem copyOf_of_lookup (h : c.lookup x = some k) : c.copyOf x = k := by
  rw [copyOf, h]
  rfl

theorem lookup_copyOf (hx : (c.lookup x).isSome) : c.lookup x = some (c.copyOf x) := by
  obtain ⟨k, hk⟩ := Option.isSome_iff_exists.mp hx
  rw [hk, copyOf_of_lookup hk]

/-- Copies are numbered as they are made, one for each node, and those of a node's inputs are made
before. -/
structure Sound (source : Graph) (c : Cloning) : Prop where
  originals : (c.copies.map (·.1)).Nodup
  numbers : c.copies.map (·.2) = (List.range c.target.size).reverse
  copied : ∀ x k, c.lookup x = some k → ∃ n, source.nodes[x]? = some n ∧
    (∀ i ∈ n.inputs, (c.lookup i).isSome) ∧
    c.target.nodes[k]? = some { n.adapt c.mode with inputs := n.inputs.map c.copyOf }

theorem sound_start (source : Graph) (mode : BindingMode) : Sound source (.start mode .empty) where
  originals := List.nodup_nil
  numbers := rfl
  copied _ _ h := nomatch h

namespace Sound

variable (hc : Sound source c)

include hc

theorem lookup_iff : c.lookup x = some k ↔ (x, k) ∈ c.copies := by
  constructor
  · intro h
    obtain ⟨_, _, heq, -⟩ := List.lookup_eq_some_iff.mp h
    rw [heq]
    exact List.mem_append_right _ List.mem_cons_self
  · exact lookup_of_mem hc.originals

theorem lt_size (h : c.lookup x = some k) : k < c.target.size := by
  have hmem : k ∈ c.copies.map (·.2) := List.mem_map.mpr ⟨_, hc.lookup_iff.mp h, rfl⟩
  rw [hc.numbers] at hmem
  simpa using hmem

theorem injective (hx : c.lookup x = some k) (hy : c.lookup y = some k) : x = y := by
  have hnodup : (c.copies.map (·.2)).Nodup := by
    rw [hc.numbers]
    exact List.nodup_reverse.mpr List.nodup_range
  have heq := List.inj_on_of_nodup_map hnodup (hc.lookup_iff.mp hx) (hc.lookup_iff.mp hy) rfl
  exact congrArg Prod.fst heq

theorem surjective (hk : k < c.target.size) : ∃ x, c.lookup x = some k := by
  have hmem : k ∈ c.copies.map (·.2) := by
    rw [hc.numbers]
    simpa using hk
  obtain ⟨⟨x, _⟩, hx, rfl⟩ := List.mem_map.mp hmem
  exact ⟨x, hc.lookup_iff.mpr hx⟩

/-- Everything in the target is the copy of one node. -/
theorem bijOn : Set.BijOn c.copyOf {x | (c.lookup x).isSome} (Set.Iio c.target.size) := by
  refine ⟨fun x hx => hc.lt_size (lookup_copyOf hx), fun x hx y hy heq => ?_, fun k hk => ?_⟩
  · refine hc.injective (lookup_copyOf hx) ?_
    rw [show c.copyOf x = c.copyOf y from heq]
    exact lookup_copyOf hy
  · obtain ⟨x, hx⟩ := hc.surjective hk
    exact ⟨x, Option.isSome_iff_exists.mpr ⟨k, hx⟩, copyOf_of_lookup hx⟩

theorem size_eq : c.size = c.target.size := by
  simpa [Cloning.size] using congrArg List.length hc.numbers

/-- What has been copied has been copied with all that it reads. -/
theorem closed (hx : (c.lookup x).isSome) (h : Relation.ReflTransGen source.reads x y) :
    (c.lookup y).isSome := by
  induction h with
  | refl => exact hx
  | @tail y z _ hread ih =>
      obtain ⟨k, hk⟩ := Option.isSome_iff_exists.mp ih
      obtain ⟨n, hn, hinputs, -⟩ := hc.copied y k hk
      rw [Graph.reads, Graph.inputs_of_node hn] at hread
      exact hinputs z hread

end Sound

/-- What is copied meanwhile is what the nodes of a list read. -/
structure Copies (source : Graph) (starts : List Nat) (c c' : Cloning) : Prop where
  sound : Sound source c'
  mode : c'.mode = c.mode
  keeps : ∀ x k, c.lookup x = some k → c'.lookup x = some k
  domain : ∀ x, (c'.lookup x).isSome ↔
    (c.lookup x).isSome ∨ ∃ i ∈ starts, Relation.ReflTransGen source.reads i x

theorem Copies.copyOf (h : Copies source starts c c') (hx : (c.lookup x).isSome) :
    c'.copyOf x = c.copyOf x := by
  obtain ⟨k, hk⟩ := Option.isSome_iff_exists.mp hx
  rw [copyOf_of_lookup hk, copyOf_of_lookup (h.keeps x k hk)]

theorem Copies.refl (hc : Sound source c) : Copies source [] c c where
  sound := hc
  mode := rfl
  keeps _ _ h := h
  domain _ := by simp

theorem Copies.trans (h : Copies source starts c c') (h' : Copies source starts' c' c'') :
    Copies source (starts ++ starts') c c'' where
  sound := h'.sound
  mode := h'.mode.trans h.mode
  keeps x k hk := h'.keeps x k (h.keeps x k hk)
  domain x := by
    rw [h'.domain, h.domain, or_assoc]
    simp only [List.mem_append, or_and_right, exists_or]

/-- A node that has been copied is not copied again, nor is anything that it reads. -/
theorem copies_of_copied (hc : Sound source c) (h : c.lookup x = some k) : Copies source [x] c c where
  sound := hc
  mode := rfl
  keeps _ _ h := h
  domain y := by
    simp only [List.mem_singleton, exists_eq_left, iff_self_or]
    exact hc.closed (Option.isSome_iff_exists.mpr ⟨k, h⟩)

theorem lookup_place (c : Cloning) (id : Nat) (n : Node) (inputs : List Nat) (x : Nat) :
    (c.place id n inputs).2.lookup x = if x = id then some c.target.size else c.lookup x := by
  rw [place, lookup, List.lookup_cons]
  by_cases hx : x = id
  · simp [hx]
  · rw [beq_false_of_ne hx, if_neg hx]
    rfl

/-- A new copy is put behind those of its inputs. -/
theorem Sound.place {n : Node} (hc : Sound source c) (hnew : c.lookup x = none)
    (hn : source.nodes[x]? = some n) (hinputs : ∀ i ∈ n.inputs, (c.lookup i).isSome) :
    Sound source (c.place x n (n.inputs.map c.copyOf)).2 := by
  have hkept : ∀ {y}, (c.lookup y).isSome →
      (c.place x n (n.inputs.map c.copyOf)).2.lookup y = c.lookup y := by
    intro y hy
    rw [lookup_place, if_neg]
    rintro rfl
    rw [hnew] at hy
    cases hy
  have hlt : ∀ i ∈ n.inputs.map c.copyOf, i < c.target.size := by
    intro j hj
    obtain ⟨i, hi, rfl⟩ := List.mem_map.mp hj
    obtain ⟨k, hk⟩ := Option.isSome_iff_exists.mp (hinputs i hi)
    rw [copyOf_of_lookup hk]
    exact hc.lt_size hk
  have hcopies : ∀ {m : Node}, (∀ i ∈ m.inputs, (c.lookup i).isSome) →
      m.inputs.map (c.place x n (n.inputs.map c.copyOf)).2.copyOf = m.inputs.map c.copyOf := by
    intro m hm
    refine List.map_congr_left fun i hi => ?_
    rw [copyOf, hkept (hm i hi), ← copyOf]
  refine ⟨?_, ?_, fun y k hy => ?_⟩
  · refine List.nodup_cons.mpr ⟨fun hmem => ?_, hc.originals⟩
    obtain ⟨⟨_, k⟩, hk, rfl⟩ := List.mem_map.mp hmem
    rw [hc.lookup_iff.mpr hk] at hnew
    cases hnew
  · rw [Cloning.place, Graph.size_add, List.range_succ, List.reverse_append, List.map_cons, hc.numbers]
    rfl
  · rw [lookup_place] at hy
    split at hy
    · subst y
      obtain rfl : c.target.size = k := Option.some.inj hy
      refine ⟨n, hn, fun i hi => by rw [hkept (hinputs i hi)]; exact hinputs i hi, ?_⟩
      rw [hcopies hinputs]
      exact Graph.nodes_add_size hlt
    · obtain ⟨m, hm, hread, hnode⟩ := hc.copied y k hy
      refine ⟨m, hm, fun i hi => by rw [hkept (hread i hi)]; exact hread i hi, ?_⟩
      rw [hcopies hread]
      exact Graph.extends_add _ _ k _ hnode

theorem le_of_reads (h : Relation.ReflTransGen source.reads x y) : y ≤ x := by
  induction h with
  | refl => exact Nat.le_refl x
  | tail _ hread ih => exact Nat.le_of_lt (Nat.lt_of_lt_of_le (Graph.lt_of_mem_inputs hread) ih)

theorem Copies.place {n : Node} (h : Copies source n.inputs c c') (hnew : c.lookup x = none)
    (hn : source.nodes[x]? = some n) :
    Copies source [x] c (c'.place x n (n.inputs.map c'.copyOf)).2 := by
  have hreads : ∀ i, source.reads x i ↔ i ∈ n.inputs := fun i => by
    rw [Graph.reads, Graph.inputs_of_node hn]
  have hnew' : c'.lookup x = none := by
    rw [← Option.not_isSome_iff_eq_none, h.domain, hnew]
    rintro (hnone | ⟨i, hi, hpath⟩)
    · cases hnone
    · exact absurd (le_of_reads hpath) (Nat.not_le_of_lt (Graph.lt_of_mem_inputs ((hreads i).mpr hi)))
  have hinputs : ∀ i ∈ n.inputs, (c'.lookup i).isSome :=
    fun i hi => (h.domain i).mpr (.inr ⟨i, hi, .refl⟩)
  refine ⟨h.sound.place hnew' hn hinputs, h.mode, fun y k hy => ?_, fun y => ?_⟩
  · rw [lookup_place, if_neg]
    · exact h.keeps y k hy
    · rintro rfl
      rw [hnew] at hy
      cases hy
  · have hpath : Relation.ReflTransGen source.reads x y ↔
        x = y ∨ ∃ i ∈ n.inputs, Relation.ReflTransGen source.reads i y := by
      rw [Relation.ReflTransGen.cases_head_iff]
      simp only [hreads]
    simp only [List.mem_singleton, exists_eq_left, hpath]
    rw [lookup_place]
    split
    · simp [*]
    · rename_i hne
      rw [h.domain, or_iff_right (Ne.symm hne)]

/-! ## Copying -/

/-- One copy after the other: the session grows by what all of them read. -/
theorem foldl_copies (is : List Nat)
    (hall : ∀ i ∈ is, ∀ {c}, Sound source c → Copies source [i] c (clone source i c).2 ∧
      (clone source i c).2.lookup i = some (clone source i c).1)
    (hc : Sound source c) (done : List Nat) :
    let t := is.foldl (cloneNext source) (done, c)
    Copies source is c t.2 ∧ t.1 = done ++ is.map t.2.copyOf := by
  induction is generalizing c done with
  | nil => exact ⟨.refl hc, (List.append_nil done).symm⟩
  | cons i is ih =>
      obtain ⟨hi, hcopy⟩ := hall i List.mem_cons_self hc
      obtain ⟨hrest, hcopies⟩ := ih (fun j hj => hall j (List.mem_cons_of_mem i hj)) hi.sound
        (done ++ [(clone source i c).1])
      refine ⟨hi.trans hrest, ?_⟩
      rw [List.foldl_cons, cloneNext, hcopies, List.append_assoc, List.map_cons,
        copyOf_of_lookup (hrest.keeps _ _ hcopy)]
      rfl

/-- Copying a node copies what it reads, and answers with the number that has been recorded. -/
theorem clone_copies (hx : x < source.size) (hc : Sound source c) :
    Copies source [x] c (clone source x c).2 ∧
      (clone source x c).2.lookup x = some (clone source x c).1 := by
  induction x using Nat.strongRecOn generalizing c with
  | ind x ih =>
      cases hnew : c.lookup x with
      | some k =>
          rw [clone_of_copied hnew]
          exact ⟨copies_of_copied hc hnew, hnew⟩
      | none =>
          have hn : source.nodes[x]? = some source.nodes[x] := Array.getElem?_eq_getElem hx
          have hlt : ∀ i ∈ source.nodes[x].inputs, i < x := source.inputs_lt x hx
          obtain ⟨hcopied, hinputs⟩ := foldl_copies source.nodes[x].inputs
            (fun i hi _ hc => ih i (hlt i hi) ((hlt i hi).trans hx) hc) hc []
          rw [clone_of_new hnew hn, hinputs, List.nil_append]
          exact ⟨hcopied.place hnew hn, (lookup_place _ _ _ _ x).trans (if_pos rfl)⟩

/-- A session that is asked for any nodes, one after the other, into an empty graph has recorded exactly
the nodes that they read and themselves, each with a copy of its own, and there is nothing else in the
graph. A copy is its node, adapted to the mode, and reads the copies of what its node reads, which come
before it. Whoever asks again for what has been copied gets the same copy, and nothing is added. -/
theorem session_copies_once (source : Graph) (mode : BindingMode) {roots : List Nat}
    (hroots : ∀ r ∈ roots, r < source.size) :
    let t := roots.foldl (cloneNext source) ([], .start mode .empty)
    ∃ copy : Nat → Nat,
      (∀ x k, t.2.lookup x = some k ↔ x ∈ source.readFrom roots ∧ copy x = k) ∧
      Set.BijOn copy (source.readFrom roots) (Set.Iio t.2.target.size) ∧
      t.2.size = t.2.target.size ∧ t.1 = roots.map copy ∧
      ∀ x ∈ source.readFrom roots,
        (∃ n, source.nodes[x]? = some n ∧ t.2.target.nodes[copy x]? =
          some { n with kind := mode.adapt n.kind, inputs := n.inputs.map copy }) ∧
        (∀ i ∈ source.inputs x, copy i < copy x) ∧ clone source x t.2 = (copy x, t.2) := by
  intro t
  obtain ⟨hsession, hcopies⟩ := foldl_copies (c := .start mode .empty) roots
    (fun r hr {_} hc => clone_copies (hroots r hr) hc) (sound_start source mode) []
  have hsound : Sound source t.2 := hsession.sound
  have hdomain : {x | (t.2.lookup x).isSome} = source.readFrom roots :=
    Set.ext fun x => (hsession.domain x).trans (or_iff_right nofun)
  have hcopied {x : Nat} (hx : x ∈ source.readFrom roots) : t.2.lookup x = some (t.2.copyOf x) :=
    lookup_copyOf (hdomain.symm.subset hx)
  refine ⟨t.2.copyOf, fun x k => ⟨fun hk => ⟨?_, copyOf_of_lookup hk⟩, ?_⟩, hdomain ▸ hsound.bijOn,
    hsound.size_eq, hcopies, fun x hx => ?_⟩
  · exact hdomain.subset (Option.isSome_iff_exists.mpr ⟨k, hk⟩)
  · rintro ⟨hx, rfl⟩
    exact hcopied hx
  · obtain ⟨n, hn, -, hnode⟩ := hsound.copied x _ (hcopied hx)
    have hmode : t.2.mode = mode := hsession.mode
    rw [hmode] at hnode
    refine ⟨⟨n, hn, hnode⟩, fun i hi => ?_, clone_of_copied (hcopied hx)⟩
    rw [Graph.inputs_of_node hn] at hi
    refine Graph.lt_of_mem_inputs (g := t.2.target) ?_
    rw [Graph.inputs_of_node hnode]
    exact List.mem_map_of_mem hi

/-- In `(p.age == p.boss.age) & !(p.age == p.boss.age)` the age of the boss is asked for first, then the
own age, and then the first one again: four nodes of seven are copied, and renumbered. -/
theorem session_of_ages :
    let g := (Lambda.ageParadox.compile.toOption.get rfl).graph
    let t := [3, 1, 3].foldl (cloneNext g) ([], .start .oneTime .empty)
    (∀ r ∈ [3, 1, 3], r < g.size) ∧ t.1 = [2, 3, 2] ∧ g.size = 7 ∧
      ∃ copy : Nat → Nat, Set.BijOn copy (g.readFrom [3, 1, 3]) (Set.Iio 4) ∧
        copy 3 = 2 ∧ copy 1 = 3 := by
  intro g t
  have hroots : ∀ r ∈ [3, 1, 3], r < g.size := by decide +kernel
  obtain ⟨copy, -, hbij, -, hcopies, -⟩ := session_copies_once g .oneTime hroots
  have hthree : t.1 = [2, 3, 2] := by decide +kernel
  have hsize : t.2.target.size = 4 := by decide +kernel
  have hboth : [2, 3, 2] = [copy 3, copy 1, copy 3] := hthree.symm.trans hcopies
  simp only [List.cons.injEq, and_true] at hboth
  exact ⟨hroots, hthree, by decide +kernel, copy, hsize ▸ hbij, hboth.1.symm, hboth.2.1.symm⟩

end Cloning

end LiveExpr
