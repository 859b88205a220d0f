import LiveExpr.Proofs.Compile.Visited
import LiveExpr.Proofs.Graph.Downstream

/-!
The edges of a graph as they are laid out in machine words. The inputs of all nodes stand one after
the other in one table, and of each node it is kept where its own begin and how many there are; the
lists of readers grow in a loop over the inputs of each new node. While nodes and inputs can be counted
in a word, the tables say what the graph says.
-/

namespace LiveExpr

namespace Graph

/-- The graph of some nodes, added one after the other. -/
def ofNodes (ns : List Node) : Graph :=
  ns.foldl add empty

theorem ofNodes_append (ns : List Node) (n : Node) : ofNodes (ns ++ [n]) = (ofNodes ns).add n := by
  rw [ofNodes, List.foldl_append]
  rfl

@[simp] theorem size_ofNodes (ns : List Node) : (ofNodes ns).size = ns.length := by
  induction ns using List.reverseRecOn with
  | nil => rfl
  | append_singleton ns n ih => simp [ofNodes_append, ih]

/-- Each of the nodes reads only nodes that stand before it. -/
def InOrder (ns : List Node) : Prop :=
  ∀ id (h : id < ns.length), ∀ i ∈ ns[id].inputs, i < id

instance (ns : List Node) : Decidable (InOrder ns) :=
  inferInstanceAs (Decidable (∀ id (h : id < ns.length), ∀ i ∈ ns[id].inputs, i < id))

theorem inOrder_append {ns : List Node} {n : Node} :
    InOrder (ns ++ [n]) ↔ InOrder ns ∧ ∀ i ∈ n.inputs, i < ns.length := by
  constructor
  · intro h
    refine ⟨fun id hid i hi => ?_, fun i hi => ?_⟩
    · refine h id (hid.trans (by simp)) i ?_
      rwa [List.getElem_append_left hid]
    · refine h ns.length (by simp) i ?_
      rwa [List.getElem_concat_length rfl]
  · rintro ⟨hns, hn⟩ id hid i hi
    rw [List.getElem_append] at hi
    split at hi
    · exact hns id ‹_› i hi
    · rw [List.getElem_singleton] at hi
      exact Nat.lt_of_lt_of_le (hn i hi) (Nat.le_of_not_lt ‹_›)

theorem nodes_ofNodes {ns : List Node} (hns : InOrder ns) : (ofNodes ns).nodes = ns.toArray := by
  induction ns using List.reverseRecOn with
  | nil => rfl
  | append_singleton ns n ih =>
      obtain ⟨hns, hn⟩ := inOrder_append.mp hns
      rw [ofNodes_append, nodes_add_of_inputs (by simpa using hn), ih hns]
      simp

theorem inOrder_nodes (g : Graph) : InOrder g.nodes.toList := by
  intro id hid i hi
  exact g.inputs_lt id hid i hi

/-- Every graph is the graph of its nodes. -/
theorem ofNodes_nodes (g : Graph) : ofNodes g.nodes.toList = g :=
  ext_nodes (nodes_ofNodes g.inOrder_nodes)

variable {g : Graph} {n : Node}

theorem inputs_add (hn : ∀ i ∈ n.inputs, i < g.size) (id : Nat) :
    (g.add n).inputs id = if id = g.size then n.inputs else g.inputs id := by
  rw [inputs, nodes_add_of_inputs hn, Array.getElem?_push, ← size]
  split <;> rfl

theorem readersOf_add (hn : ∀ i ∈ n.inputs, i < g.size) (id : Nat) :
    (g.add n).readersOf id = g.readersOf id ++ if id ∈ n.inputs then [g.size] else [] := by
  rw [readersOf_eq, readersOf_eq, size_add, List.range_succ, List.filter_append]
  congr 1
  · refine List.filter_congr fun j hj => ?_
    rw [inputs_add hn, if_neg (Nat.ne_of_lt (List.mem_range.mp hj))]
  · rw [List.filter_singleton, inputs_add hn, if_pos rfl]
    by_cases hid : id ∈ n.inputs <;> simp [hid]

end Graph

/-- The inputs of all nodes, for each node where its own begin in that table and how many they are, and
the readers of each node. -/
structure Wiring where
  flat : Array UInt32
  ranges : Array (UInt32 × UInt32)
  subscribers : Array (List UInt32)

namespace Wiring

def empty : Wiring :=
  ⟨#[], #[], #[]⟩

/-- A new node is entered with those of its inputs that have not stood before. -/
def enter (id : UInt32) (before : List UInt32) :
    List UInt32 → Array (List UInt32) → Array (List UInt32)
  | [], subscribers => subscribers
  | i :: rest, subscribers =>
    enter id (before ++ [i]) rest
      (if before.contains i then subscribers else subscribers.modify i.toNat (· ++ [id]))

def add (w : Wiring) (inputs : List UInt32) : Wiring where
  flat := w.flat ++ inputs.toArray
  ranges := w.ranges.push (.ofNat w.flat.size, .ofNat inputs.length)
  subscribers := (enter (.ofNat w.ranges.size) [] inputs w.subscribers).push []

def ofNodes (ns : List Node) : Wiring :=
  ns.foldl (fun w n => w.add (n.inputs.map .ofNat)) empty

/-- Where the inputs of a node end is reckoned in words, too. -/
def inputs (w : Wiring) (id : Nat) : List UInt32 :=
  (w.ranges[id]?).elim [] fun (start, count) =>
    (w.flat.extract start.toNat (start + count).toNat).toList

def readersOf (w : Wiring) (id : Nat) : List UInt32 :=
  w.subscribers.getD id []

theorem ofNodes_append (ns : List Node) (n : Node) :
    ofNodes (ns ++ [n]) = (ofNodes ns).add (n.inputs.map .ofNat) := by
  rw [ofNodes, List.foldl_append]
  rfl

theorem flat_size_ofNodes (ns : List Node) :
    (ofNodes ns).flat.size = (ns.map (·.inputs.length)).sum := by
  induction ns using List.reverseRecOn with
  | nil => rfl
  | append_singleton ns n ih => simp [ofNodes_append, add, ih]

theorem size_enter (id : UInt32) (before inputs : List UInt32) (subscribers : Array (List UInt32)) :
    (enter id before inputs subscribers).size = subscribers.size := by
  induction inputs generalizing before subscribers with
  | nil => rfl
  | cons i rest ih =>
      rw [enter, ih]
      split
      · rfl
      · exact Array.size_modify

/-- The loop enters the node with each of its inputs once. -/
theorem getD_enter (id x : UInt32) (before inputs : List UInt32) (subscribers : Array (List UInt32))
    (hx : x.toNat < subscribers.size) :
    (enter id before inputs subscribers).getD x.toNat [] =
      subscribers.getD x.toNat [] ++ if x ∈ inputs ∧ x ∉ before then [id] else [] := by
  induction inputs generalizing before subscribers with
  | nil => simp [enter]
  | cons i rest ih =>
      have hmodify : (subscribers.modify i.toNat (· ++ [id])).getD x.toNat [] =
          subscribers.getD x.toNat [] ++ if x = i then [id] else [] := by
        simp only [Array.getD_eq_getD_getElem?, Array.getElem?_modify, UInt32.toNat_inj]
        by_cases hxi : x = i
        · subst hxi; simp [hx]
        · simp [hxi, Ne.symm hxi]
      rw [enter]
      by_cases hi : i ∈ before
      · rw [if_pos (List.contains_iff_mem.mpr hi), ih _ _ hx]
        congr 2
        by_cases hxi : x = i <;> simp [hxi, hi]
      · rw [if_neg (mt List.contains_iff_mem.mp hi), ih _ _ (by rwa [Array.size_modify]), hmodify,
          List.append_assoc]
        congr 1
        by_cases hxi : x = i <;> simp [hxi, hi]

theorem readersOf_add_size (w : Wiring) (inputs : List UInt32) :
    (w.add inputs).readersOf w.subscribers.size = [] := by
  rw [readersOf, add, Array.getD_eq_getD_getElem?, ← size_enter, Array.getElem?_push_size]
  rfl

theorem readersOf_add {w : Wiring} {x : UInt32} (hx : x.toNat < w.subscribers.size)
    (inputs : List UInt32) :
    (w.add inputs).readersOf x.toNat =
      w.readersOf x.toNat ++ if x ∈ inputs then [.ofNat w.ranges.size] else [] := by
  rw [readersOf, add, Array.getD_eq_getD_getElem?, Array.getElem?_push, size_enter,
    if_neg (Nat.ne_of_lt hx), ← Array.getD_eq_getD_getElem?, getD_enter _ _ _ _ _ hx, readersOf]
  simp only [List.not_mem_nil, not_false_iff, and_true]

theorem ofNat_mem_iff {id : Nat} {ids : List Nat} (hid : id < 2 ^ 32) (hids : ∀ i ∈ ids, i < 2 ^ 32) :
    UInt32.ofNat id ∈ ids.map UInt32.ofNat ↔ id ∈ ids := by
  rw [List.mem_map]
  constructor
  · rintro ⟨i, hi, heq⟩
    have hsame := congrArg UInt32.toNat heq
    rw [UInt32.toNat_ofNat_of_lt' (hids i hi), UInt32.toNat_ofNat_of_lt' hid] at hsame
    exact hsame ▸ hi
  · exact fun hmem => ⟨id, hmem, rfl⟩

/-- What a node reads stands in the table where the node's range says. -/
def Holds (w : Wiring) (id : Nat) (words : List UInt32) : Prop :=
  ∃ start count, w.ranges[id]? = some (start, count) ∧ (start + count).toNat ≤ w.flat.size ∧
    (w.flat.extract start.toNat (start + count).toNat).toList = words

variable {w : Wiring} {g : Graph} {n : Node} {id : Nat} {words : List UInt32}

theorem Holds.inputs (h : w.Holds id words) : w.inputs id = words := by
  obtain ⟨start, count, hrange, -, hslice⟩ := h
  rw [Wiring.inputs, hrange, ← hslice]
  rfl

/-- What has been laid out stays where it is. -/
theorem Holds.add (h : w.Holds id words) (next : List UInt32) : (w.add next).Holds id words := by
  obtain ⟨start, count, hrange, hle, hslice⟩ := h
  have hid : id < w.ranges.size := (Array.getElem?_eq_some_iff.mp hrange).1
  refine ⟨start, count, ?_, ?_, ?_⟩
  · rw [Wiring.add, Array.getElem?_push, if_neg (Nat.ne_of_lt hid), hrange]
  · rw [Wiring.add, Array.size_append]
    exact Nat.le_add_right_of_le hle
  · rw [Wiring.add, Array.extract_append, Nat.sub_eq_zero_of_le hle, Array.extract_zero,
      Array.append_empty, hslice]

/-- The inputs of a new node end the table. -/
theorem holds_add_size (h : w.flat.size + words.length < 2 ^ 32) :
    (w.add words).Holds w.ranges.size words := by
  have hstart : (UInt32.ofNat w.flat.size).toNat = w.flat.size :=
    UInt32.toNat_ofNat_of_lt' (Nat.lt_of_le_of_lt (Nat.le_add_right _ _) h)
  have hend : (UInt32.ofNat w.flat.size + .ofNat words.length).toNat =
      w.flat.size + words.length := by
    rw [← UInt32.ofNat_add, UInt32.toNat_ofNat_of_lt' h]
  refine ⟨_, _, Array.getElem?_push_size, ?_, ?_⟩
  · rw [hend, Wiring.add]
    simp
  · rw [hend, hstart, Wiring.add]
    simp

/-- The tables say of every node of the graph what it reads and what it is read by. -/
structure Lays (w : Wiring) (g : Graph) : Prop where
  ranges_size : w.ranges.size = g.size
  subscribers_size : w.subscribers.size = g.size
  held : ∀ id < g.size, w.Holds id ((g.inputs id).map .ofNat)
  readers : ∀ id < g.size, w.readersOf id = (g.readersOf id).map .ofNat

theorem lays_empty : Lays empty .empty where
  ranges_size := rfl
  subscribers_size := rfl
  held := nofun
  readers := nofun

theorem Lays.add (h : Lays w g) (hn : ∀ i ∈ n.inputs, i < g.size) (hsize : g.size < 2 ^ 32)
    (hflat : w.flat.size + n.inputs.length < 2 ^ 32) :
    Lays (w.add (n.inputs.map .ofNat)) (g.add n) where
  ranges_size := by rw [Wiring.add, Array.size_push, h.ranges_size, Graph.size_add]
  subscribers_size := by
    rw [Wiring.add, Array.size_push, size_enter, h.subscribers_size, Graph.size_add]
  held := by
    intro id hid
    rw [Graph.size_add] at hid
    rw [Graph.inputs_add hn]
    rcases Nat.lt_succ_iff_lt_or_eq.mp hid with hlt | rfl
    · rw [if_neg (Nat.ne_of_lt hlt)]
      exact (h.held id hlt).add _
    · rw [if_pos rfl, ← h.ranges_size]
      exact holds_add_size (by rwa [List.length_map])
  readers := by
    intro id hid
    rw [Graph.size_add] at hid
    rw [Graph.readersOf_add hn]
    rcases Nat.lt_succ_iff_lt_or_eq.mp hid with hlt | rfl
    · have hword : (UInt32.ofNat id).toNat = id := UInt32.toNat_ofNat_of_lt' (hlt.trans hsize)
      have hmem : UInt32.ofNat id ∈ n.inputs.map UInt32.ofNat ↔ id ∈ n.inputs :=
        ofNat_mem_iff (hlt.trans hsize) fun i hi => (hn i hi).trans hsize
      have hnew := readersOf_add (w := w) (x := .ofNat id) (by rwa [hword, h.subscribers_size])
        (n.inputs.map .ofNat)
      rw [hword, h.readers id hlt, h.ranges_size] at hnew
      rw [hnew, List.map_append]
      by_cases hid : id ∈ n.inputs <;> simp [hmem, hid]
    · have hself : g.size ∉ n.inputs := fun hmem => Nat.lt_irrefl _ (hn _ hmem)
      rw [Graph.readersOf_of_size_le le_rfl, if_neg hself, ← h.subscribers_size, readersOf_add_size]
      rfl

theorem toNat_map_ofNat {ids : List Nat} (hids : ∀ i ∈ ids, i < 2 ^ 32) :
    (ids.map UInt32.ofNat).map UInt32.toNat = ids := by
  rw [List.map_map]
  refine Eq.trans (List.map_congr_left fun i hi => ?_) (List.map_id ids)
  exact UInt32.toNat_ofNat_of_lt' (hids i hi)

theorem Lays.inputs (h : Lays w g) (hsize : g.size < 2 ^ 32) (hid : id < g.size) :
    (w.inputs id).map UInt32.toNat = g.inputs id := by
  rw [(h.held id hid).inputs, toNat_map_ofNat]
  exact fun i hi => ((Graph.lt_of_mem_inputs hi).trans hid).trans hsize

theorem Lays.readersOf (h : Lays w g) (hsize : g.size < 2 ^ 32) (hid : id < g.size) :
    (w.readersOf id).map UInt32.toNat = g.readersOf id := by
  rw [h.readers id hid, toNat_map_ofNat]
  exact fun j hj => (Graph.lt_size_of_mem_inputs (Graph.mem_readersOf.mp hj)).trans hsize

theorem lays_ofNodes {ns : List Node} (hns : Graph.InOrder ns) (hsize : ns.length < 2 ^ 32)
    (hflat : (ns.map (·.inputs.length)).sum < 2 ^ 32) : Lays (ofNodes ns) (.ofNodes ns) := by
  induction ns using List.reverseRecOn with
  | nil => exact lays_empty
  | append_singleton ns n ih =>
      obtain ⟨hns, hn⟩ := Graph.inOrder_append.mp hns
      rw [List.length_append, List.length_singleton] at hsize
      rw [List.map_append, List.sum_append, List.map_singleton, List.sum_singleton] at hflat
      rw [ofNodes_append, Graph.ofNodes_append]
      refine (ih hns (by omega) (by omega)).add ?_ ?_ ?_
      · rwa [Graph.size_ofNodes]
      · rw [Graph.size_ofNodes]
        omega
      · rwa [flat_size_ofNodes]

end Wiring

end LiveExpr
