import LiveExpr.Graph.Kind

/-!
The graph of a compiled expression: nodes numbered from zero in the order they were added, each
with the numbers of the nodes it reads, and for every node the list of its readers.
-/

namespace LiveExpr

/-- `label` names the node's own operation and `source` the expression it was compiled from. -/
structure Node where
  kind : NodeKind
  type : ValueType
  policy : EqualityPolicy
  inputs : List Nat
  label : String
  source : String

def Node.reading (nodes : Array Node) (id : Nat) : List Nat :=
  (List.range nodes.size).filter fun j => (nodes[j]?).any (·.inputs.contains id)

/-- Nodes read only nodes with smaller numbers, so that ascending order evaluates inputs first. The
readers of a node are exactly the nodes that read it. -/
structure Graph where
  nodes : Array Node
  readers : Array (List Nat)
  inputs_lt : ∀ id (h : id < nodes.size), ∀ i ∈ nodes[id].inputs, i < id
  readers_size : readers.size = nodes.size
  readers_getD : ∀ id, readers.getD id [] = Node.reading nodes id

namespace Graph

def empty : Graph where
  nodes := #[]
  readers := #[]
  inputs_lt := by simp
  readers_size := rfl
  readers_getD := by simp [Node.reading]

def size (g : Graph) : Nat :=
  g.nodes.size

def inputs (g : Graph) (id : Nat) : List Nat :=
  (g.nodes[id]?).elim [] (·.inputs)

def readersOf (g : Graph) (id : Nat) : List Nat :=
  g.readers.getD id []

def policyOf (g : Graph) (id : Nat) : EqualityPolicy :=
  (g.nodes[id]?).elim .standard (·.policy)

def sourceOf (g : Graph) (id : Nat) : String :=
  (g.nodes[id]?).elim "" (·.source)

def observes (g : Graph) (id : Nat) : Bool :=
  (g.nodes[id]?).elim false (·.kind.observes)

/-! ## Adding a node -/

def enterReader (readers : Array (List Nat)) (id : Nat) (inputs : List Nat) : Array (List Nat) :=
  inputs.eraseDups.foldl (fun rs i => rs.modify i (· ++ [id])) readers

theorem nodup_eraseDups (is : List Nat) : is.eraseDups.Nodup := by
  generalize h : is.length = n
  induction n using Nat.strongRecOn generalizing is with
  | ind n ih =>
      cases is with
      | nil => simp
      | cons i is =>
          rw [List.eraseDups_cons, List.nodup_cons]
          have hlen : (is.filter fun b => !b == i).length < n := by
            have := List.length_filter_le (fun b => !b == i) is
            simp only [List.length_cons] at h
            omega
          exact ⟨by simp [List.mem_eraseDups], ih _ hlen _ rfl⟩

theorem size_foldl_modify (id : Nat) (is : List Nat) (rs : Array (List Nat)) :
    (is.foldl (fun rs i => rs.modify i (· ++ [id])) rs).size = rs.size := by
  induction is generalizing rs with
  | nil => rfl
  | cons i is ih => rw [List.foldl_cons, ih, Array.size_modify]

theorem getD_foldl_modify (id x : Nat) {is : List Nat} (his : is.Nodup) (rs : Array (List Nat)) :
    (is.foldl (fun rs i => rs.modify i (· ++ [id])) rs).getD x [] =
      rs.getD x [] ++ if x ∈ is ∧ x < rs.size then [id] else [] := by
  induction is generalizing rs with
  | nil => simp
  | cons i is ih =>
      obtain ⟨hi, his⟩ := List.nodup_cons.mp his
      rw [List.foldl_cons, ih his, Array.size_modify]
      simp only [Array.getD_eq_getD_getElem?, Array.getElem?_modify]
      by_cases hx : i = x
      · subst hx
        by_cases hlt : i < rs.size <;> simp [hi, hlt]
      · have hx' : x ≠ i := Ne.symm hx
        simp [hx, hx']

theorem size_enterReader (rs : Array (List Nat)) (id : Nat) (is : List Nat) :
    (enterReader rs id is).size = rs.size :=
  size_foldl_modify id _ rs

theorem getD_enterReader (rs : Array (List Nat)) (id x : Nat) (is : List Nat) :
    (enterReader rs id is).getD x [] =
      rs.getD x [] ++ if x ∈ is ∧ x < rs.size then [id] else [] := by
  rw [enterReader, getD_foldl_modify id x (nodup_eraseDups is)]
  simp only [List.mem_eraseDups]

theorem reading_push (nodes : Array Node) (n : Node) (x : Nat) :
    Node.reading (nodes.push n) x =
      Node.reading nodes x ++ if x ∈ n.inputs then [nodes.size] else [] := by
  unfold Node.reading
  rw [Array.size_push, List.range_succ, List.filter_append]
  congr 1
  · apply List.filter_congr
    intro j hj
    rw [Array.getElem?_push_lt (List.mem_range.mp hj), Array.getElem?_eq_getElem]
  · by_cases hx : x ∈ n.inputs <;> simp [hx]

/-- The graph with one node more, whose number is the old size. Inputs that name no node are left
out. -/
def add (g : Graph) (n : Node) : Graph where
  nodes := g.nodes.push { n with inputs := n.inputs.filter (· < g.size) }
  readers := (enterReader g.readers g.size (n.inputs.filter (· < g.size))).push []
  inputs_lt := by
    intro id h i hi
    rw [Array.getElem_push] at hi
    split at hi
    · exact g.inputs_lt id _ i hi
    · rw [Array.size_push] at h
      have hlt : i < g.size := by simpa using (List.mem_filter.1 hi).2
      unfold size at hlt
      omega
  readers_size := by
    rw [Array.size_push, Array.size_push, size_enterReader, g.readers_size]
  readers_getD := by
    intro id
    -- the new list is empty, as the default is, so that it can be left out of sight
    have hpush : ∀ rs : Array (List Nat), (rs.push []).getD id [] = rs.getD id [] := by
      intro rs
      simp only [Array.getD_eq_getD_getElem?, Array.getElem?_push]
      split
      · subst id; simp
      · rfl
    rw [hpush, getD_enterReader, g.readers_getD, reading_push, g.readers_size]
    by_cases hid : id ∈ n.inputs.filter (· < g.size)
    · have hlt : id < g.nodes.size := of_decide_eq_true (List.mem_filter.1 hid).2
      rw [if_pos ⟨hid, hlt⟩, if_pos hid, size]
    · rw [if_neg fun h => hid h.1, if_neg hid]

def shared (g : Graph) : List Nat :=
  (List.range g.size).filter fun id => 1 < (g.readersOf id).length

theorem lt_of_mem_inputs {g : Graph} {id i : Nat} (h : i ∈ g.inputs id) : i < id := by
  unfold inputs at h
  by_cases hid : id < g.nodes.size
  · rw [Array.getElem?_eq_getElem hid] at h
    exact g.inputs_lt id hid i h
  · rw [Array.getElem?_eq_none (Nat.le_of_not_lt hid)] at h
    cases h

theorem lt_size_of_mem_inputs {g : Graph} {id i : Nat} (h : i ∈ g.inputs id) : id < g.size := by
  apply Nat.lt_of_not_le
  intro hle
  simp [inputs, Array.getElem?_eq_none hle] at h

theorem readersOf_eq (g : Graph) (id : Nat) :
    g.readersOf id = (List.range g.size).filter fun j => (g.inputs j).contains id := by
  rw [readersOf, g.readers_getD, Node.reading, size]
  congr 1
  funext j
  cases h : g.nodes[j]? <;> simp [inputs, h]

theorem mem_readersOf {g : Graph} {id j : Nat} : j ∈ g.readersOf id ↔ id ∈ g.inputs j := by
  rw [readersOf_eq, List.mem_filter, List.mem_range, List.contains_iff_mem]
  exact ⟨And.right, fun h => ⟨lt_size_of_mem_inputs h, h⟩⟩

@[simp] theorem size_empty : empty.size = 0 := rfl

@[simp] theorem size_add (g : Graph) (n : Node) : (g.add n).size = g.size + 1 := by
  simp [add, size]

theorem ext_nodes {g g' : Graph} (h : g.nodes = g'.nodes) : g = g' := by
  have hr : g.readers = g'.readers := by
    apply Array.ext
    · rw [g.readers_size, g'.readers_size, h]
    · intro i hi hi'
      have := (g.readers_getD i).trans ((congrArg (Node.reading · i) h).trans (g'.readers_getD i).symm)
      simpa [hi, hi'] using this
  cases g; cases g'
  cases h; cases hr
  rfl

end Graph

end LiveExpr
