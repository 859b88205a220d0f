import LiveExpr.Proofs.Graph.Cloning
import LiveExpr.Proofs.Graph.Downstream
import LiveExpr.Proofs.Graph.Wiring
import Mathlib.Data.List.GetD
import Mathlib.Data.Set.Card
import Mathlib.Order.Bounds.Basic

/-!
What the edges of a graph say. Readers are the other side of inputs, so that what is downstream of some
nodes is what reads them, directly or indirectly; and the depth of a node is the length of the longest
chain of inputs that ends at it. Of a compiled graph all but the parameter is there for the body to read.
-/

namespace LiveExpr

namespace Graph

variable {g : Graph} {start : List Nat} {id x y : Nat}

/-! ## Readers -/

theorem readersOf_ascends (g : Graph) (id : Nat) : (g.readersOf id).Pairwise (· < ·) := by
  rw [readersOf_eq]
  exact List.pairwise_lt_range.filter _

theorem count_readersOf (g : Graph) (x y : Nat) :
    (g.readersOf x).count y = if x ∈ g.inputs y then 1 else 0 := by
  have hnodup : (g.readersOf x).Nodup := (readersOf_ascends g x).imp Nat.ne_of_lt
  rw [hnodup.count]
  simp only [mem_readersOf]

theorem reaches_readBy_iff :
    Relation.ReflTransGen g.readBy x y ↔ Relation.ReflTransGen g.reads y x := by
  have hswap : g.readBy = Function.swap g.reads := by
    funext i j
    exact propext mem_readersOf
  rw [hswap, Relation.reflTransGen_swap]

/-- With nodes of the graph to start from, downstream is whatever reads one of them, directly or
indirectly, and they themselves. -/
theorem mem_downstream_iff_reads (hstart : ∀ s ∈ start, s < g.size) :
    id ∈ g.downstream start ↔ ∃ s ∈ start, Relation.ReflTransGen g.reads id s := by
  rw [mem_downstream_iff_reaches, and_iff_right_of_imp]
  · simp only [reaches_readBy_iff]
  · rintro ⟨s, hs, hpath⟩
    exact lt_size_of_reaches (hstart s hs) hpath

/-! ## Depth -/

/-- The depths of the first nodes, when the pass has come so far. -/
def depthsBelow (g : Graph) (size : Nat) : List Nat :=
  (List.range size).foldl
    (fun ds id => ds ++ [((g.inputs id).map fun i => ds.getD i 0).foldl max 0 + 1])
    []

theorem depthsBelow_succ (g : Graph) (size : Nat) :
    g.depthsBelow (size + 1) = g.depthsBelow size ++
      [((g.inputs size).map fun i => (g.depthsBelow size).getD i 0).foldl max 0 + 1] := by
  rw [depthsBelow, List.range_succ, List.foldl_append]
  rfl

@[simp] theorem length_depthsBelow (g : Graph) (size : Nat) :
    (g.depthsBelow size).length = size := by
  induction size with
  | zero => rfl
  | succ size ih => rw [depthsBelow_succ, List.length_append, ih, List.length_singleton]

theorem length_depths (g : Graph) : g.depths.length = g.size :=
  length_depthsBelow g g.size

theorem getD_depthsBelow {size : Nat} (hid : id < size) :
    (g.depthsBelow size).getD id 0 =
      ((g.inputs id).map fun i => (g.depthsBelow size).getD i 0).foldl max 0 + 1 := by
  induction size with
  | zero => exact absurd hid (Nat.not_lt_zero id)
  | succ size ih =>
      have hkept : ∀ i < size, (g.depthsBelow (size + 1)).getD i 0 = (g.depthsBelow size).getD i 0 := by
        intro i hi
        rw [depthsBelow_succ, List.getD_append _ _ _ _ (by rwa [length_depthsBelow])]
      have hinputs : ((g.inputs id).map fun i => (g.depthsBelow (size + 1)).getD i 0) =
          (g.inputs id).map fun i => (g.depthsBelow size).getD i 0 :=
        List.map_congr_left fun i hi =>
          hkept i (Nat.lt_of_lt_of_le (lt_of_mem_inputs hi) (Nat.le_of_lt_succ hid))
      rw [hinputs]
      rcases Nat.lt_succ_iff_lt_or_eq.mp hid with hlt | rfl
      · rw [hkept id hlt, ih hlt]
      · rw [depthsBelow_succ, List.getD_append_right _ _ _ _ (by rw [length_depthsBelow])]
        simp

theorem depthOf_eq (hid : id < g.size) :
    g.depthOf id = ((g.inputs id).map g.depthOf).foldl max 0 + 1 :=
  getD_depthsBelow hid

theorem depthOf_lt_of_reads (h : g.reads x y) : g.depthOf y < g.depthOf x := by
  have hmem : g.depthOf y ∈ (g.inputs x).map g.depthOf := List.mem_map_of_mem h
  rw [depthOf_eq (lt_size_of_mem_inputs h), List.foldl_max, Nat.lt_succ_iff]
  cases hm : ((g.inputs x).map g.depthOf).max? with
  | none =>
      rw [List.max?_eq_none_iff.mp hm] at hmem
      cases hmem
  | some m => exact ((List.max?_eq_some_iff.mp hm).2 _ hmem).trans (Nat.le_max_right 0 m)

theorem deepest_input (hid : id < g.size) :
    g.depthOf id = 1 ∨ ∃ i ∈ g.inputs id, g.depthOf id = g.depthOf i + 1 := by
  rw [depthOf_eq hid, List.foldl_max]
  cases hm : ((g.inputs id).map g.depthOf).max? with
  | none => exact .inl rfl
  | some m =>
      obtain ⟨i, hi, rfl⟩ := List.mem_map.mp (List.max?_eq_some_iff.mp hm).1
      exact .inr ⟨i, hi, by simp⟩

/-- The depth of a node is the number of nodes on the longest chain that goes down from it along inputs.
-/
theorem depthOf_isGreatest (hid : id < g.size) :
    IsGreatest {k | ∃ below, (id :: below).IsChain g.reads ∧ (id :: below).length = k} (g.depthOf id) := by
  constructor
  · induction id using Nat.strongRecOn with
    | ind id ih =>
        rcases deepest_input hid with hone | ⟨i, hi, hdeep⟩
        · exact ⟨[], List.isChain_singleton id, hone.symm⟩
        · obtain ⟨below, hchain, hlength⟩ := ih i (lt_of_mem_inputs hi) ((lt_of_mem_inputs hi).trans hid)
          refine ⟨i :: below, List.isChain_cons_cons.mpr ⟨hi, hchain⟩, ?_⟩
          rw [List.length_cons, hlength, hdeep]
  · rintro k ⟨below, hchain, rfl⟩
    induction below generalizing id with
    | nil =>
        rw [depthOf_eq hid]
        exact Nat.le_add_left 1 _
    | cons i below ih =>
        obtain ⟨hread, hchain⟩ := List.isChain_cons_cons.mp hchain
        have hbelow := ih ((lt_of_mem_inputs hread).trans hid) hchain
        exact Nat.lt_of_le_of_lt hbelow (depthOf_lt_of_reads hread)

theorem depthOf_le_of_reaches (h : Relation.ReflTransGen g.reads x y) : g.depthOf y ≤ g.depthOf x := by
  induction h with
  | refl => exact Nat.le_refl _
  | tail _ hread ih => exact (Nat.le_of_lt (depthOf_lt_of_reads hread)).trans ih

theorem depths_eq_map (g : Graph) : g.depths = (List.range g.size).map g.depthOf := by
  refine List.ext_getElem (by simp [length_depths]) fun id hid _ => ?_
  rw [List.getElem_map, List.getElem_range, depthOf, List.getD_eq_getElem _ _ hid]

theorem Extends.reads {g' : Graph} (h : g.Extends g') (hread : g.reads x y) : g'.reads x y := by
  have hnode : g.nodes[x]? = some _ := Array.getElem?_eq_getElem (lt_size_of_mem_inputs hread)
  rw [Graph.reads, inputs_of_node hnode] at hread
  rwa [Graph.reads, inputs_of_node (h x _ hnode)]

theorem Extends.reaches {g' : Graph} (h : g.Extends g') (hpath : Relation.ReflTransGen g.reads x y) :
    Relation.ReflTransGen g'.reads x y :=
  Relation.ReflTransGen.mono (fun _ _ => h.reads) _ _ hpath

end Graph

/-! ## Compiled graphs -/

namespace Compile

mutual

/-- What a visit places is read by the node it ends at, directly or indirectly. -/
theorem Visited.reaches {e : Expr} {s s' : Progress} {id k : Nat} (h : Visited e s id s')
    (hs : s.Ranged) (hk : s.graph.size ≤ k) (hk' : k < s'.graph.size) :
    Relation.ReflTransGen s'.graph.reads id k := by
  match h with
  | .placed _ => exact absurd hk' (Nat.not_lt_of_le hk)
  | @Visited.new _ _ s₁ operands n _ hall hn =>
      rw [Progress.size_push] at hk'
      rcases Nat.lt_succ_iff_lt_or_eq.mp hk' with hlt | rfl
      · obtain ⟨x, hx, hpath⟩ := hall.reaches hs hk hlt
        have hread : (s₁.push e n).graph.reads s₁.graph.size x.2 := by
          have hinputs := Graph.inputs_of_node (Graph.nodes_add_size (hn.inputs_lt hall hs))
          rw [Graph.reads, Progress.push, hinputs, hn.inputs]
          exact List.mem_map_of_mem hx
        exact .head hread ((Graph.extends_add _ n).reaches hpath)
      · exact .refl

theorem VisitedAll.reaches {es : List (Expr × Nat)} {s s' : Progress} {k : Nat}
    (h : VisitedAll es s s') (hs : s.Ranged) (hk : s.graph.size ≤ k) (hk' : k < s'.graph.size) :
    ∃ x ∈ es, Relation.ReflTransGen s'.graph.reads x.2 k := by
  match h with
  | .nil => exact absurd hk' (Nat.not_lt_of_le hk)
  | @VisitedAll.cons e id rest _ s₁ _ hv hall =>
      rcases Nat.lt_or_ge k s₁.graph.size with hlt | hge
      · exact ⟨(e, id), List.mem_cons_self, hall.extends.reaches (hv.reaches hs hk hlt)⟩
      · obtain ⟨x, hx, hpath⟩ := hall.reaches (hv.ranged hs).1 hge hk'
        exact ⟨x, List.mem_cons_of_mem _ hx, hpath⟩

end

variable {l : Lambda} {p : Prototype}

theorem parameter_of_compile (hp : l.compile = .ok p) : p.parameter = 0 := by
  obtain ⟨_, _, _, _, -, -, hp⟩ := compile_spec hp
  rw [hp]

/-- All nodes but that of the parameter are there because the body reads them. -/
theorem reaches_of_compile (hp : l.compile = .ok p) {id : Nat} (hid : id < p.graph.size) :
    id = p.parameter ∨ Relation.ReflTransGen p.graph.reads p.body id := by
  obtain ⟨i, t, name, s, -, hbody, hproto⟩ := compile_spec hp
  rw [parameter_of_compile hp]
  have hgraph : p.graph = s.graph := by rw [hproto]
  rw [hgraph] at hid ⊢
  rcases Nat.eq_zero_or_pos id with rfl | hpos
  · exact .inl rfl
  · refine .inr (hbody.reaches (startWith_ranged _ _ _) ?_ hid)
    rw [startWith, Progress.size_push]
    exact hpos

theorem body_lt_of_compile (hp : l.compile = .ok p) : p.body < p.graph.size := by
  obtain ⟨i, t, name, s, -, hbody, hproto⟩ := compile_spec hp
  have hlt := (hbody.ranged (startWith_ranged _ _ _)).2
  rw [hproto]
  exact hlt

theorem parameter_lt_of_compile (hp : l.compile = .ok p) : p.parameter < p.graph.size := by
  rw [parameter_of_compile hp]
  exact Nat.zero_lt_of_lt (body_lt_of_compile hp)

/-- No node is deeper than the body: it reads all the others but the parameter, which reads nothing. -/
theorem telemetry_depth_isGreatest (hp : l.compile = .ok p) :
    IsGreatest {d | d ∈ p.graph.depths} p.telemetry.depth := by
  have hbody := body_lt_of_compile hp
  have hmem : ∀ d, d ∈ p.graph.depths ↔ ∃ id < p.graph.size, p.graph.depthOf id = d := by
    simp [Graph.depths_eq_map]
  refine ⟨(hmem _).mpr ⟨p.body, hbody, rfl⟩, fun d hd => ?_⟩
  obtain ⟨id, hid, rfl⟩ := (hmem d).mp hd
  rcases reaches_of_compile hp hid with rfl | hpath
  · rcases Graph.deepest_input hid with hone | ⟨i, hi, -⟩
    · rw [hone]
      exact (Graph.depthOf_isGreatest hbody).2 ⟨[], List.isChain_singleton _, rfl⟩
    · rw [parameter_of_compile hp] at hi
      exact absurd (Graph.lt_of_mem_inputs hi) (Nat.not_lt_zero i)
  · exact Graph.depthOf_le_of_reaches hpath

theorem telemetry_parameterDependent (hp : l.compile = .ok p) :
    p.telemetry.parameterDependent =
      {id | Relation.ReflTransGen p.graph.reads id p.parameter}.ncard := by
  have hstart : ∀ s ∈ [p.parameter], s < p.graph.size := by
    simpa using parameter_lt_of_compile hp
  have hset : {id | Relation.ReflTransGen p.graph.reads id p.parameter} =
      ((p.graph.downstream [p.parameter]).toFinset : Set Nat) := by
    ext id
    simp [Graph.mem_downstream_iff_reads hstart]
  rw [hset, Set.ncard_coe_finset, List.toFinset_card_of_nodup (Graph.nodup_downstream _ _)]
  rfl

end Compile

namespace Graph

/-- A graph made by adding nodes, each of which reads nodes that are there, and whose nodes and inputs
can be counted in a word. What a node reads is the list that was given with it, in the graph and in the
tables; it is read by the nodes that have it among their inputs, by each once and in ascending order;
downstream of some nodes is what reads them, directly or indirectly, with themselves, and a search that
takes readers from a queue comes by each of these once; and the depth of a node is the number of nodes on
the longest chain of inputs that ends at it. The telemetry of a compiled graph has the greatest of its
depths, and how many nodes read the parameter, directly or indirectly, itself included. -/
theorem topology_of_nodes {ns : List Node} (hns : InOrder ns) (hsize : ns.length < 2 ^ 32)
    (hflat : (ns.map (·.inputs.length)).sum < 2 ^ 32) :
    let g := ofNodes ns
    let w := Wiring.ofNodes ns
    (g.size = ns.length ∧ ∀ id (h : id < ns.length),
      g.inputs id = ns[id].inputs ∧ (w.inputs id).map UInt32.toNat = ns[id].inputs) ∧
    (∀ x < ns.length, (w.readersOf x).map UInt32.toNat = g.readersOf x ∧
      (g.readersOf x).Pairwise (· < ·) ∧
      ∀ y, (g.readersOf x).count y = if x ∈ g.inputs y then 1 else 0) ∧
    (∀ start, (∀ s ∈ start, s < ns.length) → (g.search [] start).Perm (g.downstream start) ∧
      ∀ id, id ∈ g.downstream start ↔ ∃ s ∈ start, Relation.ReflTransGen g.reads id s) ∧
    (g.depths.length = ns.length ∧ ∀ id < ns.length,
      IsGreatest {k | ∃ below, (id :: below).IsChain g.reads ∧ (id :: below).length = k}
        (g.depthOf id)) ∧
    ∀ (l : Lambda) (p : Prototype), l.compile = .ok p →
      IsGreatest {d | d ∈ p.graph.depths} p.telemetry.depth ∧
      p.telemetry.parameterDependent =
        {id | Relation.ReflTransGen p.graph.reads id p.parameter}.ncard := by
  intro g w
  have hg : g.size = ns.length := size_ofNodes ns
  have hlays : w.Lays g := Wiring.lays_ofNodes hns hsize hflat
  have hinputs : ∀ id (h : id < ns.length), g.inputs id = ns[id].inputs := by
    intro id h
    apply inputs_of_node
    rw [nodes_ofNodes hns, List.getElem?_toArray, List.getElem?_eq_getElem h]
  refine ⟨⟨hg, fun id h => ⟨hinputs id h, ?_⟩⟩, fun x hx => ⟨?_, g.readersOf_ascends x,
    g.count_readersOf x⟩, fun start hstart => ?_, ⟨g.length_depths.trans hg, fun id hid => ?_⟩,
    fun l p hp => ⟨Compile.telemetry_depth_isGreatest hp, Compile.telemetry_parameterDependent hp⟩⟩
  · rw [hlays.inputs (hg ▸ hsize) (hg ▸ h), hinputs id h]
  · exact hlays.readersOf (hg ▸ hsize) (hg ▸ hx)
  · rw [← hg] at hstart
    exact ⟨search_perm_downstream hstart, fun id => mem_downstream_iff_reads hstart⟩
  · exact depthOf_isGreatest (hg ▸ hid)

/-- One of the two nodes in the middle is read twice by the last. -/
def diamond : List Node :=
  [[], [0], [0], [1, 2, 1]].map fun inputs => ⟨.parameter, .bool, .standard, inputs, "", ""⟩

theorem topology_of_diamond :
    let g := ofNodes diamond
    let w := Wiring.ofNodes diamond
    let p := Lambda.ageParadox.compile.toOption.get rfl
    InOrder diamond ∧ diamond.length < 2 ^ 32 ∧ (diamond.map (·.inputs.length)).sum < 2 ^ 32 ∧
      (w.inputs 3).map UInt32.toNat = [1, 2, 1] ∧ (w.readersOf 1).map UInt32.toNat = [3] ∧
      (g.search [] [1, 3]).Perm [1, 3] ∧
      IsGreatest {k | ∃ below, (3 :: below).IsChain g.reads ∧ (3 :: below).length = k} 3 ∧
      {id | Relation.ReflTransGen p.graph.reads id p.parameter}.ncard = 7 := by
  intro g w p
  have hns : InOrder diamond := by decide
  have hsize : diamond.length < 2 ^ 32 := by decide
  have hflat : (diamond.map (·.inputs.length)).sum < 2 ^ 32 := by decide
  obtain ⟨⟨-, hinputs⟩, hreaders, hsearch, ⟨-, hdepth⟩, hcompiled⟩ :=
    topology_of_nodes hns hsize hflat
  refine ⟨hns, hsize, hflat, (hinputs 3 (by decide)).2, ?_, ?_, ?_, ?_⟩
  · exact (hreaders 1 (by decide)).1.trans (by decide +kernel)
  · have hdown : g.downstream [1, 3] = [1, 3] := by decide +kernel
    exact hdown ▸ (hsearch [1, 3] (by decide)).1
  · have hdeep : g.depthOf 3 = 3 := by decide +kernel
    exact hdeep ▸ hdepth 3 (by decide)
  · have hcount : p.telemetry.parameterDependent = 7 := by decide +kernel
    exact (hcompiled Lambda.ageParadox p rfl).2.symm.trans hcount

end Graph

end LiveExpr
