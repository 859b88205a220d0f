import LiveExpr.Proofs.Compile.Visited
import LiveExpr.Live.State

/-!
The graph of a binding is the one its prototype was compiled into, node by node, apart from which
member accesses follow changes.
-/

namespace LiveExpr

def Node.adapt (mode : BindingMode) (n : Node) : Node :=
  { n with kind := mode.adapt n.kind }

namespace Cloning

def cloneNext (source : Graph) (t : List Nat × Cloning) (id : Nat) : List Nat × Cloning :=
  (t.1 ++ [(clone source id t.2).1], (clone source id t.2).2)

theorem clone_of_copied {source : Graph} {id copy : Nat} {c : Cloning} (hc : c.lookup id = some copy) :
    clone source id c = (copy, c) := by
  rw [clone, hc]

theorem clone_of_new {source : Graph} {id : Nat} {c : Cloning} {n : Node} (hc : c.lookup id = none)
    (hn : source.nodes[id]? = some n) :
    clone source id c =
      (n.inputs.foldl (cloneNext source) ([], c)).2.place id n
        (n.inputs.foldl (cloneNext source) ([], c)).1 := by
  rw [clone, hc]
  simp only [hn]
  rw [Graph.inputs_of_node hn, ← List.foldl_attach (l := n.inputs)]
  rfl

/-- The session has copied exactly the nodes of `g`, each to the number it has there. -/
structure Copied (mode : BindingMode) (g : Graph) (c : Cloning) : Prop where
  sameMode : c.mode = mode
  size : c.size = g.size
  lookup : ∀ id, c.lookup id = if id < g.size then some id else none
  nodes : c.target.nodes = g.nodes.map (Node.adapt mode)

theorem Copied.target_size {mode : BindingMode} {g : Graph} {c : Cloning} (hc : Copied mode g c) :
    c.target.size = g.size := by
  rw [Graph.size, hc.nodes, Array.size_map, Graph.size]

theorem Copied.start (mode : BindingMode) : Copied mode .empty (.start mode .empty) where
  sameMode := rfl
  size := rfl
  lookup _ := rfl
  nodes := Array.map_empty.symm

theorem Copied.place {mode : BindingMode} {g : Graph} {c : Cloning} {n : Node} (hc : Copied mode g c)
    (hn : ∀ i ∈ n.inputs, i < g.size) :
    (c.place g.size n n.inputs).1 = g.size ∧ Copied mode (g.add n) (c.place g.size n n.inputs).2 := by
  refine ⟨hc.target_size, hc.sameMode, ?_, fun id => ?_, ?_⟩
  · have := hc.size
    rw [Graph.size_add]
    simp only [Cloning.place, Cloning.size, List.length_cons] at *
    omega
  · have hold := hc.lookup id
    rw [Graph.size_add, Cloning.place, hc.target_size]
    unfold Cloning.lookup at *
    rw [List.lookup_cons, hold]
    by_cases hid : id = g.size
    · simp [hid]
    · rw [beq_eq_false_iff_ne.mpr hid]
      by_cases hlt : id < g.size
      · rw [if_pos hlt, if_pos (by omega)]
      · rw [if_neg hlt, if_neg (by omega)]
  · have hcopy : ∀ i ∈ (Node.adapt mode n).inputs, i < c.target.size := by
      rw [hc.target_size]
      exact hn
    have hplace : (c.place g.size n n.inputs).2.target = c.target.add (Node.adapt mode n) := by
      rw [← hc.sameMode]
      rfl
    rw [hplace, Graph.nodes_add_of_inputs hcopy, Graph.nodes_add_of_inputs hn, hc.nodes,
      Array.map_push]

end Cloning

namespace Compile

open Cloning (Copied cloneNext)

variable {mode : BindingMode} {g : Graph}

mutual

/-- Copying makes the same visits as compiling, so that it meets the nodes in the same order. -/
theorem Visited.clone {e : Expr} {s s' : Progress} {id : Nat} {c : Cloning} (h : Visited e s id s')
    (hs : s.Ranged) (hg : s'.graph.Extends g) (hc : Copied mode s.graph c) :
    ∃ c', Cloning.clone g id c = (id, c') ∧ Copied mode s'.graph c' := by
  match h with
  | .placed hid =>
      refine ⟨c, Cloning.clone_of_copied ?_, hc⟩
      rw [hc.lookup, if_pos (hs _ _ hid)]
  | @Visited.new _ _ s₁ _ n _ hall hn =>
      have hinputs := hn.inputs_lt hall hs
      have hnode : g.nodes[s₁.graph.size]? = some n := hg _ _ (Graph.nodes_add_size hinputs)
      have hnone : c.lookup s₁.graph.size = none := by
        rw [hc.lookup, if_neg (Nat.not_lt_of_le hall.extends.size_le)]
      obtain ⟨c₁, hfold, hc₁⟩ := hall.clone hs ((Graph.extends_add _ _).trans hg) hc []
      obtain ⟨hid, hc'⟩ := hc₁.place hinputs
      rw [← hn.inputs, List.nil_append] at hfold
      refine ⟨_, ?_, hc'⟩
      rw [Cloning.clone_of_new hnone hnode, hfold]
      exact Prod.ext hid rfl

theorem VisitedAll.clone {es : List (Expr × Nat)} {s s' : Progress} {c : Cloning}
    (h : VisitedAll es s s')
    (hs : s.Ranged) (hg : s'.graph.Extends g) (hc : Copied mode s.graph c) (done : List Nat) :
    ∃ c', (es.map (·.2)).foldl (cloneNext g) (done, c) = (done ++ es.map (·.2), c') ∧
      Copied mode s'.graph c' := by
  match h with
  | .nil => exact ⟨c, by simp, hc⟩
  | @VisitedAll.cons _ id _ _ _ _ hv hall =>
      obtain ⟨c₁, hclone, hc₁⟩ := hv.clone hs (hall.extends.trans hg) hc
      obtain ⟨c', hfold, hc'⟩ := hall.clone (hv.ranged hs).1 hg hc₁ (done ++ [id])
      refine ⟨c', ?_, hc'⟩
      rw [List.map_cons, List.foldl_cons, cloneNext, hclone, hfold, List.append_assoc]
      rfl

end

/-- The graph of a compiled prototype has the same nodes, by the same numbers, in every copy of it. -/
theorem copy_of_compile {l : Lambda} {p : Prototype} (h : l.compile = .ok p) (mode : BindingMode) :
    (Live.copy p mode).1.graph.nodes = p.graph.nodes.map (Node.adapt mode) ∧
      (Live.copy p mode).1.parameter = p.parameter ∧ (Live.copy p mode).1.body = p.body ∧
      (Live.copy p mode).2 = p.graph.size := by
  obtain ⟨i, t, name, s, -, hbody, hp⟩ := compile_spec h
  have hgraph : p.graph = s.graph := by rw [hp]
  have hparam : p.parameter = 0 := by rw [hp]
  -- the parameter is the first node of all, and reads none
  have hfirst : Copied mode (startWith l.parameter t name).graph
      (Cloning.place (.start mode .empty) 0 (parameterNode l.parameter t name) []).2 :=
    ((Copied.start mode).place (n := parameterNode l.parameter t name) (by simp [parameterNode, nodeOf])).2
  have hnode : p.graph.nodes[0]? = some (parameterNode l.parameter t name) := by
    rw [hgraph]
    exact hbody.extends _ _ (Graph.nodes_add_size (g := .empty) (by simp [parameterNode, nodeOf]))
  have hzero : Cloning.clone p.graph p.parameter (.start mode .empty) =
      Cloning.place (.start mode .empty) 0 (parameterNode l.parameter t name) [] := by
    have hnone : (Cloning.start mode .empty).lookup 0 = none := rfl
    rw [hparam, Cloning.clone_of_new hnone hnode]
    rfl
  obtain ⟨c', hclone, hc'⟩ := hbody.clone (g := p.graph) (startWith_ranged _ _ _)
    (by rw [hgraph]; exact .refl _) hfirst
  have hplace : (Cloning.place (.start mode .empty) 0 (parameterNode l.parameter t name) []).1 = 0 :=
    rfl
  unfold Live.copy
  rw [hzero]
  simp only [hclone, hplace, hparam]
  rw [hgraph]
  exact ⟨hc'.nodes, trivial, trivial, hc'.size⟩

end Compile

end LiveExpr
