import LiveExpr.Proofs.Compile.Numbering
import LiveExpr.Proofs.Live.Adoption
import LiveExpr.Proofs.Session.Reading
import LiveExpr.Session.Perform

/-!
A live copy stores of every node what its prototype does, column by column, so that it shares the
same nodes, is as deep, and has the same figures apart from how many members it follows.
-/

namespace LiveExpr

@[simp] theorem NodeKind.oneTime_tag (k : NodeKind) : k.oneTime.tag = k.tag := by
  cases k <;> rfl

@[simp] theorem NodeKind.oneTime_observes (k : NodeKind) : k.oneTime.observes = false := by
  cases k <;> rfl

theorem BindingMode.adapt_tag (mode : BindingMode) (k : NodeKind) : (mode.adapt k).tag = k.tag := by
  cases mode
  · rfl
  · exact k.oneTime_tag

/-! ## Columns -/

namespace Graph

def kinds (g : Graph) : Array NodeKind :=
  g.nodes.map (·.kind)

def observedCount (g : Graph) : Nat :=
  g.nodes.toList.countP (·.kind.observes)

/-- All that is stored of the nodes, by number and in order, apart from their kinds. -/
structure SameColumns (g g' : Graph) : Prop where
  types : g'.nodes.map (·.type) = g.nodes.map (·.type)
  policies : g'.nodes.map (·.policy) = g.nodes.map (·.policy)
  labels : g'.nodes.map (·.label) = g.nodes.map (·.label)
  sources : g'.nodes.map (·.source) = g.nodes.map (·.source)
  inputs : g'.nodes.map (·.inputs) = g.nodes.map (·.inputs)
  readers : g'.readers = g.readers

variable {g g' : Graph} {mode : BindingMode}

theorem inputs_eq_getD (g : Graph) (id : Nat) : g.inputs id = (g.nodes.map (·.inputs)).getD id [] := by
  rw [inputs, Array.getD_eq_getD_getElem?, Array.getElem?_map]
  cases g.nodes[id]? <;> rfl

/-- The lists of readers follow from the lists of inputs. -/
theorem readers_eq_of_inputs (h : g'.nodes.map (·.inputs) = g.nodes.map (·.inputs)) :
    g'.readers = g.readers := by
  have hsize : g'.size = g.size := by simpa [size] using congrArg Array.size h
  have hreaders : ∀ id, g'.readersOf id = g.readersOf id := by
    intro id
    simp only [readersOf_eq, inputs_eq_getD, h, hsize]
  apply Array.ext
  · rw [g'.readers_size, g.readers_size]
    exact hsize
  · intro id hid hid'
    simpa [readersOf, hid, hid'] using hreaders id

namespace SameColumns

theorem size (h : SameColumns g g') : g'.size = g.size := by
  simpa [Graph.size] using congrArg Array.size h.inputs

theorem inputsOf (h : SameColumns g g') : g'.inputs = g.inputs := by
  funext id
  rw [inputs_eq_getD, h.inputs, ← inputs_eq_getD]

theorem shared (h : SameColumns g g') : g'.shared = g.shared := by
  have hreaders : g'.readersOf = g.readersOf := by
    funext id
    rw [readersOf, h.readers, readersOf]
  rw [Graph.shared, h.size, hreaders, ← Graph.shared]

theorem depths (h : SameColumns g g') : g'.depths = g.depths := by
  simp only [Graph.depths, h.size, h.inputsOf]

theorem downstream (h : SameColumns g g') (start : List Nat) :
    g'.downstream start = g.downstream start := by
  simp only [Graph.downstream, h.size, h.inputsOf]

end SameColumns

/-! ## A graph whose nodes are adapted to a mode -/

theorem sameColumns_of_adapt (h : g'.nodes = g.nodes.map (Node.adapt mode)) : SameColumns g g' := by
  have hinputs : g'.nodes.map (·.inputs) = g.nodes.map (·.inputs) := by
    rw [h, Array.map_map]
    rfl
  refine ⟨?_, ?_, ?_, ?_, hinputs, readers_eq_of_inputs hinputs⟩ <;>
    · rw [h, Array.map_map]
      rfl

theorem kinds_of_adapt (h : g'.nodes = g.nodes.map (Node.adapt mode)) :
    g'.kinds = g.kinds.map mode.adapt := by
  rw [kinds, h, kinds, Array.map_map, Array.map_map]
  rfl

theorem observedCount_of_oneTime (h : g'.nodes = g.nodes.map (Node.adapt .oneTime)) :
    g'.observedCount = 0 := by
  rw [observedCount, h, Array.toList_map, List.countP_map, List.countP_eq_zero]
  intro n _
  simp [Node.adapt, BindingMode.adapt]

end Graph

namespace Telemetry

variable {g g' : Graph} {mode : BindingMode}

theorem countKinds_of_adapt (h : g'.nodes = g.nodes.map (Node.adapt mode)) :
    countKinds g' = countKinds g := by
  have hcount : ∀ t : NodeTag, g'.nodes.toList.countP (·.kind.tag = t) =
      g.nodes.toList.countP (·.kind.tag = t) := by
    intro t
    rw [h, Array.toList_map, List.countP_map]
    congr 1
    funext n
    simp only [Function.comp_apply, Node.adapt, BindingMode.adapt_tag]
  simp only [countKinds, hcount]

/-- No figure depends on the mode but the number of members that are followed. -/
theorem analyze_of_adapt (h : g'.nodes = g.nodes.map (Node.adapt mode)) (parameter body : Nat) :
    analyze g' parameter body = { analyze g parameter body with observedMembers := g'.observedCount } := by
  have hcols := Graph.sameColumns_of_adapt h
  simp only [analyze, countKinds_of_adapt h, hcols.size, hcols.shared, Graph.depthOf, hcols.depths,
    hcols.downstream, Graph.observedCount]

end Telemetry

/-! ## Copies -/

namespace Live

variable {σ : Type}

/-- A copy of a compiled prototype has the prototype's parameter and body and its nodes, number by
number: the same graph in a binding that follows changes, and in a one-time binding one in which no
member access observes. -/
theorem adopt_faithful {e : Lambda} {p : Prototype} (hp : e.compile = .ok p) (h : Host σ)
    (mode : BindingMode) (s : σ) :
    let l := (adopt h p mode s).1
    l.parameter = p.parameter ∧ l.body = p.body ∧ Graph.SameColumns p.graph l.graph ∧
      (mode = .live → l.graph.kinds = p.graph.kinds ∧ l.telemetry = p.telemetry) ∧
      (mode = .oneTime → l.graph.kinds = p.graph.kinds.map NodeKind.oneTime ∧
        l.telemetry = { p.telemetry with observedMembers := 0 }) ∧
      l.graph.size = p.graph.size ∧ l.graph.shared = p.graph.shared ∧
      l.graph.depths = p.graph.depths := by
  intro l
  have hfresh : Fresh p mode l := adopt_fresh hp h mode s
  have hnodes : l.graph.nodes = p.graph.nodes.map (Node.adapt mode) := by
    rw [hfresh.nodes, hfresh.mode]
  have hcols := Graph.sameColumns_of_adapt hnodes
  have hkinds := Graph.kinds_of_adapt hnodes
  have htele : l.telemetry = { p.telemetry with observedMembers := l.graph.observedCount } := by
    rw [telemetry, hfresh.parameter, hfresh.body]
    exact Telemetry.analyze_of_adapt hnodes _ _
  refine ⟨hfresh.parameter, hfresh.body, hcols, ?_, ?_, hcols.size, hcols.shared, hcols.depths⟩
  · rintro rfl
    have hgraph : l.graph = p.graph := Graph.ext_nodes (by rw [hnodes]; exact Array.map_id _)
    rw [htele, hgraph]
    exact ⟨rfl, rfl⟩
  · rintro rfl
    rw [htele, Graph.observedCount_of_oneTime hnodes]
    exact ⟨hkinds, rfl⟩

/-- In a one-time copy, too, the comparison that occurs twice is the one node with two readers. -/
theorem adopt_ageParadox :
    let h := World.host (World.dispatch World.callDepth) fun _ _ => .deaf
    ∃ p : Prototype, Lambda.ageParadox.compile = .ok p ∧
      p.telemetry.observedMembers = 3 ∧ p.graph.shared = [0, 4] ∧
      let l := (adopt h p .oneTime World.staff).1
      l.graph.shared = p.graph.shared ∧ l.telemetry = { p.telemetry with observedMembers := 0 } := by
  intro h
  have hp : Lambda.ageParadox.compile = .ok (Lambda.ageParadox.compile.toOption.get rfl) := rfl
  obtain ⟨-, -, -, -, honce, -, hshared, -⟩ := adopt_faithful hp h .oneTime World.staff
  exact ⟨_, hp, by decide +kernel, by decide +kernel, hshared, (honce rfl).2⟩

end Live

end LiveExpr
