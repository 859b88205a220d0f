import LiveExpr.Proofs.Session.Audience
import LiveExpr.Proofs.Session.Desk

/-!
What the desk of a cell is in a world. Subscribing and unsubscribing enter in the roster what they
answer, and change the desk as the entry says.
-/

namespace LiveExpr.World

variable {c : Nat} {w w' : World}

def observersOf (c : Nat) (w : World) : List (Nat × Observer) :=
  (w.cells[c]?).elim [] (·.observers)

def nextId (c : Nat) (w : World) : Nat :=
  (w.cells[c]?).elim 0 (·.nextObserver)

def desk (c : Nat) (r : Option Round) (w : World) : Desk :=
  ⟨w.observersOf c, w.nextId c, r⟩

theorem desk_ofCells (h : w'.cells = w.cells) (c : Nat) (r : Option Round) :
    w'.desk c r = w.desk c r := by
  simp only [desk, observersOf, nextId, h]

theorem desk_modifyCell (w : World) (c : Nat) {f : Cell → Cell}
    (hf : ∀ cell, (f cell).observers = cell.observers ∧ (f cell).nextObserver = cell.nextObserver)
    (j : Nat) (r : Option Round) : (w.modifyCell c f).desk j r = w.desk j r := by
  by_cases hj : c = j
  · subst j
    cases hc : w.cells[c]? <;>
      simp [desk, observersOf, nextId, World.modifyCell, Array.getElem?_modify, hc, hf]
  · simp [desk, observersOf, nextId, cells_modifyCell_of_ne hj]

/-- A new cell has no observers. -/
theorem desk_pushCell {live : Live} (h : w'.cells = w.cells.push (.ofLive live)) (c : Nat)
    (r : Option Round) : w'.desk c r = w.desk c r := by
  simp only [desk, observersOf, nextId, h, Array.getElem?_push]
  split
  · subst c
    simp [Cell.ofLive]
  · rfl

/-! ## Subscribing and unsubscribing -/

theorem roster_addObserver {o : Observer} {id : Nat} (h : w.addObserver c o = (some id, w')) :
    w'.roster = w.roster ++ [.subscribed c id o] := by
  unfold addObserver at h
  split at h
  · cases h
  · obtain ⟨⟨⟩, rfl⟩ := Prod.mk.inj h
    rfl

theorem roster_removeObserver (c id : Nat) (w : World) :
    (w.removeObserver c id).2.roster =
      w.roster ++ [.unsubscribed c id (w.removeObserver c id).1] :=
  rfl

/-- An action that answers that an observer has been unsubscribed has entered it. -/
theorem roster_unobserve {d : Dispatcher} {name observer : String}
    (h : w.perform d (.unobserve name observer) = (.flag true, w')) :
    ∃ c id, w.bindingCell? name = some c ∧ w.observerIds.lookup (name, observer) = some id ∧
      w'.roster = w.roster ++ [.unsubscribed c id true] := by
  simp only [perform, performOnBinding, onBinding] at h
  split at h
  · cases h
  · rename_i c hc
    split at h
    · cases h
    · split at h
      · cases h
      · rename_i id hid
        obtain ⟨hreply, rfl⟩ := Prod.mk.inj h
        refine ⟨c, id, hc, hid, ?_⟩
        rw [roster_removeObserver, Reply.flag.inj hreply]

theorem addObserver_run {o : Observer} {id : Nat} (h : w.addObserver c o = (some id, w')) (j : Nat)
    (r : Option Round) : Desk.Run j (w.desk j r) [.subscribed c id o] (w'.desk j r) := by
  unfold addObserver at h
  cases hc : w.cells[c]? with
  | none => simp [hc] at h
  | some cell =>
      simp only [hc, Prod.mk.injEq, Option.some.injEq] at h
      obtain ⟨rfl, rfl⟩ := h
      by_cases hj : c = j
      · subst j
        refine .step ?_ (.nil _)
        simp only [desk, observersOf, nextId, enter, hc, cells_modifyCell hc, Option.elim_some]
        exact .subscribed o
      · refine .other hj ?_
        simp only [desk, observersOf, nextId, enter, cells_modifyCell_of_ne hj]
        exact .nil _

theorem removeObserver_run (c id : Nat) (w : World) (j : Nat) (r : Option Round) :
    Desk.Run j (w.desk j r) [.unsubscribed c id (w.removeObserver c id).1]
      ((w.removeObserver c id).2.desk j r) := by
  by_cases hj : c = j
  · subst j
    refine .step ?_ (.nil _)
    cases hc : w.cells[c]? with
    | none =>
        simp only [removeObserver, desk, observersOf, nextId, enter, modifyCell, hc,
          Array.getElem?_modify]
        exact .unsubscribed id
    | some cell =>
        simp only [removeObserver, desk, observersOf, nextId, enter, hc, cells_modifyCell hc,
          Option.elim_some]
        exact .unsubscribed id
  · refine .other hj ?_
    simp only [removeObserver, desk, observersOf, nextId, enter, cells_modifyCell_of_ne hj]
    exact .nil _

end LiveExpr.World
