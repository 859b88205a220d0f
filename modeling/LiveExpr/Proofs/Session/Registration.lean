import LiveExpr.Session.Services
import Mathlib.Tactic

/-!
What subscribing and unsubscribing change in the heap: the notifier of one object, in which keys are
never given out twice. Members, and whether an object announces changes at all, stay as they are.
-/

namespace LiveExpr

/-! ## One notifier -/

namespace Notifier

variable {η : Type} {n : Notifier η}

/-- No key is in use twice, and those still to be given out are not in use. -/
structure Keyed (n : Notifier η) : Prop where
  nodup : (n.handlers.map (·.1)).Nodup
  lt_nextKey : ∀ x ∈ n.handlers, x.1 < n.nextKey

theorem keyed_empty : (empty : Notifier η).Keyed :=
  ⟨.nil, by simp [empty]⟩

theorem Keyed.unique (hn : n.Keyed) {k : Nat} {a b : η} (ha : (k, a) ∈ n.handlers)
    (hb : (k, b) ∈ n.handlers) : a = b := by
  have hpair := List.inj_on_of_nodup_map hn.nodup ha hb rfl
  exact (Prod.mk.inj hpair).2

theorem mem_subscribe {handler : η} {x : Nat × η} :
    x ∈ (n.subscribe handler).2.handlers ↔ x ∈ n.handlers ∨ x = (n.nextKey, handler) := by
  simp [subscribe]

theorem mem_unsubscribe {key : Nat} {x : Nat × η} :
    x ∈ (n.unsubscribe key).2.handlers ↔ x ∈ n.handlers ∧ x.1 ≠ key := by
  simp [unsubscribe, List.mem_filter]

theorem Keyed.subscribe (hn : n.Keyed) (handler : η) : (n.subscribe handler).2.Keyed where
  nodup := by
    simp only [Notifier.subscribe, List.map_append, List.map_cons, List.map_nil]
    refine List.nodup_append.mpr ⟨hn.nodup, List.nodup_singleton _, fun k hk k' hk' => ?_⟩
    obtain ⟨x, hx, rfl⟩ := List.mem_map.mp hk
    have := hn.lt_nextKey x hx
    obtain rfl := List.mem_singleton.mp hk'
    omega
  lt_nextKey x hx := by
    rcases mem_subscribe.mp hx with hx | rfl
    · exact Nat.lt_succ_of_lt (hn.lt_nextKey x hx)
    · exact Nat.lt_succ_self _

theorem Keyed.unsubscribe (hn : n.Keyed) (key : Nat) : (n.unsubscribe key).2.Keyed where
  nodup := hn.nodup.sublist (List.Sublist.map _ List.filter_sublist)
  lt_nextKey x hx := hn.lt_nextKey x (mem_unsubscribe.mp hx).1

theorem holds_iff {key : Nat} : n.holds key = true ↔ ∃ a, (key, a) ∈ n.handlers := by
  simp [holds]

end Notifier

/-! ## The heap -/

theorem Members.get?_cons (n member : String) (u : Value) (ms : Members) :
    Members.get? ((n, u) :: ms) member = if member = n then some u else ms.get? member := by
  rw [get?, List.lookup_cons]
  by_cases h : member = n
  · simp [h]
  · rw [beq_false_of_ne h, if_neg h]
    rfl

theorem Members.get?_put (ms : Members) (name member : String) (v : Value) :
    (ms.put name v).get? member = if member = name then some v else ms.get? member := by
  induction ms with
  | nil => exact get?_cons name member v []
  | cons x ms ih =>
      obtain ⟨n, u⟩ := x
      unfold put
      split
      · subst n
        rw [get?_cons, get?_cons]
        split <;> rfl
      · split
        · rw [get?_cons]
        · rename_i hne _
          rw [get?_cons, ih, get?_cons]
          by_cases h : member = n
          · subst n
            rw [if_pos rfl, if_neg (Ne.symm hne), if_pos rfl]
          · rw [if_neg h, if_neg h]

theorem HostObject.read_write {η : Type} (o : HostObject η) (name member : String) (v : Value) :
    (o.write name v).read member = if member = name then v else o.read member := by
  simp only [read, write, Members.get?_put]
  split <;> rfl

def HostObject.unfollowed {η : Type} (o : HostObject η) : HostObject η :=
  { o with notifier := none }

namespace World

/-- Whether the object announces changes of its members. -/
def capable (w : World) (id : Nat) : Bool :=
  ((w.objects[id]?).bind (·.notifier)).isSome

def read (w : World) (member : String) : Value → Value
  | .object r | .struct r => (w.objects[r.id]?).elim .null (·.read member)
  | v => v.builtinMember member

theorem read_congr {w w' : World}
    (h : ∀ (id : Nat) (member : String), (w'.objects[id]?).elim Value.null (·.read member) =
      (w.objects[id]?).elim Value.null (·.read member)) : w'.read = w.read := by
  funext member v
  cases v with
  | object r | struct r => exact h r.id member
  | _ => rfl

theorem notifier_of_not_capable {w : World} {id : Nat} (hc : w.capable id = false) :
    w.notifier id = .empty := by
  have hnone : (w.objects[id]?).bind (·.notifier) = none := by simpa [capable] using hc
  rw [notifier, hnone]
  rfl

/-- An object with followers announces changes. -/
theorem capable_of_mem {w : World} {id : Nat} {x : Nat × Handler} (hx : x ∈ (w.notifier id).handlers) :
    w.capable id = true := by
  by_contra hc
  rw [notifier_of_not_capable (by simpa using hc)] at hx
  cases hx

theorem objects_modifyObject (w : World) (id j : Nat) (f : HostObject Handler → HostObject Handler) :
    (w.modifyObject id f).objects[j]? =
      if id = j then (w.objects[j]?).map f else w.objects[j]? := by
  rw [modifyObject, Array.getElem?_modify]

theorem cells_modifyCell {w : World} {c : Nat} {cell : Cell} (hc : w.cells[c]? = some cell)
    (f : Cell → Cell) : (w.modifyCell c f).cells[c]? = some (f cell) := by
  rw [modifyCell, Array.getElem?_modify, if_pos rfl, hc]
  rfl

theorem cells_modifyCell_of_ne {w : World} {c j : Nat} (hj : c ≠ j) (f : Cell → Cell) :
    (w.modifyCell c f).cells[j]? = w.cells[j]? := by
  rw [modifyCell, Array.getElem?_modify, if_neg hj]

/-- Scripts that are started stay as they are. -/
theorem script_of_started {rs : Array Reaction} {i j : Nat} {r' : Reaction}
    (h : (rs.modify i fun r => { r with started := r.started + 1 })[j]? = some r') :
    ∃ r : Reaction, rs[j]? = some r ∧ r.script = r'.script := by
  rw [Array.getElem?_modify] at h
  split at h
  · obtain ⟨r, hr, rfl⟩ := Option.map_eq_some_iff.mp h
    exact ⟨r, hr, rfl⟩
  · exact ⟨r', h, rfl⟩

/-- The worlds differ at most in who follows which object. -/
structure SameHeap (w w' : World) : Prop where
  objects : ∀ id : Nat, (w'.objects[id]?).map HostObject.unfollowed =
    (w.objects[id]?).map HostObject.unfollowed
  capable : ∀ id : Nat, w'.capable id = w.capable id

theorem SameHeap.refl (w : World) : SameHeap w w :=
  ⟨fun _ => rfl, fun _ => rfl⟩

theorem SameHeap.trans {w w' w'' : World} (a : SameHeap w w') (b : SameHeap w' w'') :
    SameHeap w w'' :=
  ⟨fun id => (b.objects id).trans (a.objects id), fun id => (b.capable id).trans (a.capable id)⟩

theorem SameHeap.ofObjects {w w' : World} (h : w'.objects = w.objects) : SameHeap w w' :=
  ⟨fun id => by rw [h], fun id => by rw [World.capable, World.capable, h]⟩

theorem SameHeap.object {w w' : World} (h : SameHeap w w') {id : Nat} {o' : HostObject Handler}
    (ho : w'.objects[id]? = some o') :
    ∃ o, w.objects[id]? = some o ∧ o'.unfollowed = o.unfollowed := by
  have hid := h.objects id
  rw [ho] at hid
  obtain ⟨o, ho, heq⟩ := Option.map_eq_some_iff.mp hid.symm
  exact ⟨o, ho, heq.symm⟩

theorem SameHeap.read {w w' : World} (h : SameHeap w w') : w'.read = w.read := by
  refine read_congr fun id member => ?_
  have hid := congrArg (fun o => Option.elim o Value.null fun o => o.read member) (h.objects id)
  cases hw' : w'.objects[id]? <;> cases hw : w.objects[id]? <;> rw [hw', hw] at hid
  all_goals first | rfl | exact hid

/-! ## Subscribing and unsubscribing -/

theorem unwatch_sameHeap (watch : Watch) (w : World) : SameHeap w (w.unwatch watch) where
  objects id := by
    rw [unwatch, unsubscribe, objects_modifyObject]
    split
    · rw [Option.map_map]; rfl
    · rfl
  capable id := by
    rw [capable, capable, unwatch, unsubscribe, objects_modifyObject]
    split
    · cases w.objects[id]? <;> simp
    · rfl

theorem notifier_unwatch (watch : Watch) (w : World) (id : Nat) :
    (w.unwatch watch).notifier id =
      if id = watch.object then ((w.notifier id).unsubscribe watch.key).2 else w.notifier id := by
  rw [notifier, notifier, unwatch, unsubscribe, objects_modifyObject]
  by_cases hid : watch.object = id
  · rw [if_pos hid, if_pos hid.symm]
    cases w.objects[id]? with
    | none => rfl
    | some o => cases h : o.notifier <;> simp [h, Notifier.empty, Notifier.unsubscribe]
  · rw [if_neg hid, if_neg fun h => hid h.symm]

theorem mem_unwatch {watch : Watch} {w : World} {id : Nat} {x : Nat × Handler} :
    x ∈ ((w.unwatch watch).notifier id).handlers ↔
      x ∈ (w.notifier id).handlers ∧ ¬ (id = watch.object ∧ x.1 = watch.key) := by
  rw [notifier_unwatch]
  split
  · rw [Notifier.mem_unsubscribe]
    tauto
  · tauto

theorem keyed_unwatch {w : World} {id : Nat} (hk : (w.notifier id).Keyed) (watch : Watch) :
    ((w.unwatch watch).notifier id).Keyed := by
  rw [notifier_unwatch]
  split
  · exact hk.unsubscribe _
  · exact hk

theorem nextKey_unwatch (watch : Watch) (w : World) (id : Nat) :
    ((w.unwatch watch).notifier id).nextKey = (w.notifier id).nextKey := by
  rw [notifier_unwatch]
  split <;> rfl

theorem subscribe_of_not_capable {w : World} {id : Nat} (hc : w.capable id = false)
    (handler : Handler) : w.subscribe id handler = (none, w) := by
  have hnone : (w.objects[id]?).bind (·.notifier) = none := by simpa [capable] using hc
  rw [subscribe, hnone]

theorem subscribe_of_capable {w : World} {id : Nat} (hc : w.capable id = true) (handler : Handler) :
    w.subscribe id handler =
      (some (w.notifier id).nextKey, w.modifyObject id fun o =>
        { o with notifier := some ((w.notifier id).subscribe handler).2 }) := by
  obtain ⟨n, hn⟩ := Option.isSome_iff_exists.mp hc
  rw [subscribe, notifier, hn]
  rfl

theorem subscribe_sameHeap (id : Nat) (handler : Handler) (w : World) :
    SameHeap w (w.subscribe id handler).2 := by
  by_cases hc : w.capable id = true
  · rw [subscribe_of_capable hc]
    refine ⟨fun j => ?_, fun j => ?_⟩
    · rw [objects_modifyObject]
      split
      · rw [Option.map_map]; rfl
      · rfl
    · rw [capable, capable, objects_modifyObject]
      split
      · subst id
        rw [capable] at hc
        rw [hc]
        cases ho : w.objects[j]? with
        | none => simp [ho] at hc
        | some o => rfl
      · rfl
  · rw [subscribe_of_not_capable (by simpa using hc)]
    exact .refl w

theorem notifier_subscribe {w : World} {id : Nat} (hc : w.capable id = true) (handler : Handler)
    (j : Nat) :
    (w.subscribe id handler).2.notifier j =
      if j = id then ((w.notifier id).subscribe handler).2 else w.notifier j := by
  rw [subscribe_of_capable hc]
  simp only
  rw [notifier, objects_modifyObject]
  by_cases hj : id = j
  · subst hj
    rw [if_pos rfl, if_pos rfl]
    rw [capable] at hc
    cases ho : w.objects[id]? with
    | none => simp [ho] at hc
    | some o => rfl
  · rw [if_neg hj, if_neg fun h => hj h.symm, notifier]

theorem mem_subscribe {w : World} {id : Nat} (hc : w.capable id = true) {handler : Handler} {j : Nat}
    {x : Nat × Handler} :
    x ∈ ((w.subscribe id handler).2.notifier j).handlers ↔
      x ∈ (w.notifier j).handlers ∨ (j = id ∧ x = ((w.notifier id).nextKey, handler)) := by
  rw [notifier_subscribe hc]
  split
  · subst j
    rw [Notifier.mem_subscribe]
    tauto
  · tauto

theorem keyed_subscribe {w : World} {id : Nat} (hc : w.capable id = true) (handler : Handler)
    (hk : ∀ j, (w.notifier j).Keyed) (j : Nat) : ((w.subscribe id handler).2.notifier j).Keyed := by
  rw [notifier_subscribe hc]
  split
  · exact (hk id).subscribe _
  · exact hk j

end World

end LiveExpr
