import LiveExpr.Proofs.Session.Orderly

/-!
What runs between calls leaves the world orderly and the binding up to date: requests to any binding,
announcements with whatever their handlers do, deliveries with whatever the observers do, and the
actions that start them. Calls are nested, and so is the argument: it goes by the depth of calls.
-/

namespace LiveExpr.World

variable {w w' : World} {b : Subject} {d : Dispatcher} {after : Pending → Pending}

/-! ## Requests to one graph -/

theorem discreet_since (d : Dispatcher) (handler : Nat → String → Handler) (w : World) :
    Discreet d handler fun u => u.Quiet ∧ Resubscribed handler w u where
  access member v u hu := by
    rw [access_of_quiet hu.1]
    exact ⟨.refl u, hu⟩
  resubscribed hu hr := ⟨hr.heap.quiet hu.1, hu.2.trans hr⟩

/-- A request to the graph of cell `c` does nothing to the world but move its subscriptions. -/
def Confined (c : Nat) (op : Live → World → Live × World) : Prop :=
  ∀ {l w}, w.Tends c l → (op l w).2.Tends c (op l w).1 ∧ Resubscribed (.sink c) w (op l w).2

theorem sink_injective (c : Nat) (n : Nat) (m : String) (n' : Nat) (m' : String) :
    Handler.sink c n m = .sink c n' m' → n = n' ∧ m = m' := by
  intro h
  cases h
  exact ⟨rfl, rfl⟩

theorem Tends.since {c : Nat} {l : Live} (ht : w.Tends c l) :
    l.Tracked (.sink c) (fun u => u.Quiet ∧ Resubscribed (.sink c) w u) w.capable w :=
  ⟨⟨ht.hooked, ⟨ht.safe, .refl w⟩, fun _ => rfl⟩, ht.following⟩

theorem tends_of_since {c : Nat} {l : Live}
    (hl : l.Tracked (.sink c) (fun u => u.Quiet ∧ Resubscribed (.sink c) w u) w.capable w') :
    w'.Tends c l ∧ Resubscribed (.sink c) w w' := by
  have hcapable : w'.capable = w.capable := funext hl.capable
  refine ⟨?_, hl.safe.2⟩
  rw [Tends, hcapable]
  exact ⟨⟨hl.hooked, hl.safe.1, hl.capable⟩, hl.following⟩

theorem confined_bind (d : Dispatcher) (c : Nat) (v : Value) : Confined c (Live.bind (cellHost d c) v) :=
  fun ht => tends_of_since
    (ht.since.toKept.bind (sink_injective c) (discreet_since d (.sink c) _) v)

theorem confined_unbind (d : Dispatcher) (c : Nat) : Confined c (Live.unbind (cellHost d c)) :=
  fun ht => tends_of_since
    (ht.since.toKept.unbind (sink_injective c) (discreet_since d (.sink c) _))

theorem confined_memberChanged (d : Dispatcher) (c node : Nat) :
    Confined c (Live.memberChanged (cellHost d c) node) :=
  fun ht => tends_of_since
    (ht.since.memberChanged (sink_injective c) (discreet_since d (.sink c) _) node)

/-! ## Requests to a binding -/

theorem SameHeap.stale (h : SameHeap w w') : w'.stale = w.stale := by
  have hstale : ∀ {u u' : World}, SameHeap u u' → ∀ id member, u'.stale id member → u.stale id member := by
    intro u u' h id member hs
    obtain ⟨o', ho', hmem⟩ := hs
    obtain ⟨o, ho, heq⟩ := h.object ho'
    have hsame : o'.unannounced = o.unannounced := congrArg (·.unannounced) heq
    exact ⟨o, ho, hsame ▸ hmem⟩
  have hback : SameHeap w' w := ⟨fun id => (h.objects id).symm, fun id => (h.capable id).symm⟩
  funext id member
  exact propext ⟨hstale h id member, hstale hback id member⟩

theorem SameHeap.holds {sc : Scope} (h : SameHeap w w') (hw : w.Orderly sc) {id : Nat}
    {o' : HostObject Handler} {member : String} {v : Value} (ho' : w'.objects[id]? = some o')
    (hv : o'.members.get? member = some v) : sc.holds id member v := by
  obtain ⟨o, ho, heq⟩ := h.object ho'
  have hmembers : o'.members = o.members := congrArg (·.members) heq
  exact hw.holds id o member v ho (hmembers ▸ hv)

theorem Resubscribed.outside {c c' : Nat} (hr : Resubscribed (.sink c) w w') (hc : c' ≠ c)
    (hk : ∀ id, (w'.notifier id).Keyed) : Outside (.sink c') w w' where
  capable := hr.heap.capable
  keyed id _ := hk id
  handlers id key node member := hr.others id key _ fun n m h => by
    cases h
    exact hc rfl

def engaged (c : Nat) (w : World) : World :=
  w.modifyCell c ({ · with busy := true })

def Cell.served (cell : Cell) (l : Live) : Cell :=
  { cell with
    live := l.takePending.2
    busy := false
    outbox := cell.outbox ++ l.takePending.1
    reported := cell.reported ++ l.takePending.1 }

theorem propagating_eq (c : Nat) (op : Live → World → Live × World) (l : Live) (w : World) :
    w.propagating c op l =
      (op l (w.engaged c)).2.modifyCell c (Cell.served · (op l (w.engaged c)).1) := rfl

theorem cells_served {u : World} {c : Nat} {cell : Cell} {l : Live} (hcell : w.cells[c]? = some cell)
    (hu : u.cells = (w.engaged c).cells) (j : Nat) {cell' : Cell}
    (hc : (u.modifyCell c (Cell.served · l)).cells[j]? = some cell') :
    (j = c ∧ cell'.live = l.takePending.2 ∧ cell'.busy = false ∧ cell'.owned = cell.owned ∧
        cell'.observers = cell.observers) ∨
      (j ≠ c ∧ w.cells[j]? = some cell') := by
  by_cases hj : c = j
  · subst j
    have hengaged : u.cells[c]? = some { cell with busy := true } := by
      rw [hu]
      exact cells_modifyCell hcell _
    cases (cells_modifyCell hengaged (Cell.served · l)).symm.trans hc
    exact .inl ⟨rfl, rfl, rfl, rfl, rfl⟩
  · rw [cells_modifyCell_of_ne hj, hu, engaged, cells_modifyCell_of_ne hj] at hc
    exact .inr ⟨fun h => hj h.symm, hc⟩

section

variable {u : World} {c : Nat} {cell : Cell} {l : Live} (hw : w.Orderly b.scope)
  (hcell : w.cells[c]? = some cell) (hend : u.Tends c l)
  (hresub : Resubscribed (.sink c) (w.engaged c) u)

include hresub

theorem bindingCell?_served (name : String) :
    (u.modifyCell c (Cell.served · l)).bindingCell? name = w.bindingCell? name := by
  obtain ⟨-, hbindings, -, -⟩ := hresub.fields
  exact congrArg (List.lookup name) hbindings

theorem size_served : (u.modifyCell c (Cell.served · l)).cells.size = w.cells.size := by
  obtain ⟨hcells, -, -, -⟩ := hresub.fields
  rw [modifyCell, Array.size_modify, hcells]
  exact Array.size_modify

include hw hcell hend

/-- The graph of the cell holds its subscriptions, and those of the others are as they were. -/
theorem served_orderly : (u.modifyCell c (Cell.served · l)).Orderly b.scope := by
  obtain ⟨-, howned, -⟩ := hw.cells c cell hcell
  have hheap : SameHeap w u := (SameHeap.ofObjects rfl : SameHeap w (w.engaged c)).trans hresub.heap
  obtain ⟨hcells, -, hreactions, -⟩ := hresub.fields
  have htends : u.Tends c l.takePending.2 := hend.ofSameLedger ⟨rfl, rfl, rfl, rfl, rfl, rfl, rfl⟩
  refine ⟨hend.safe, fun id o member v ho hv => hheap.holds hw ho hv, hend.hooked.keyed, ?_, ?_, ?_,
    ?_, ?_, ?_, ?_⟩
  · intro id key c' node member hmem
    rw [size_served hresub]
    by_cases hc : c' = c
    · subst c'
      exact (Array.getElem?_eq_some_iff.mp hcell).1
    · have houtside := hresub.outside hc hend.hooked.keyed
      exact hw.sinks id key c' node member ((houtside.handlers id key node member).mp hmem)
  · intro j cell' hc
    rcases cells_served hcell hcells j hc with ⟨rfl, hlive, hbusy, howned', -⟩ | ⟨hj, hold⟩
    · rw [hlive, hbusy, howned']
      exact ⟨rfl, howned, htends.ofObjects rfl⟩
    · obtain ⟨hb, ho, ht'⟩ := hw.cells j cell' hold
      have hengaged : (w.engaged c).Tends j cell'.live := ht'.ofObjects rfl
      have hafter := hengaged.outside (hresub.outside hj hend.hooked.keyed) hend.safe
      exact ⟨hb, ho, hafter.ofObjects rfl⟩
  · intro name c' hc
    rw [bindingCell?_served hresub] at hc
    rw [size_served hresub]
    exact hw.names name c' hc
  · intro name name' c' hc hc'
    rw [bindingCell?_served hresub] at hc hc'
    exact hw.distinct name name' c' hc hc'
  · intro j cell' hc x hx
    rw [bindingCell?_served hresub]
    rcases cells_served hcell hcells j hc with ⟨rfl, -, -, -, hobservers⟩ | ⟨-, hold⟩
    · exact hw.named j cell hcell x (hobservers ▸ hx)
    · exact hw.named j cell' hold x hx
  · intro r reaction hr
    exact hw.scripts r reaction (hreactions ▸ hr)
  · exact fun r hr => hw.log r (hresub.ignored r hr)

end

/-- A cell's graph has been given its request, and the changes of its result are in the outbox. -/
theorem propagating_evolves (hw : w.Orderly b.scope) {c : Nat} {cell : Cell}
    (hcell : w.cells[c]? = some cell) {op : Live → World → Live × World} (hop : Confined c op)
    (hother : c ≠ b.cell → ∀ pending o key, pending o key → after pending o key)
    (hkeep : c = b.cell → ∀ pending, w.Maintains b pending →
      (op cell.live (w.engaged c)).1.Maintained b.scope (b.scope.binds b.name) b.prototype w.read
        w.stale (after pending)) :
    Evolves b after w (w.propagating c op cell.live) := by
  obtain ⟨-, -, ht⟩ := hw.cells c cell hcell
  have hstart : (w.engaged c).Tends c cell.live := ht.ofObjects rfl
  obtain ⟨hend, hresub⟩ := hop hstart
  rw [propagating_eq]
  generalize op cell.live (w.engaged c) = t at *
  obtain ⟨l, u⟩ := t
  simp only at hend hresub hkeep ⊢
  have hheap : SameHeap w u := (SameHeap.ofObjects rfl : SameHeap w (w.engaged c)).trans hresub.heap
  obtain ⟨hcells, hbindings, -, hexhausted⟩ := hresub.fields
  refine ⟨served_orderly hw hcell hend hresub, hbindings, size_served hresub, hresub.nextKey,
    hresub.old, fun hex => hexhausted ▸ hex, fun _ pending hmain => ?_⟩
  refine ⟨(bindingCell?_served hresub b.name).trans hmain.name, fun cell' hc => ?_⟩
  have hread : (u.modifyCell c (Cell.served · l)).read = w.read := hheap.read
  have hstale : (u.modifyCell c (Cell.served · l)).stale = w.stale := hheap.stale
  rw [hread, hstale]
  rcases cells_served hcell hcells b.cell hc with ⟨hj, hlive, -⟩ | ⟨hj, hold⟩
  · rw [hlive]
    exact (hkeep hj.symm pending hmain).takePending
  · exact (hmain.live cell' hold).mono (hother (fun h => hj h.symm) pending)

def Pending.without (pending : Pending) (object key : Nat) : Pending :=
  fun o k => pending o k ∧ ¬ (o = object ∧ k = key)

/-- What is handed out comes back orderly, and a handler of the binding that is called is no longer
pending. -/
structure Obeys (b : Subject) (d : Dispatcher) : Prop where
  call : ∀ {w} (call : Call), w.Orderly b.scope → Evolves b id w (d call w)
  sink : ∀ {w : World} {object key node : Nat} {member : String} {changed : Option String},
    w.Orderly b.scope → (key, .sink b.cell node member) ∈ (w.notifier object).handlers →
    concerns changed member = true →
    Evolves b (Pending.without · object key) w (d (.handler (.sink b.cell node member) changed) w)

theorem flush_evolves (hd : Obeys b d) (hw : w.Orderly b.scope) (c : Nat) :
    Evolves b id w (w.flush d c) := by
  unfold flush
  split
  · exact .refl hw
  · split
    · exact .refl hw
    · have hstart := (SameState.modifyCell w c (f := ({ · with delivering := true }))
        (fun _ => rfl) fun _ _ hx => .inl hx).evolves hw
      have hcall := hd.call (.deliver c) hstart.orderly
      have hend := (SameState.modifyCell _ c (f := ({ · with delivering := false }))
        (fun _ => rfl) fun _ _ hx => .inl hx).evolves hcall.orderly
      exact (hstart.trans hcall).trans hend

theorem bury_of_owned {c : Nat} (hw : ∀ cell : Cell, w.cells[c]? = some cell → cell.owned = true)
    (d : Dispatcher) : w.bury d c = w := by
  unfold bury
  cases hc : w.cells[c]? with
  | none => rfl
  | some cell =>
      simp only [Cell.isDead, hw cell hc, Bool.not_true, Bool.false_and, Bool.false_eq_true, if_false]

/-- As long as names keep their bindings, none of them dies. -/
theorem bury_of_orderly {sc : Scope} (hw : w.Orderly sc) (d : Dispatcher) (c : Nat) :
    w.bury d c = w :=
  bury_of_owned (fun cell hc => (hw.cells c cell hc).2.1) d

theorem request_evolves (hd : Obeys b d) (hw : w.Orderly b.scope) {c : Nat} {r : Request}
    {op : Live → World → Live × World} (hop : Confined c op)
    (hother : c ≠ b.cell → ∀ pending o key, pending o key → after pending o key)
    (hkeep : ∀ {u : World} {cell : Cell}, u.objects = w.objects → u.bindings = w.bindings →
      u.Orderly b.scope → u.cells[c]? = some cell → c = b.cell → ∀ pending, u.Maintains b pending →
        (op cell.live (u.engaged c)).1.Maintained b.scope (b.scope.binds b.name) b.prototype u.read
          u.stale (after pending)) :
    Evolves b after w (w.request d c r op) := by
  unfold request
  cases hc : w.cells[c]? with
  | none =>
      refine { Evolves.refl hw with maintains := fun _ pending hm => ?_ }
      by_cases hb : c = b.cell
      · refine ⟨hm.name, fun cell hcell => ?_⟩
        rw [← hb, hc] at hcell
        cases hcell
      · exact hm.mono (hother hb pending)
  | some cell =>
      obtain ⟨hbusy, -⟩ := hw.cells c cell hc
      simp only [hbusy, Bool.false_eq_true, if_false, activate]
      have hstart := (SameState.modifyCell w c
        (f := fun cell => { cell with activations := cell.activations + 1 }) (fun _ => rfl)
        fun _ _ hx => .inl hx).evolves hw
      have hcell := cells_modifyCell hc fun cell => { cell with activations := cell.activations + 1 }
      have hserved := propagating_evolves hstart.orderly hcell hop hother
        fun hb => hkeep rfl rfl hstart.orderly hcell hb
      have hflushed := flush_evolves hd hserved.orderly c
      have hend := (SameState.modifyCell _ c
        (f := fun cell => { cell with activations := cell.activations - 1 })
        (fun _ => rfl) fun _ _ hx => .inl hx).evolves hflushed.orderly
      rw [bury_of_orderly hend.orderly]
      exact ((hstart.trans hserved).trans hflushed).trans hend

theorem still_engaged {u : World} (hu : u.Quiet) (d : Dispatcher) (c : Nat) :
    (cellHost d c).Still u.read (u.engaged c) := by
  have hsame : SameHeap u (u.engaged c) := .ofObjects rfl
  rw [← hsame.read]
  exact (hsame.quiet hu).still

theorem bindCell_evolves (hd : Obeys b d) (hw : w.Orderly b.scope) {c : Nat} {v : Value}
    (hv : w.bindingCell? b.name = some c → b.scope.binds b.name v) :
    Evolves b id w (w.bindCell d c v) := by
  refine request_evolves hd hw (confined_bind d c v) (fun _ _ _ _ h => h) ?_
  intro u cell _ hbindings hu hcell hc pending hm
  subst hc
  have hname := hm.name
  rw [bindingCell?, hbindings] at hname
  exact (hm.live cell hcell).bind b.compiles (hv hname) (still_engaged hu.quiet d _) hu.allows

theorem unbindCell_evolves (hd : Obeys b d) (hw : w.Orderly b.scope) (c : Nat) :
    Evolves b id w (w.unbindCell d c) := by
  refine request_evolves hd hw (confined_unbind d c) (fun _ _ _ _ h => h) ?_
  intro u cell _ _ hu hcell hc pending hm
  subst hc
  exact (hm.live cell hcell).unbind b.compiles (still_engaged hu.quiet d _) hu.allows

theorem memberChanged_maintained {u : World} {cell : Cell} (hu : u.Orderly b.scope)
    (hcell : u.cells[b.cell]? = some cell) {pending : Pending} (hm : u.Maintains b pending)
    (d : Dispatcher) (node : Nat) :
    (cell.live.memberChanged (cellHost d b.cell) node (u.engaged b.cell)).1.Maintained b.scope
      (b.scope.binds b.name) b.prototype u.read u.stale
      fun o key => pending o key ∧ cell.live.watchAt node ≠ some ⟨o, key⟩ := by
  obtain ⟨-, -, ht⟩ := hu.cells b.cell cell hcell
  refine (hm.live cell hcell).memberChanged b.compiles ?_ (still_engaged hu.quiet d _) hu.allows
  exact fun j hj watch hwatch hnode => hj (ht.watchAt_inj hwatch hnode)

theorem memberChanged_evolves (hd : Obeys b d) (hw : w.Orderly b.scope) (c node : Nat) :
    Evolves b id w (w.memberChanged d c node) := by
  refine request_evolves hd hw (confined_memberChanged d c node) (fun _ _ _ _ h => h) ?_
  intro u cell _ _ hu hcell hc pending hm
  subst hc
  exact (memberChanged_maintained hu hcell hm d node).mono fun _ _ h => h.1

theorem memberChanged_told (hd : Obeys b d) (hw : w.Orderly b.scope) {object key node : Nat}
    {member : String} (hmem : (key, .sink b.cell node member) ∈ (w.notifier object).handlers) :
    Evolves b (Pending.without · object key) w (w.memberChanged d b.cell node) := by
  refine request_evolves hd hw (confined_memberChanged d b.cell node) (fun h => absurd rfl h) ?_
  intro u cell hobjects _ hu hcell _ pending hm
  obtain ⟨-, -, ht⟩ := hu.cells b.cell cell hcell
  rw [← notifier_of_objects hobjects] at hmem
  obtain ⟨hwatch, -⟩ := (ht.hooked.hooks object key node member).mp hmem
  refine (memberChanged_maintained hu hcell hm d node).mono fun o k h => ⟨h.1, ?_⟩
  rintro ⟨rfl, rfl⟩
  exact h.2 hwatch

end LiveExpr.World
