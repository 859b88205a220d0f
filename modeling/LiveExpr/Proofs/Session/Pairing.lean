import LiveExpr.Proofs.Session.Delivery

/-!
One graph in two worlds. In both the objects have the same members, and the nodes of the graph follow
them in the same order, though under keys of their own, as others may follow them besides. Whatever is
asked of the graph, it does the same in both.
-/

namespace LiveExpr

/-- A subscription of a node, as the object has it that the node follows. -/
structure Hook where
  key : Nat
  node : Nat
  member : String

/-- What there is to a subscription but its key, and whether it is older than the key `since`. -/
def Hook.face (since : Nat) (x : Hook) : Nat × String × Bool :=
  (x.node, x.member, x.key < since)

def Handler.hook? (c : Nat) : Nat × Handler → Option Hook
  | (key, .sink c' node member) => if c' = c then some ⟨key, node, member⟩ else none
  | _ => none

theorem Handler.hook?_eq_some {c : Nat} {x : Nat × Handler} {k : Hook} :
    Handler.hook? c x = some k ↔ x = (k.key, .sink c k.node k.member) := by
  obtain ⟨key, h⟩ := x
  obtain ⟨key', node, member⟩ := k
  cases h with
  | sink c' node' member' =>
      simp only [Handler.hook?, Prod.mk.injEq, Handler.sink.injEq]
      by_cases hc : c' = c
      · simp [hc]
      · simp [hc]
  | _ => simp [Handler.hook?]

namespace World

/-- The subscriptions of cell `c` to an object, the oldest first. -/
def hooks (c id : Nat) (w : World) : List Hook :=
  (w.notifier id).handlers.filterMap (Handler.hook? c)

variable {w w' : World} {c id : Nat}

theorem mem_hooks {x : Hook} :
    x ∈ w.hooks c id ↔ (x.key, .sink c x.node x.member) ∈ (w.notifier id).handlers := by
  simp only [hooks, List.mem_filterMap, Handler.hook?_eq_some]
  exact ⟨fun ⟨_, hmem, heq⟩ => heq ▸ hmem, fun hmem => ⟨_, hmem, rfl⟩⟩

theorem SameHeap.symm (h : SameHeap w w') : SameHeap w' w :=
  ⟨fun id => (h.objects id).symm, fun id => (h.capable id).symm⟩

/-- An object is in both heaps, the same but for who follows it, or in neither. -/
theorem SameHeap.lookup (h : SameHeap w w') (id : Nat) :
    (w.objects[id]? = none ∧ w'.objects[id]? = none) ∨
      ∃ o o', w.objects[id]? = some o ∧ w'.objects[id]? = some o' ∧ o'.unfollowed = o.unfollowed := by
  cases ho' : w'.objects[id]? with
  | none =>
      have hid := h.objects id
      rw [ho', Option.map_none] at hid
      exact .inl ⟨Option.map_eq_none_iff.mp hid.symm, rfl⟩
  | some o' =>
      obtain ⟨o, ho, heq⟩ := h.object ho'
      exact .inr ⟨o, o', ho, rfl, heq⟩

theorem hooks_of_objects (h : w'.objects = w.objects) (c id : Nat) :
    w'.hooks c id = w.hooks c id := by
  rw [hooks, hooks, notifier_of_objects h]

theorem hooks_subscribe (hc : w.capable id = true) (c node : Nat) (member : String) (j : Nat) :
    (w.subscribe id (.sink c node member)).2.hooks c j =
      if j = id then w.hooks c id ++ [⟨(w.notifier id).nextKey, node, member⟩] else w.hooks c j := by
  rw [hooks, notifier_subscribe hc]
  split
  · simp [Notifier.subscribe, hooks, Handler.hook?]
  · rfl

theorem hooks_unwatch (watch : Watch) (w : World) (c id : Nat) :
    (w.unwatch watch).hooks c id =
      if id = watch.object then (w.hooks c id).filter (·.key != watch.key) else w.hooks c id := by
  rw [hooks, notifier_unwatch]
  split
  · simp only [hooks, Notifier.unsubscribe, List.filterMap_filter, List.filter_filterMap]
    refine List.filterMap_congr fun x _ => ?_
    cases hx : Handler.hook? c x with
    | none => simp
    | some k =>
        have hkey : k.key = x.1 := by rw [Handler.hook?_eq_some.mp hx]
        simp [Option.filter, hkey]
  · rfl

end World

namespace Live

variable {c : Nat} {l l' : Live} {w w' : World} {since since' : Nat → Nat} {capable : Nat → Bool}

/-! ## Subscriptions in order -/

theorem Hooked.mem_hooks (hl : l.Hooked (.sink c) w) {id : Nat} {x : Hook} :
    x ∈ w.hooks c id ↔
      l.watchAt x.node = some ⟨id, x.key⟩ ∧ l.observedMember? x.node = some x.member :=
  World.mem_hooks.trans (hl.hooks id x.key x.node x.member)

/-- A node that gives up its subscription is no longer there, and the others stay in order. -/
theorem Hooked.hooks_left (hl : l.Hooked (.sink c) w) (node id : Nat) :
    ((l.watchAt node).elim w (World.unwatch · w)).hooks c id =
      (w.hooks c id).filter (·.node != node) := by
  have helsewhere (hnone : ∀ key, l.watchAt node ≠ some ⟨id, key⟩) :
      w.hooks c id = (w.hooks c id).filter (·.node != node) := by
    refine (List.filter_eq_self.mpr fun x hx => ?_).symm
    simp only [bne_iff_ne]
    rintro rfl
    exact hnone x.key (hl.mem_hooks.mp hx).1
  cases hw : l.watchAt node with
  | none => exact helsewhere fun key h => by rw [hw] at h; cases h
  | some watch =>
      rw [Option.elim_some, World.hooks_unwatch]
      split
      · subst id
        refine List.filter_congr fun x hx => ?_
        obtain ⟨hx, -⟩ := hl.mem_hooks.mp hx
        -- a key is in use by one node, and a node has one key
        have hsame : x.key = watch.key ↔ x.node = node := by
          constructor
          · intro hkey
            rw [hkey] at hx
            exact hl.watchAt_inj hx hw
          · rintro rfl
            exact (congrArg Watch.key (Option.some.inj (hw.symm.trans hx))).symm
        rw [Bool.eq_iff_iff]
        simp [hsame]
      · rename_i hid
        refine helsewhere fun key h => hid ?_
        rw [hw] at h
        cases h
        rfl

/-! ## The same graph twice -/

/-- Keys older than `since` have been given out, and no object announces that it is read. -/
def Since (since : Nat → Nat) (w : World) : Prop :=
  w.Quiet ∧ ∀ id, since id ≤ (w.notifier id).nextKey

theorem discreet_of_since (d : Dispatcher) (c : Nat) (since : Nat → Nat) :
    World.Discreet d (.sink c) (Since since) where
  access member v w hw := by
    rw [World.access_of_quiet hw.1]
    exact ⟨.refl w, hw⟩
  resubscribed hw hr := ⟨hr.heap.quiet hw.1, fun id => Nat.le_trans (hw.2 id) (hr.nextKey id)⟩

theorem Kept.ofObjects (hk : l.Kept (.sink c) (Since since) capable w)
    (ho : w'.objects = w.objects) : l.Kept (.sink c) (Since since) capable w' := by
  have hnotifier := World.notifier_of_objects ho
  refine hk.outside (.ofNotifiers (World.SameHeap.ofObjects ho).capable hnotifier)
    ⟨(World.SameHeap.ofObjects ho).quiet hk.safe.1, fun id => ?_⟩
  rw [hnotifier]
  exact hk.safe.2 id

/-- The graphs differ at most in the keys of their subscriptions. In both worlds the same nodes follow
the same objects in the same order, and the same of them have done so since before `since`. -/
structure Paired (c : Nat) (since since' : Nat → Nat) (capable : Nat → Bool) (l : Live) (w : World)
    (l' : Live) (w' : World) : Prop where
  live : ∃ watches, l' = { l with watches }
  watched : ∀ node, (l'.watchAt node).map (·.object) = (l.watchAt node).map (·.object)
  heap : World.SameHeap w w'
  hooks : ∀ id, (w'.hooks c id).map (Hook.face (since' id)) = (w.hooks c id).map (Hook.face (since id))
  left : l.Kept (.sink c) (Since since) capable w
  right : l'.Kept (.sink c) (Since since') capable w'

namespace Paired

theorem graph (hp : Paired c since since' capable l w l' w') : l'.graph = l.graph := by
  obtain ⟨watches, rfl⟩ := hp.live
  rfl

theorem bound (hp : Paired c since since' capable l w l' w') : l'.bound = l.bound := by
  obtain ⟨watches, rfl⟩ := hp.live
  rfl

theorem due (hp : Paired c since since' capable l w l' w') (id : Nat) :
    l'.due w'.read id = l.due w.read id := by
  rw [hp.heap.read]
  obtain ⟨watches, rfl⟩ := hp.live
  rfl

/-- What leaves the subscriptions alone, and does the same to both graphs. -/
theorem update (hp : Paired c since since' capable l w l' w') {f : Live → Live}
    (hf : ∀ l watches, f { l with watches } = { f l with watches })
    (hg : ∀ l, (f l).graph = l.graph) (hw : ∀ l, (f l).watches = l.watches) :
    Paired c since since' capable (f l) w (f l') w' where
  live := by
    obtain ⟨watches, rfl⟩ := hp.live
    exact ⟨watches, hf l watches⟩
  watched node := by
    rw [watchAt, watchAt, hw, hw]
    exact hp.watched node
  heap := hp.heap
  hooks := hp.hooks
  left := hp.left.ofSameWatches (hg l) (hw l)
  right := hp.right.ofSameWatches (hg l') (hw l')

theorem ofObjects (hp : Paired c since since' capable l w l' w') {u u' : World}
    (ho : u.objects = w.objects) (ho' : u'.objects = w'.objects) :
    Paired c since since' capable l u l' u' where
  live := hp.live
  watched := hp.watched
  heap := (World.SameHeap.ofObjects ho).symm.trans (hp.heap.trans (.ofObjects ho'))
  hooks id := by
    rw [World.hooks_of_objects ho, World.hooks_of_objects ho']
    exact hp.hooks id
  left := hp.left.ofObjects ho
  right := hp.right.ofObjects ho'

theorem note (hp : Paired c since since' capable l w l' w') {n n' : Notice}
    (hn : ∀ r, n ≠ .ignored r) (hn' : ∀ r, n' ≠ .ignored r) :
    Paired c since since' capable l (w.note n) l' (w'.note n') where
  live := hp.live
  watched := hp.watched
  heap := ⟨hp.heap.objects, hp.heap.capable⟩
  hooks := hp.hooks
  left := hp.left.note (discreet_of_since (World.dispatch 0) c since) n hn
  right := hp.right.note (discreet_of_since (World.dispatch 0) c since') n' hn'

/-! ## Following a target -/

/-- The subscriptions of both graphs move, and to the objects it is the same move. -/
theorem resubscribed (hp : Paired c since since' capable l w l' w') {m m' : Live} {u u' : World}
    (hm : ∃ watches, m' = { m with watches })
    (hwatched : ∀ node, (m'.watchAt node).map (·.object) = (m.watchAt node).map (·.object))
    (hhooks : ∀ id, (u'.hooks c id).map (Hook.face (since' id)) =
      (u.hooks c id).map (Hook.face (since id)))
    (hl : m.Hooked (.sink c) u ∧ World.Resubscribed (.sink c) w u)
    (hl' : m'.Hooked (.sink c) u' ∧ World.Resubscribed (.sink c) w' u') :
    Paired c since since' capable m u m' u' where
  live := hm
  watched := hwatched
  heap := hl.2.heap.symm.trans (hp.heap.trans hl'.2.heap)
  hooks := hhooks
  left := hp.left.resubscribed (discreet_of_since (World.dispatch 0) c since) hl.1 hl.2
  right := hp.right.resubscribed (discreet_of_since (World.dispatch 0) c since') hl'.1 hl'.2

theorem left_node (hp : Paired c since since' capable l w l' w') {node : Nat} {member : String}
    (hm : l.observedMember? node = some member) :
    Paired c since since' capable (l.setWatch node none)
      ((l.watchAt node).elim w (World.unwatch · w)) (l'.setWatch node none)
      ((l'.watchAt node).elim w' (World.unwatch · w')) := by
  have hm' : l'.observedMember? node = some member := by
    rw [observedMember?_of_graph hp.graph, hm]
  refine hp.resubscribed ?_ (fun j => ?_) (fun id => ?_)
    (hp.left.hooked.left (World.sink_injective c) hm)
    (hp.right.hooked.left (World.sink_injective c) hm')
  · obtain ⟨watches, rfl⟩ := hp.live
    exact ⟨_, rfl⟩
  · rw [hp.left.hooked.watchAt_setWatch hm, hp.right.hooked.watchAt_setWatch hm']
    split
    · rfl
    · exact hp.watched j
  · have hpast : ∀ (since : Nat) (xs : List Hook), (xs.filter (·.node != node)).map (Hook.face since) =
        (xs.map (Hook.face since)).filter (·.1 != node) := by
      intro since xs
      rw [List.filter_map]
      rfl
    rw [hp.left.hooked.hooks_left, hp.right.hooked.hooks_left, hpast, hpast, hp.hooks id]

theorem joined_node (hp : Paired c since since' capable l w l' w') {node : Nat} {member : String}
    (hm : l.observedMember? node = some member) (hfree : l.watchAt node = none) (id : Nat) :
    let t := w.subscribe id (.sink c node member)
    let t' := w'.subscribe id (.sink c node member)
    Paired c since since' capable (l.setWatch node (t.1.map (⟨id, ·⟩))) t.2
      (l'.setWatch node (t'.1.map (⟨id, ·⟩))) t'.2 := by
  intro t t'
  have hm' : l'.observedMember? node = some member := by
    rw [observedMember?_of_graph hp.graph, hm]
  have hfree' : l'.watchAt node = none := by
    simpa [hfree] using hp.watched node
  obtain ⟨hjoined, hresub, hsome⟩ :=
    hp.left.hooked.joined (World.sink_injective c) hm hfree id
  obtain ⟨hjoined', hresub', hsome'⟩ :=
    hp.right.hooked.joined (World.sink_injective c) hm' hfree' id
  refine hp.resubscribed ?_ (fun j => ?_) (fun j => ?_) ⟨hjoined, hresub⟩ ⟨hjoined', hresub'⟩
  · obtain ⟨watches, rfl⟩ := hp.live
    exact ⟨_, rfl⟩
  · rw [hp.left.hooked.watchAt_setWatch hm, hp.right.hooked.watchAt_setWatch hm']
    split
    · have hobject : ∀ {key : Option Nat}, (key.map (Watch.mk id ·)).map (·.object) =
          if key.isSome then some id else none := by
        intro key
        cases key <;> rfl
      rw [hobject, hobject, hsome, hsome', hp.heap.capable]
    · exact hp.watched j
  · cases hc : w.capable id with
    | false =>
        have hc' : w'.capable id = false := (hp.heap.capable id).trans hc
        rw [show t = _ from World.subscribe_of_not_capable hc _,
          show t' = _ from World.subscribe_of_not_capable hc' _]
        exact hp.hooks j
    | true =>
        have hc' : w'.capable id = true := (hp.heap.capable id).trans hc
        rw [World.hooks_subscribe hc, World.hooks_subscribe hc']
        split
        · -- the new keys are younger than either bound
          have hyoung := hp.left.safe.2 id
          have hyoung' := hp.right.safe.2 id
          subst j
          simp only [List.map_append, hp.hooks id, List.map_cons, List.map_nil, Hook.face]
          rw [decide_eq_false (Nat.not_lt.mpr hyoung), decide_eq_false (Nat.not_lt.mpr hyoung')]
        · exact hp.hooks j

end Paired

theorem rewatch_of_observed {σ : Type} (h : Host σ) {node : Nat} {member : String} {l : Live}
    (hm : l.observedMember? node = some member) (s : σ) :
    l.rewatch h node s =
      if ((l.watchAt node).map (·.object)).isSome &&
          (l.watchAt node).map (·.object) == (l.watchTarget node).map (·.id) then (l, s)
      else
        let s := (l.watchAt node).elim s (h.unwatch · s)
        match l.watchTarget node with
        | none => (l.setWatch node none, s)
        | some r =>
          let t := h.watch r node member s
          (l.setWatch node (t.1.map (⟨r.id, ·⟩)), t.2) := by
  rw [Option.isSome_map]
  unfold rewatch
  cases hobserved : l.observedMember? node with
  | none => cases hobserved.symm.trans hm
  | some _ =>
      cases hobserved.symm.trans hm
      rfl

theorem Paired.rewatch (hp : Paired c since since' capable l w l' w') (d : Dispatcher) (node : Nat) :
    Paired c since since' capable
      (l.rewatch (World.cellHost d c) node w).1 (l.rewatch (World.cellHost d c) node w).2
      (l'.rewatch (World.cellHost d c) node w').1 (l'.rewatch (World.cellHost d c) node w').2 := by
  have hm' := observedMember?_of_graph hp.graph node
  have htarget : l'.watchTarget node = l.watchTarget node := by
    obtain ⟨watches, rfl⟩ := hp.live
    rfl
  cases hm : l.observedMember? node with
  | none =>
      rw [hm] at hm'
      simp only [Live.rewatch, hm, hm']
      exact hp
  | some member =>
      rw [hm] at hm'
      have hleft := hp.left_node hm
      rw [rewatch_of_observed _ hm, rewatch_of_observed _ hm', hp.watched node, htarget]
      split
      · exact hp
      · cases l.watchTarget node with
        | none => exact hleft
        | some r =>
            have hfree : (l.setWatch node none).watchAt node = none := by
              rw [hp.left.hooked.watchAt_setWatch hm, if_pos rfl]
            have hm₀ : (l.setWatch node none).observedMember? node = some member := hm
            have hjoined := hleft.joined_node hm₀ hfree r.id
            simp only [setWatch_setWatch] at hjoined
            exact hjoined

namespace Paired

/-! ## One node, and a propagation -/

theorem evaluate (hp : Paired c since since' capable l w l' w') (d : Dispatcher) (node : Nat) :
    l.evaluate (World.cellHost d c) node w = (l.due w.read node, w) ∧
      l'.evaluate (World.cellHost d c) node w' = (l.due w.read node, w') := by
  have hstill : (World.cellHost d c).Still w.read w := hp.left.safe.1.still
  have hstill' : (World.cellHost d c).Still w'.read w' := hp.right.safe.1.still
  exact ⟨evaluate_of_still hstill l node,
    (evaluate_of_still hstill' l' node).trans (congrArg (·, w') (hp.due node))⟩

theorem accept (hp : Paired c since since' capable l w l' w') (d : Dispatcher) (node : Nat)
    (r : Result) :
    let t := l.accept (World.cellHost d c) node r w
    let t' := l'.accept (World.cellHost d c) node r w'
    t'.1 = t.1 ∧ Paired c since since' capable t.2.1 t.2.2 t'.2.1 t'.2.2 := by
  have hsame : Result.sameAs (l'.graph.policyOf node) (l'.ledger.get node) r =
      Result.sameAs (l.graph.policyOf node) (l.ledger.get node) r := by
    obtain ⟨watches, rfl⟩ := hp.live
    rfl
  have hset : Paired c since since' capable (l.setResult node r) w (l'.setResult node r) w' :=
    hp.update (f := (·.setResult node r)) (fun _ _ => rfl) (fun _ => rfl) (fun _ => rfl)
  simp only [Live.accept, hsame]
  split
  · exact ⟨rfl, hp.note nofun nofun⟩
  · exact ⟨rfl, hset.note nofun nofun⟩

/-- A node takes a new result in both graphs or in neither. -/
theorem recompute (hp : Paired c since since' capable l w l' w') (d : Dispatcher) (node : Nat) :
    let t := l.recompute (World.cellHost d c) node w
    let t' := l'.recompute (World.cellHost d c) node w'
    t'.1 = t.1 ∧ Paired c since since' capable t.2.1 t.2.2 t'.2.1 t'.2.2 := by
  have hrewatched := hp.rewatch d node
  unfold Live.recompute
  generalize l.rewatch (World.cellHost d c) node w = t at hrewatched ⊢
  generalize l'.rewatch (World.cellHost d c) node w' = t' at hrewatched ⊢
  obtain ⟨m, u⟩ := t
  obtain ⟨m', u'⟩ := t'
  obtain ⟨heval, heval'⟩ := hrewatched.evaluate d node
  simp only [heval, heval']
  exact hrewatched.accept d node _

theorem sweep (d : Dispatcher) (steps : Nat) {agenda : List Nat}
    (hp : Paired c since since' capable l w l' w') :
    let t := Live.sweep (World.cellHost d c) steps agenda l w
    let t' := Live.sweep (World.cellHost d c) steps agenda l' w'
    Paired c since since' capable t.1 t.2 t'.1 t'.2 := by
  induction steps generalizing agenda l w l' w' with
  | zero => exact hp
  | succ steps ih =>
      cases agenda with
      | nil => exact hp
      | cons node rest =>
          obtain ⟨hchanged, hnext⟩ := hp.recompute d node
          unfold Live.sweep
          generalize l.recompute (World.cellHost d c) node w = t at hchanged hnext ⊢
          generalize l'.recompute (World.cellHost d c) node w' = t' at hchanged hnext ⊢
          obtain ⟨changed, m, u⟩ := t
          obtain ⟨changed', m', u'⟩ := t'
          obtain rfl : changed' = changed := hchanged
          have hgraph : m'.graph = m.graph := hnext.graph
          simp only [hgraph]
          exact ih hnext

theorem propagate (hp : Paired c since since' capable l w l' w') (d : Dispatcher) (dirty : List Nat) :
    let t := l.propagate (World.cellHost d c) dirty w
    let t' := l'.propagate (World.cellHost d c) dirty w'
    Paired c since since' capable t.1 t.2 t'.1 t'.2 := by
  simp only [Live.propagate, hp.graph]
  exact hp.sweep d (l.graph.size + dirty.length)

/-! ## Requests -/

theorem settleRoot (hp : Paired c since since' capable l w l' w') (target : Result) :
    Paired c since since' capable (l.settleRoot target) w (l'.settleRoot target) w' :=
  hp.update (f := (·.settleRoot target))
    (fun m watches => by simp only [Live.settleRoot]; split <;> rfl)
    (fun m => (settleRoot_sameLedger m target).graph)
    fun m => (settleRoot_sameLedger m target).watches

theorem settleOnBody (hp : Paired c since since' capable l w l' w') :
    Paired c since since' capable l.settleOnBody w l'.settleOnBody w' := by
  have hbody : l'.ledger.get l'.body = l.ledger.get l.body := by
    obtain ⟨watches, rfl⟩ := hp.live
    rfl
  rw [Live.settleOnBody, Live.settleOnBody, hbody]
  exact hp.settleRoot _

theorem withParameter (hp : Paired c since since' capable l w l' w') (b : Bool) (r : Result) :
    Paired c since since' capable (l.withParameter b r) w (l'.withParameter b r) w' :=
  hp.update (f := (·.withParameter b r)) (fun _ _ => rfl) (fun _ => rfl) fun _ => rfl

theorem bind (hp : Paired c since since' capable l w l' w') (d : Dispatcher) (v : Value) :
    let t := l.bind (World.cellHost d c) v w
    let t' := l'.bind (World.cellHost d c) v w'
    Paired c since since' capable t.1 t.2 t'.1 t'.2 := by
  have hnoted : Paired c since since' capable l (w.note (.binding v)) l' (w'.note (.binding v)) :=
    hp.note nofun nofun
  have hagenda : l'.bindAgenda = l.bindAgenda := by
    obtain ⟨watches, rfl⟩ := hp.live
    rfl
  rw [bind_eq, bind_eq, hagenda]
  exact ((hnoted.withParameter true (some v)).propagate d l.bindAgenda).settleOnBody

/-- Once everything is released, no node follows anything in either world. -/
theorem released (hp : Paired c since since' capable l w l' w') :
    Paired c since since' capable l.unwatched (w.release l.watches.toList) l'.unwatched
      (w'.release l'.watches.toList) := by
  have hnone : ∀ {m : Live} {u : World}, m.unwatched.Hooked (.sink c) u → ∀ id, u.hooks c id = [] := by
    intro m u hm id
    refine List.eq_nil_iff_forall_not_mem.mpr fun x hx => ?_
    obtain ⟨hwatch, -⟩ := hm.mem_hooks.mp hx
    rw [watchAt_unwatched] at hwatch
    cases hwatch
  have hleft := hp.left.hooked.released
  have hright := hp.right.hooked.released
  refine hp.resubscribed ?_ (fun node => ?_) (fun id => ?_) hleft hright
  · obtain ⟨watches, rfl⟩ := hp.live
    exact ⟨_, rfl⟩
  · rw [watchAt_unwatched, watchAt_unwatched]
  · rw [hnone hleft.1, hnone hright.1]
    rfl

theorem unbind (hp : Paired c since since' capable l w l' w') (d : Dispatcher) :
    let t := l.unbind (World.cellHost d c) w
    let t' := l'.unbind (World.cellHost d c) w'
    Paired c since since' capable t.1 t.2 t'.1 t'.2 := by
  have hnoted : Paired c since since' capable l
      (if l.bound then (World.cellHost d c).note (.unbinding l.watchCount) w else w) l'
      (if l'.bound then (World.cellHost d c).note (.unbinding l'.watchCount) w' else w') := by
    rw [hp.bound]
    split
    · exact hp.note nofun nofun
    · exact hp
  have hreaders : l'.graph.readersOf l'.parameter = l.graph.readersOf l.parameter := by
    obtain ⟨watches, rfl⟩ := hp.live
    rfl
  rw [unbind_eq, unbind_eq, hreaders]
  exact ((hnoted.released.withParameter false none).propagate d _).settleRoot none

theorem memberChanged (hp : Paired c since since' capable l w l' w') (d : Dispatcher) (node : Nat) :
    let t := l.memberChanged (World.cellHost d c) node w
    let t' := l'.memberChanged (World.cellHost d c) node w'
    Paired c since since' capable t.1 t.2 t'.1 t'.2 := by
  have hbound := hp.bound
  cases hb : l.bound with
  | false =>
      rw [memberChanged_unbound _ node hb, memberChanged_unbound _ node (hbound.trans hb)]
      exact hp
  | true =>
      rw [memberChanged_eq _ node hb, memberChanged_eq _ node (hbound.trans hb)]
      exact (hp.propagate d [node]).settleOnBody

end Paired

end Live

end LiveExpr
