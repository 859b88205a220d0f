import LiveExpr.Proofs.Session.Registration
import LiveExpr.Proofs.Live.Rebinding

/-!
A live graph and the notifiers of a world agree on its subscriptions: what is registered through the
graph's handlers is what its nodes hold. Following a target, releasing everything and whatever leaves
these handlers alone keep it so.
-/

namespace LiveExpr

variable {handler : Nat → String → Handler}

namespace World

/-! ## Leaving handlers alone -/

/-- From one world to another without touching what is registered through `handler`. -/
structure Outside (handler : Nat → String → Handler) (w w' : World) : Prop where
  capable : ∀ id, w'.capable id = w.capable id
  keyed : ∀ id, (w.notifier id).Keyed → (w'.notifier id).Keyed
  handlers : ∀ id key node member, (key, handler node member) ∈ (w'.notifier id).handlers ↔
    (key, handler node member) ∈ (w.notifier id).handlers

theorem Outside.refl (w : World) : Outside handler w w :=
  ⟨fun _ => rfl, fun _ h => h, fun _ _ _ _ => .rfl⟩

theorem Outside.trans {w w' w'' : World} (a : Outside handler w w') (b : Outside handler w' w'') :
    Outside handler w w'' :=
  ⟨fun id => (b.capable id).trans (a.capable id), fun id h => b.keyed id (a.keyed id h),
    fun id k n m => (b.handlers id k n m).trans (a.handlers id k n m)⟩

theorem Outside.ofNotifiers {w w' : World} (hc : ∀ id, w'.capable id = w.capable id)
    (hn : ∀ id, w'.notifier id = w.notifier id) : Outside handler w w' :=
  ⟨hc, fun id h => by rwa [hn], fun id _ _ _ => by rw [hn]⟩

theorem Outside.note (n : Notice) (w : World) : Outside handler w (w.note n) :=
  .ofNotifiers (fun _ => rfl) fun _ => rfl

/-! ## The subscriptions of one graph -/

/-- From one world to another by subscriptions through `handler` and by reports alone. Keys given out
meanwhile are new. -/
structure Resubscribed (handler : Nat → String → Handler) (w w' : World) : Prop where
  heap : SameHeap w w'
  rest : w' = { w with objects := w'.objects, log := w'.log }
  others : ∀ id key x, (∀ node member, x ≠ handler node member) →
    ((key, x) ∈ (w'.notifier id).handlers ↔ (key, x) ∈ (w.notifier id).handlers)
  nextKey : ∀ id, (w.notifier id).nextKey ≤ (w'.notifier id).nextKey
  old : ∀ id, ∀ x ∈ (w'.notifier id).handlers, x.1 < (w.notifier id).nextKey →
    x ∈ (w.notifier id).handlers
  ignored : ∀ r, .ignored r ∈ w'.log → .ignored r ∈ w.log

theorem Resubscribed.refl (w : World) : Resubscribed handler w w :=
  ⟨.refl w, rfl, fun _ _ _ _ => .rfl, fun _ => Nat.le_refl _, fun _ _ hx _ => hx, fun _ hr => hr⟩

theorem Resubscribed.trans {w w' w'' : World} (a : Resubscribed handler w w')
    (b : Resubscribed handler w' w'') : Resubscribed handler w w'' where
  heap := a.heap.trans b.heap
  rest := by
    have ha := a.rest
    have hb := b.rest
    rw [ha] at hb
    exact hb
  others id key x hx := (b.others id key x hx).trans (a.others id key x hx)
  nextKey id := Nat.le_trans (a.nextKey id) (b.nextKey id)
  old id x hx hlt := a.old id x (b.old id x hx (Nat.lt_of_lt_of_le hlt (a.nextKey id))) hlt
  ignored r hr := a.ignored r (b.ignored r hr)

theorem Resubscribed.fields {w w' : World} (h : Resubscribed handler w w') :
    w'.cells = w.cells ∧ w'.bindings = w.bindings ∧ w'.reactions = w.reactions ∧
      w'.exhausted = w.exhausted := by
  rw [h.rest]
  exact ⟨rfl, rfl, rfl, rfl⟩

theorem Resubscribed.note (n : Notice) (hn : ∀ r, n ≠ .ignored r) (w : World) :
    Resubscribed handler w (w.note n) := by
  refine ⟨.ofObjects rfl, rfl, fun _ _ _ _ => .rfl, fun _ => Nat.le_refl _, fun _ _ hx _ => hx, ?_⟩
  intro r hr
  rcases List.mem_append.mp hr with hr | hr
  · exact hr
  · exact absurd (List.mem_singleton.mp hr).symm (hn r)

theorem Resubscribed.unwatch {w : World} {watch : Watch} {node : Nat} {member : String}
    (hk : (w.notifier watch.object).Keyed)
    (hown : (watch.key, handler node member) ∈ (w.notifier watch.object).handlers) :
    Resubscribed handler w (w.unwatch watch) where
  heap := unwatch_sameHeap watch w
  rest := rfl
  others id key x hx := by
    rw [mem_unwatch]
    refine ⟨And.left, fun h => ⟨h, ?_⟩⟩
    rintro ⟨rfl, rfl⟩
    exact hx node member (hk.unique h hown)
  nextKey id := Nat.le_of_eq (nextKey_unwatch watch w id).symm
  old id x hx _ := (mem_unwatch.mp hx).1
  ignored _ hr := hr

theorem Resubscribed.subscribe {w : World} {id : Nat} (hc : w.capable id = true) (node : Nat)
    (member : String) : Resubscribed handler w (w.subscribe id (handler node member)).2 where
  heap := subscribe_sameHeap id _ w
  rest := by rw [subscribe_of_capable hc]; rfl
  others i key x hx := by
    rw [mem_subscribe hc]
    refine ⟨fun h => h.resolve_right ?_, .inl⟩
    rintro ⟨-, heq⟩
    exact hx node member (Prod.mk.inj heq).2
  nextKey i := by
    rw [notifier_subscribe hc]
    split
    · subst i
      exact Nat.le_succ _
    · exact Nat.le_refl _
  old i x hx hlt := by
    refine ((mem_subscribe hc).mp hx).resolve_right ?_
    rintro ⟨rfl, rfl⟩
    exact Nat.lt_irrefl _ hlt
  ignored r hr := by
    rw [subscribe_of_capable hc] at hr
    exact hr

end World

namespace Live

/-- What is registered through `handler` is what the nodes hold. -/
structure Hooked (handler : Nat → String → Handler) (l : Live) (w : World) : Prop where
  keyed : ∀ id, (w.notifier id).Keyed
  size : l.watches.size = l.graph.size
  unobserved : ∀ node, l.observedMember? node = none → l.watchAt node = none
  hooks : ∀ id key node member, (key, handler node member) ∈ (w.notifier id).handlers ↔
    l.watchAt node = some ⟨id, key⟩ ∧ l.observedMember? node = some member

/-- The object that a node has to follow: the one it reads, if that announces changes. -/
def followed (capable : Nat → Bool) (l : Live) (node : Nat) : Option Nat :=
  if (l.observedMember? node).isSome then ((l.watchTarget node).map (·.id)).filter capable else none

/-- The node holds a subscription on the object that it has to follow, and on no other. -/
def Following (capable : Nat → Bool) (l : Live) (node : Nat) : Prop :=
  (l.watchAt node).map (·.object) = l.followed capable node

theorem Hooked.outside {l : Live} {w w' : World} (hl : l.Hooked handler w)
    (hw : World.Outside handler w w') : l.Hooked handler w' :=
  ⟨fun id => hw.keyed id (hl.keyed id), hl.size, hl.unobserved,
    fun id key node member => (hw.handlers id key node member).trans (hl.hooks id key node member)⟩

theorem Hooked.ofSameWatches {l l' : Live} {w : World} (hl : l.Hooked handler w)
    (hg : l'.graph = l.graph) (hw : l'.watches = l.watches) : l'.Hooked handler w where
  keyed := hl.keyed
  size := by rw [hw, hg, hl.size]
  unobserved node hnode := by
    rw [observedMember?_of_graph hg] at hnode
    rw [watchAt, hw]
    exact hl.unobserved node hnode
  hooks id key node member := by
    rw [observedMember?_of_graph hg, watchAt, hw]
    exact hl.hooks id key node member

theorem watchTarget_congr {l l' : Live} {node : Nat} (hb : l'.bound = l.bound)
    (ho : l'.operand node 0 = l.operand node 0) : l'.watchTarget node = l.watchTarget node := by
  rw [watchTarget, watchTarget, hb, ho]

theorem SameAt.following {capable : Nat → Bool} {l l' : Live} {node : Nat} (hs : SameAt l l' node)
    (hg : l'.graph = l.graph) (hb : l'.bound = l.bound) :
    l'.Following capable node ↔ l.Following capable node := by
  rw [Following, Following, followed, followed, hs.watch, observedMember?_of_graph hg,
    watchTarget_congr hb (hs.operand hg 0)]

/-! ## Following a target -/

variable {d : Dispatcher}

section

variable {l : Live} {w : World} (hl : l.Hooked handler w) {node : Nat} {member : String}
  (hm : l.observedMember? node = some member) (x : Option Watch)

include hl

theorem Hooked.size_setWatch : (l.setWatch node x).watches.size = l.graph.size :=
  Array.size_setIfInBounds.trans hl.size

include hm

theorem Hooked.watchAt_setWatch (j : Nat) :
    (l.setWatch node x).watchAt j = if j = node then x else l.watchAt j := by
  rw [Live.watchAt_setWatch, hl.size]
  simp only [lt_size_of_observed hm, and_true]

theorem Hooked.unobserved_setWatch (j : Nat) (hj : l.observedMember? j = none) :
    (l.setWatch node x).watchAt j = none := by
  rw [hl.watchAt_setWatch hm, if_neg, hl.unobserved j hj]
  rintro rfl
  rw [hm] at hj
  cases hj

end

/-- A node that gives up its subscription takes its own handler away and no other. -/
theorem Hooked.left (hinj : ∀ n m n' m', handler n m = handler n' m' → n = n' ∧ m = m') {l : Live}
    {w : World} (hl : l.Hooked handler w) {node : Nat} {member : String}
    (hm : l.observedMember? node = some member) :
    (l.setWatch node none).Hooked handler ((l.watchAt node).elim w (World.unwatch · w)) ∧
      World.Resubscribed handler w ((l.watchAt node).elim w (World.unwatch · w)) := by
  have hset := hl.watchAt_setWatch hm none
  have hunobserved := hl.unobserved_setWatch hm none
  have hsize : (l.setWatch node none).watches.size = l.graph.size := hl.size_setWatch none
  cases hw : l.watchAt node with
  | none =>
      refine ⟨⟨hl.keyed, hsize, hunobserved, fun id key j member' => ?_⟩, .refl w⟩
      refine (hl.hooks id key j member').trans (and_congr_left fun _ => ?_)
      rw [hset]
      split
      · subst j; rw [hw]
      · rfl
  | some watch =>
      have hown := (hl.hooks watch.object watch.key node member).mpr ⟨hw, hm⟩
      refine ⟨⟨fun id => World.keyed_unwatch (hl.keyed id) watch, hsize, hunobserved,
        fun id key j member' => ?_⟩, .unwatch (hl.keyed _) hown⟩
      simp only [Option.elim_some]
      rw [World.mem_unwatch, hl.hooks, hset]
      change _ ↔ _ ∧ l.observedMember? j = some member'
      by_cases hj : j = node
      · subst hj
        rw [hw, if_pos rfl]
        constructor
        · rintro ⟨⟨hsome, -⟩, hne⟩
          cases hsome
          exact absurd ⟨rfl, rfl⟩ hne
        · rintro ⟨hnone, -⟩
          cases hnone
      · rw [if_neg hj]
        refine ⟨And.left, fun h => ⟨h, ?_⟩⟩
        -- the key on that object is in use by `node`, and another node has another one
        rintro ⟨rfl, rfl⟩
        have hother := (hl.hooks watch.object watch.key j member').mpr h
        exact hj (hinj _ _ _ _ ((hl.keyed _).unique hother hown)).1

/-- A node that subscribes is registered under a key that nobody has had. -/
theorem Hooked.joined (hinj : ∀ n m n' m', handler n m = handler n' m' → n = n' ∧ m = m') {l : Live}
    {w : World} (hl : l.Hooked handler w) {node : Nat} {member : String}
    (hm : l.observedMember? node = some member) (hfree : l.watchAt node = none) (id : Nat) :
    let t := w.subscribe id (handler node member)
    (l.setWatch node (t.1.map (⟨id, ·⟩))).Hooked handler t.2 ∧ World.Resubscribed handler w t.2 ∧
      t.1.isSome = w.capable id := by
  intro t
  have hset := hl.watchAt_setWatch hm
  have hunobserved := hl.unobserved_setWatch hm
  have hsize : ∀ x, (l.setWatch node x).watches.size = l.graph.size := hl.size_setWatch
  cases hc : w.capable id with
  | false =>
      have ht : t = (none, w) := World.subscribe_of_not_capable hc _
      rw [ht]
      refine ⟨⟨hl.keyed, hsize _, hunobserved _, fun i key j member' => ?_⟩, .refl w, rfl⟩
      refine (hl.hooks i key j member').trans (and_congr_left fun _ => ?_)
      rw [hset]
      split
      · subst j; rw [hfree]; rfl
      · rfl
  | true =>
      have hkey : t.1 = some (w.notifier id).nextKey := by
        rw [show t = _ from World.subscribe_of_capable hc _]
      refine ⟨⟨World.keyed_subscribe hc _ hl.keyed, hsize _, hunobserved _,
        fun i key j member' => ?_⟩, .subscribe hc node member, by rw [hkey]; rfl⟩
      rw [World.mem_subscribe hc, hl.hooks, hkey, hset]
      change _ ↔ _ ∧ l.observedMember? j = some member'
      by_cases hj : j = node
      · subst hj
        rw [hfree, if_pos rfl, hm]
        constructor
        · rintro (⟨hnone, -⟩ | ⟨rfl, heq⟩)
          · cases hnone
          · obtain ⟨rfl, hhandler⟩ := Prod.mk.inj heq
            obtain ⟨-, rfl⟩ := hinj _ _ _ _ hhandler
            exact ⟨rfl, rfl⟩
        · rintro ⟨hsome, hmember⟩
          cases hsome
          cases hmember
          exact .inr ⟨rfl, rfl⟩
      · rw [if_neg hj]
        refine ⟨fun h => h.resolve_right ?_, .inl⟩
        rintro ⟨-, heq⟩
        exact hj (hinj _ _ _ _ (Prod.mk.inj heq).2).1

theorem setWatch_setWatch (l : Live) (id : Nat) (x y : Option Watch) :
    (l.setWatch id x).setWatch id y = l.setWatch id y := by
  rw [setWatch, setWatch, setWatch, Array.setIfInBounds_setIfInBounds]

theorem Rewatched.hooked (hinj : ∀ n m n' m', handler n m = handler n' m' → n = n' ∧ m = m')
    {node : Nat} {l l' : Live} {w w' : World}
    (hr : Rewatched (World.host d handler) node l w l' w') (hl : l.Hooked handler w) :
    l'.Hooked handler w' ∧ l'.Following w.capable node ∧ World.Resubscribed handler w w' := by
  cases hr with
  | unobserved hm =>
      refine ⟨hl, ?_, .refl w⟩
      rw [Following, hl.unobserved node hm, followed, hm]
      rfl
  | @kept member watch r hm hw ht hobject =>
      refine ⟨hl, ?_, .refl w⟩
      have hcapable := World.capable_of_mem ((hl.hooks watch.object watch.key node member).mpr ⟨hw, hm⟩)
      rw [hobject] at hcapable
      simp [Following, followed, hm, hw, ht, hobject, Option.filter, hcapable]
  | @left member hm ht =>
      obtain ⟨hleft, hresub⟩ := hl.left hinj hm
      refine ⟨hleft, ?_, hresub⟩
      have ht' : (l.setWatch node none).watchTarget node = none := ht
      have hw' : (l.setWatch node none).watchAt node = none := by
        rw [hl.watchAt_setWatch hm, if_pos rfl]
      rw [Following, hw', followed, ht']
      simp
  | @moved member r key _ hm ht _ hwatch =>
      obtain ⟨hleft, hresub⟩ := hl.left hinj hm
      have hfree : (l.setWatch node none).watchAt node = none := by
        rw [hl.watchAt_setWatch hm, if_pos rfl]
      have hm₀ : (l.setWatch node none).observedMember? node = some member := hm
      obtain ⟨hjoined, hresub', hsome⟩ := hleft.joined hinj hm₀ hfree r.id
      have heq : ((l.watchAt node).elim w (World.unwatch · w)).subscribe r.id (handler node member) =
          (key, w') := hwatch
      rw [heq, setWatch_setWatch] at hjoined
      rw [heq] at hresub' hsome
      refine ⟨hjoined, ?_, hresub.trans hresub'⟩
      rw [hresub.heap.capable] at hsome
      have hw' : (l.setWatch node (key.map (⟨r.id, ·⟩))).watchAt node = key.map (⟨r.id, ·⟩) := by
        rw [hl.watchAt_setWatch hm, if_pos rfl]
      have hm' : (l.setWatch node (key.map (⟨r.id, ·⟩))).observedMember? node = some member := hm
      have ht' : (l.setWatch node (key.map (⟨r.id, ·⟩))).watchTarget node = some r := ht
      rw [Following, hw', followed, hm', ht']
      cases key with
      | none => simp [Option.filter, show w.capable r.id = false from hsome.symm]
      | some k => simp [Option.filter, show w.capable r.id = true from hsome.symm]

end Live

/-! ## Releasing everything -/

namespace World

def release (watches : List (Option Watch)) (w : World) : World :=
  watches.foldl (fun w watch => watch.elim w (unwatch · w)) w

theorem mem_release {watches : List (Option Watch)} {w : World} {id : Nat} {x : Nat × Handler} :
    x ∈ ((w.release watches).notifier id).handlers ↔
      x ∈ (w.notifier id).handlers ∧ some ⟨id, x.1⟩ ∉ watches := by
  induction watches generalizing w with
  | nil => simp [release]
  | cons watch rest ih =>
      rw [release, List.foldl_cons]
      change x ∈ ((release rest _).notifier id).handlers ↔ _
      rw [ih, List.mem_cons]
      cases watch with
      | none => simp
      | some watch =>
          have hwatch : (some (⟨id, x.1⟩ : Watch) = some watch) ↔ id = watch.object ∧ x.1 = watch.key := by
            cases watch
            simp
          rw [Option.elim_some, mem_unwatch, hwatch]
          tauto

theorem release_keeps {watches : List (Option Watch)} {w : World} :
    SameHeap w (w.release watches) ∧
      w.release watches = { w with objects := (w.release watches).objects } ∧
      ∀ id, ((w.release watches).notifier id).nextKey = (w.notifier id).nextKey ∧
        ((w.notifier id).Keyed → ((w.release watches).notifier id).Keyed) := by
  induction watches generalizing w with
  | nil => exact ⟨.refl w, rfl, fun _ => ⟨rfl, fun h => h⟩⟩
  | cons watch rest ih =>
      cases watch with
      | none => exact ih
      | some watch =>
          obtain ⟨hheap, hrest, hkeys⟩ := @ih (w.unwatch watch)
          refine ⟨(unwatch_sameHeap watch w).trans hheap, hrest, fun id => ?_⟩
          obtain ⟨hnext, hkeyed⟩ := hkeys id
          exact ⟨hnext.trans (nextKey_unwatch watch w id),
            fun hk => hkeyed (keyed_unwatch hk watch)⟩

end World

namespace Live

theorem releaseWatches_eq (d : Dispatcher) (l : Live) (w : World) :
    l.releaseWatches (World.host d handler) w = (l.unwatched, w.release l.watches.toList) := rfl

theorem mem_watches {l : Live} {node : Nat} {watch : Watch} (hw : l.watchAt node = some watch) :
    some watch ∈ l.watches.toList := by
  rw [watchAt, Array.getD_eq_getD_getElem?] at hw
  cases hn : l.watches[node]? with
  | none => simp [hn] at hw
  | some x =>
      rw [hn, Option.getD_some] at hw
      subst hw
      exact Array.mem_toList_iff.mpr (Array.mem_of_getElem? hn)

/-- Nothing is registered any more, and the handlers of others are all there. -/
theorem Hooked.released {l : Live} {w : World} (hl : l.Hooked handler w) :
    l.unwatched.Hooked handler (w.release l.watches.toList) ∧
      World.Resubscribed handler w (w.release l.watches.toList) := by
  obtain ⟨hheap, hrest, hkeys⟩ := @World.release_keeps l.watches.toList w
  refine ⟨⟨fun id => (hkeys id).2 (hl.keyed id), Array.size_map.trans hl.size,
      fun node _ => watchAt_unwatched l node, fun id key node member => ?_⟩,
    ⟨hheap, ?_, fun id key x hx => ?_, fun id => Nat.le_of_eq (hkeys id).1.symm,
      fun id x hx _ => (World.mem_release.mp hx).1, fun r hr => ?_⟩⟩
  · rw [World.mem_release, hl.hooks, watchAt_unwatched]
    constructor
    · rintro ⟨⟨hw, -⟩, hkept⟩
      exact absurd (mem_watches hw) hkept
    · rintro ⟨hnone, -⟩
      cases hnone
  · rw [hrest]
  · rw [World.mem_release]
    refine ⟨And.left, fun hmem => ⟨hmem, fun hin => ?_⟩⟩
    -- a key that one of the nodes holds belongs to a handler of the graph
    obtain ⟨node, hnode⟩ := List.getElem?_of_mem hin
    have hw : l.watchAt node = some ⟨id, key⟩ := by
      rw [watchAt, Array.getD_eq_getD_getElem?, ← Array.getElem?_toList, hnode]
      rfl
    cases hm : l.observedMember? node with
    | none =>
        rw [hl.unobserved node hm] at hw
        cases hw
    | some member =>
        have hown := (hl.hooks id key node member).mpr ⟨hw, hm⟩
        exact hx node member ((hl.keyed id).unique hmem hown)
  · rw [hrest] at hr
    exact hr

end Live

end LiveExpr
