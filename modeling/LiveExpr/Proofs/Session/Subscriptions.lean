import LiveExpr.Proofs.Session.Hooks
import LiveExpr.Proofs.Session.Reading
import LiveExpr.Session.Perform

/-!
The subscriptions of a binding, in every state that it can come to: none while it is unbound, and
while it is bound just those on the objects that its observing member accesses read.
-/

namespace LiveExpr

variable {d : Dispatcher} {handler : Nat → String → Handler} {safe : World → Prop}

namespace World

/-- In the worlds that are `safe`, and stay so, reading a member may have any effect but one on what
is registered through `handler`. -/
structure Discreet (d : Dispatcher) (handler : Nat → String → Handler) (safe : World → Prop) :
    Prop where
  access : ∀ member v {w}, safe w →
    Outside handler w (w.access d member v).2 ∧ safe (w.access d member v).2
  resubscribed : ∀ {w w'}, safe w → Resubscribed handler w w' → safe w'

theorem discreet_of_quiet (d : Dispatcher) (handler : Nat → String → Handler) :
    Discreet d handler Quiet where
  access member v w hw := by
    rw [access_of_quiet hw]
    exact ⟨.refl w, hw⟩
  resubscribed hw hr := hr.heap.quiet hw

theorem Discreet.evaluate (hd : Discreet d handler safe) (l : Live) (id : Nat) {w : World}
    (hw : safe w) : Outside handler w (l.evaluate (host d handler) id w).2 ∧
      safe (l.evaluate (host d handler) id w).2 := by
  unfold Live.evaluate
  cases l.graph.nodes[id]? with
  | none => exact ⟨.refl w, hw⟩
  | some n =>
      simp only
      cases n.kind with
      | memberAccess _ reads _ =>
          simp only
          cases Result.object? (l.operand id 0) with
          | none => exact ⟨.refl w, hw⟩
          | some target => exact hd.access reads target hw
      | _ => exact ⟨.refl w, hw⟩

end World

namespace Live

variable {l l' : Live} {w w' : World}

/-! ## One node, and a propagation -/

/-- What is registered agrees with what is held, in a safe world with the given capabilities. -/
structure Kept (handler : Nat → String → Handler) (safe : World → Prop) (capable : Nat → Bool)
    (l : Live) (w : World) : Prop where
  hooked : l.Hooked handler w
  safe : safe w
  capable : ∀ id, w.capable id = capable id

variable {capable : Nat → Bool}

theorem Kept.resubscribed (hd : World.Discreet d handler safe) (hk : l.Kept handler safe capable w)
    (hl : l'.Hooked handler w') (hr : World.Resubscribed handler w w') :
    l'.Kept handler safe capable w' :=
  ⟨hl, hd.resubscribed hk.safe hr, fun id => (hr.heap.capable id).trans (hk.capable id)⟩

theorem Kept.outside (hk : l.Kept handler safe capable w) (ho : World.Outside handler w w')
    (hw : safe w') : l.Kept handler safe capable w' :=
  ⟨hk.hooked.outside ho, hw, fun id => (ho.capable id).trans (hk.capable id)⟩

theorem Kept.ofSameWatches (hk : l.Kept handler safe capable w) (hg : l'.graph = l.graph)
    (hw : l'.watches = l.watches) : l'.Kept handler safe capable w :=
  ⟨hk.hooked.ofSameWatches hg hw, hk.safe, hk.capable⟩

theorem Kept.note (hd : World.Discreet d handler safe) (hk : l.Kept handler safe capable w)
    (n : Notice) (hn : ∀ r, n ≠ .ignored r) : l.Kept handler safe capable (w.note n) :=
  hk.resubscribed hd (hk.hooked.outside (.note n w)) (.note n hn w)

theorem Accepted.kept (hd : World.Discreet d handler safe) {id : Nat} {r : Result} {changed : Bool}
    (ha : Accepted (World.host d handler) id r l w changed l' w')
    (hk : l.Kept handler safe capable w) : l'.Kept handler safe capable w' := by
  cases ha with
  | same => exact hk.note hd _ nofun
  | new =>
      have hk' : (l.setResult id r).Kept handler safe capable w := hk.ofSameWatches rfl rfl
      exact hk'.note hd _ nofun

/-- Storing its own result does not change what a node has to follow, as it does not read itself. -/
theorem Accepted.following {σ : Type} {h : Host σ} {id : Nat} {r : Result} {s s' : σ} {changed : Bool}
    (ha : Accepted h id r l s changed l' s') (hf : l.Following capable id) :
    l'.Following capable id := by
  cases ha with
  | same => exact hf
  | new =>
      have htarget : (l.setResult id r).watchTarget id = l.watchTarget id :=
        watchTarget_congr rfl (operand_setResult_self l id 0 r)
      have hmember : (l.setResult id r).observedMember? id = l.observedMember? id := rfl
      rw [Following, followed, hmember, htarget]
      exact hf

/-- A recomputed node follows its target, whatever reading has done meanwhile. -/
theorem Recomputed.hooked (hinj : ∀ n m n' m', handler n m = handler n' m' → n = n' ∧ m = m')
    (hd : World.Discreet d handler safe) {node : Nat} {changed : Bool}
    (hr : Recomputed (World.host d handler) node l w changed l' w')
    (hk : l.Kept handler safe capable w) :
    l'.Kept handler safe capable w' ∧ l'.Following capable node := by
  cases hr with
  | @mk l₁ _ w₁ w₂ _ r _ hw he ha =>
      obtain ⟨hhooked, hfollowing, hresub⟩ := hw.hooked hinj hk.hooked
      have hk₁ := hk.resubscribed hd hhooked hresub
      obtain ⟨houtside, hsafe⟩ := hd.evaluate l₁ node hk₁.safe
      rw [he] at houtside hsafe
      have hk₂ := hk₁.outside houtside hsafe
      refine ⟨ha.kept hd hk₂, ha.following ?_⟩
      rwa [show capable = w.capable from funext fun id => (hk.capable id).symm]

theorem propagate_hooked (hinj : ∀ n m n' m', handler n m = handler n' m' → n = n' ∧ m = m')
    (hd : World.Discreet d handler safe) (dirty : List Nat) (hk : l.Kept handler safe capable w) :
    let t := l.propagate (World.host d handler) dirty w
    t.1.Kept handler safe capable t.2 ∧ SameFrame l t.1 ∧
      ∀ j, t.1.Following capable j ∨ (SameAt l t.1 j ∧ j ∉ dirty) :=
  propagate_visits (fun m u => m.Kept handler safe capable u) (fun m _ j => m.Following capable j)
    (fun hI hr => hr.hooked hinj hd hI)
    (fun _ hr hj hf => (hj.following hr.frame.graph hr.frame.bound).mpr hf) dirty hk

/-! ## Requests -/

/-- Besides, every node follows the object that it reads. -/
structure Tracked (handler : Nat → String → Handler) (safe : World → Prop) (cap : Nat → Bool)
    (l : Live) (w : World) : Prop extends Kept handler safe cap l w where
  following : ∀ node, l.Following cap node

theorem following_of_sameLedger (hl : SameLedger l l') (hf : ∀ j, l.Following capable j) (j : Nat) :
    l'.Following capable j :=
  ((hl.sameAt j).following hl.graph hl.bound).mpr (hf j)

theorem Tracked.ofSameLedger (hk : l.Tracked handler safe capable w) (hl : SameLedger l l') :
    l'.Tracked handler safe capable w :=
  ⟨hk.toKept.ofSameWatches hl.graph hl.watches, following_of_sameLedger hl hk.following⟩

theorem following_of_unobserved (hk : l.Hooked handler w) {j : Nat}
    (hm : l.observedMember? j = none) : l.Following capable j := by
  rw [Following, hk.unobserved j hm, followed, hm]
  rfl

theorem following_of_unbound (hb : l.bound = false) {j : Nat} (hw : l.watchAt j = none) :
    l.Following capable j := by
  have htarget : l.watchTarget j = none := by rw [watchTarget, hb]
  rw [Following, hw, followed, htarget]
  split <;> rfl

section

variable (hinj : ∀ n m n' m', handler n m = handler n' m' → n = n' ∧ m = m')
  (hd : World.Discreet d handler safe)

include hinj hd

/-- Binding recomputes whatever follows changes, so that the subscriptions held before do not
matter. -/
theorem Kept.bind (hk : l.Kept handler safe capable w) (v : Value) :
    (l.bind (World.host d handler) v w).1.Tracked handler safe capable
      (l.bind (World.host d handler) v w).2 := by
  have hstart : (l.withParameter true (some v)).Kept handler safe capable (w.note (.binding v)) :=
    (hk.note hd (.binding v) nofun).ofSameWatches rfl rfl
  obtain ⟨hk', hframe, hall⟩ := propagate_hooked hinj hd l.bindAgenda hstart
  rw [bind_eq]
  refine Tracked.ofSameLedger ⟨hk', fun j => ?_⟩ (settleRoot_sameLedger _ _)
  rcases hall j with hj | ⟨-, hclean⟩
  · exact hj
  · refine following_of_unobserved hk'.hooked (Option.eq_none_iff_forall_ne_some.mpr ?_)
    intro member hm
    rw [observedMember?_of_graph hframe.graph] at hm
    exact hclean (mem_bindAgenda_of_observed (l := l) hm)

theorem Kept.unbind (hk : l.Kept handler safe capable w) :
    (l.unbind (World.host d handler) w).1.Tracked handler safe capable
      (l.unbind (World.host d handler) w).2 := by
  rw [unbind_eq]
  simp only [releaseWatches_eq]
  have hnoted : l.Kept handler safe capable
      (if l.bound then (World.host d handler).note (.unbinding l.watchCount) w else w) := by
    split
    · exact hk.note hd _ nofun
    · exact hk
  obtain ⟨hreleased, hresub⟩ := hnoted.hooked.released
  have hstart : (l.unwatched.withParameter false none).Kept handler safe capable _ :=
    (hnoted.resubscribed hd hreleased hresub).ofSameWatches rfl rfl
  obtain ⟨hk', hframe, hall⟩ := propagate_hooked hinj hd (l.graph.readersOf l.parameter) hstart
  refine Tracked.ofSameLedger ⟨hk', fun j => ?_⟩ (settleRoot_sameLedger _ _)
  rcases hall j with hj | ⟨hsame, -⟩
  · exact hj
  · refine (hsame.following hframe.graph hframe.bound).mpr (following_of_unbound rfl ?_)
    exact watchAt_unwatched l j

theorem Tracked.memberChanged (hk : l.Tracked handler safe capable w) (node : Nat) :
    (l.memberChanged (World.host d handler) node w).1.Tracked handler safe capable
      (l.memberChanged (World.host d handler) node w).2 := by
  cases hb : l.bound with
  | false =>
      rw [memberChanged_unbound _ node hb]
      exact hk
  | true =>
      rw [memberChanged_eq _ node hb]
      obtain ⟨hk', hframe, hall⟩ := propagate_hooked hinj hd [node] hk.toKept
      refine Tracked.ofSameLedger ⟨hk', fun j => ?_⟩ (settleRoot_sameLedger _ _)
      rcases hall j with hj | ⟨hsame, -⟩
      · exact hj
      · exact (hsame.following hframe.graph hframe.bound).mpr (hk.following j)

omit hinj

theorem adopt_tracked {e : Lambda} {p : Prototype} (hp : e.compile = .ok p) (mode : BindingMode)
    (hw : safe w) (hkeyed : ∀ id, (w.notifier id).Keyed)
    (hnone : ∀ id key node member, (key, handler node member) ∉ (w.notifier id).handlers) :
    (adopt (World.host d handler) p mode w).1.Tracked handler safe w.capable
      (adopt (World.host d handler) p mode w).2 := by
  have hfresh := adopt_fresh hp (World.host d handler) mode w
  obtain ⟨⟨houtside, hsafe⟩, -⟩ := foldl_store_visits (h := World.host d handler)
    (fun _ u => World.Outside handler w u ∧ safe u) (fun _ _ => True)
    (fun {id m u} hu => by
      obtain ⟨ho, hs⟩ := hd.evaluate m id hu.2
      exact ⟨⟨hu.1.trans ho, hs⟩, trivial⟩)
    (fun _ _ _ => trivial) (copy p mode).1
    (w.note (.cloned (copy p mode).2 mode))
    ⟨.note _ w, hd.resubscribed hw (.note (.cloned (copy p mode).2 mode) nofun w)⟩
    (copy p mode).1.graph.size
  refine ⟨⟨⟨?_, hfresh.watches, fun j _ => hfresh.unwatched j, ?_⟩, hsafe, houtside.capable⟩,
    fun j => following_of_unbound hfresh.bound (hfresh.unwatched j)⟩
  · exact fun id => houtside.keyed id (hkeyed id)
  · intro id key node member
    rw [hfresh.unwatched node]
    refine ⟨fun hmem => absurd ((houtside.handlers id key node member).mp hmem) ?_, fun h => ?_⟩
    · exact hnone id key node member
    · cases h.1

end

/-! ## Whatever happens -/

/-- What can become of a graph and of the world around it. Between requests the world may change in
any way that leaves alone what is registered through `handler`. -/
inductive Driven (d : Dispatcher) (handler : Nat → String → Handler) (safe : World → Prop)
    (p : Prototype) (mode : BindingMode) : Live → World → Prop
  | adopt {w : World} : safe w → (∀ id, (w.notifier id).Keyed) →
      (∀ id key node member, (key, handler node member) ∉ (w.notifier id).handlers) →
      Driven d handler safe p mode (adopt (World.host d handler) p mode w).1
        (adopt (World.host d handler) p mode w).2
  | bind {l : Live} {w : World} (v : Value) : Driven d handler safe p mode l w →
      Driven d handler safe p mode (l.bind (World.host d handler) v w).1
        (l.bind (World.host d handler) v w).2
  | unbind {l : Live} {w : World} : Driven d handler safe p mode l w →
      Driven d handler safe p mode (l.unbind (World.host d handler) w).1
        (l.unbind (World.host d handler) w).2
  | memberChanged {l : Live} {w : World} (node : Nat) : Driven d handler safe p mode l w →
      Driven d handler safe p mode (l.memberChanged (World.host d handler) node w).1
        (l.memberChanged (World.host d handler) node w).2
  | takePending {l : Live} {w : World} : Driven d handler safe p mode l w →
      Driven d handler safe p mode l.takePending.2 w
  | outside {l : Live} {w w' : World} : Driven d handler safe p mode l w →
      World.Outside handler w w' → safe w' → Driven d handler safe p mode l w'

variable {p : Prototype} {mode : BindingMode}

theorem Driven.reached (hl : Driven d handler safe p mode l w) :
    Reached (World.host d handler) p mode l := by
  induction hl with
  | adopt => exact .adopt _
  | bind v _ ih => exact .bind v _ ih
  | unbind _ ih => exact .unbind _ ih
  | memberChanged node _ ih => exact .memberChanged node _ ih
  | takePending _ ih => exact .takePending ih
  | outside _ _ _ ih => exact ih

theorem Driven.tracked (hinj : ∀ n m n' m', handler n m = handler n' m' → n = n' ∧ m = m')
    (hd : World.Discreet d handler safe) {e : Lambda} (hp : e.compile = .ok p)
    (hl : Driven d handler safe p mode l w) :
    ∃ capable, l.Tracked handler safe capable w := by
  induction hl with
  | adopt hw hkeyed hnone => exact ⟨_, adopt_tracked hd hp mode hw hkeyed hnone⟩
  | bind v _ ih =>
      obtain ⟨capable, ih⟩ := ih
      exact ⟨capable, ih.toKept.bind hinj hd v⟩
  | unbind _ ih =>
      obtain ⟨capable, ih⟩ := ih
      exact ⟨capable, ih.toKept.unbind hinj hd⟩
  | memberChanged node _ ih =>
      obtain ⟨capable, ih⟩ := ih
      exact ⟨capable, ih.memberChanged hinj hd node⟩
  | takePending _ ih =>
      obtain ⟨capable, ih⟩ := ih
      exact ⟨capable, ih.ofSameLedger ⟨rfl, rfl, rfl, rfl, rfl, rfl, rfl⟩⟩
  | outside _ ho hw ih =>
      obtain ⟨capable, ih⟩ := ih
      exact ⟨capable, ih.toKept.outside ho hw, ih.following⟩

theorem CopyOf.unobserved_of_oneTime (hl : CopyOf p l) (hm : l.mode = .oneTime) (node : Nat) :
    l.observedMember? node = none := by
  rw [observedMember?, hl.nodes, Array.getElem?_map, hm]
  cases p.graph.nodes[node]? with
  | none => rfl
  | some n => cases hk : n.kind <;> simp [Node.adapt, BindingMode.adapt, NodeKind.oneTime, hk]

theorem following_iff {node : Nat} (hf : l.Following capable node) (o : Nat) :
    (∃ key, l.watchAt node = some ⟨o, key⟩) ↔
      l.bound = true ∧ (l.observedMember? node).isSome ∧ capable o = true ∧
        ∃ r, l.operand node 0 = some (.object r) ∧ r.id = o := by
  have hwatch : (∃ key, l.watchAt node = some ⟨o, key⟩) ↔ l.followed capable node = some o := by
    rw [← hf, Option.map_eq_some_iff]
    constructor
    · rintro ⟨key, hkey⟩
      exact ⟨_, hkey, rfl⟩
    · rintro ⟨⟨o', key⟩, hkey, rfl⟩
      exact ⟨key, hkey⟩
  have htarget : ∀ r, l.watchTarget node = some r ↔
      l.bound = true ∧ l.operand node 0 = some (.object r) := by
    intro r
    unfold watchTarget
    split
    · rename_i hb ho
      simp [hb, ho]
    · rename_i hne
      constructor
      · intro h
        cases h
      · rintro ⟨hb, ho⟩
        exact absurd ho (hne r hb)
  rw [hwatch, followed]
  constructor
  · intro h
    split at h
    · rename_i hm
      obtain ⟨h, hcapable⟩ := Option.filter_eq_some_iff.mp h
      obtain ⟨r, hr, hid⟩ := Option.map_eq_some_iff.mp h
      obtain ⟨hb, ho⟩ := (htarget r).mp hr
      exact ⟨hb, hm, hcapable, r, ho, hid⟩
    · cases h
  · rintro ⟨hb, hm, hcapable, r, ho, rfl⟩
    rw [if_pos hm, (htarget r).mpr ⟨hb, ho⟩]
    exact Option.filter_eq_some_iff.mpr ⟨rfl, hcapable⟩

/-- Of the objects' handlers, each under a key of its own, those of a graph are exactly one for every
subscription that a node holds, and a node holds one just on the object that it reads, if it follows
changes and the object announces them. An unbound graph and a one-time copy hold none. -/
theorem Driven.subscriptions_exact
    (hinj : ∀ n m n' m', handler n m = handler n' m' → n = n' ∧ m = m')
    (hd : World.Discreet d handler safe) {e : Lambda} (hp : e.compile = .ok p)
    (hl : Driven d handler safe p mode l w) :
    (∀ o, (w.notifier o).Keyed) ∧
      (∀ o key node member, (key, handler node member) ∈ (w.notifier o).handlers ↔
        l.watchAt node = some ⟨o, key⟩ ∧ l.observedMember? node = some member) ∧
      (∀ node o, (∃ key, l.watchAt node = some ⟨o, key⟩) ↔
        l.bound = true ∧ (l.observedMember? node).isSome ∧ w.capable o = true ∧
          ∃ r, l.operand node 0 = some (.object r) ∧ r.id = o) ∧
      (l.bound = false ∨ mode = .oneTime → ∀ node, l.watchAt node = none) := by
  obtain ⟨capable, hk⟩ := hl.tracked hinj hd hp
  obtain ⟨hcopy, hmode, -⟩ := hl.reached.settled hp
  obtain rfl : w.capable = capable := funext hk.capable
  have hwatches := fun node => following_iff (hk.following node)
  refine ⟨hk.hooked.keyed, hk.hooked.hooks, hwatches, fun hidle node => ?_⟩
  refine Option.eq_none_iff_forall_ne_some.mpr fun watch hwatch => ?_
  obtain ⟨hb, hm, -⟩ := (hwatches node watch.object).mp ⟨watch.key, hwatch⟩
  rcases hidle with hidle | hidle
  · rw [hidle] at hb
    cases hb
  · rw [hcopy.unobserved_of_oneTime (hmode.trans hidle)] at hm
    cases hm

theorem subscriptions_of_bossAge :
    let t := adoptBound (World.host (World.dispatch World.callDepth) .recorder) .bossAge .live
      World.employee World.staff
    ∀ node o, (∃ key, t.1.watchAt node = some ⟨o, key⟩) ↔
      t.1.bound = true ∧ (t.1.observedMember? node).isSome ∧ t.2.capable o = true ∧
        ∃ r, t.1.operand node 0 = some (.object r) ∧ r.id = o := by
  have hempty : ∀ id, World.staff.notifier id = .empty := by
    intro id
    rcases id with _ | _ | id <;> rfl
  have hkeyed : ∀ id, (World.staff.notifier id).Keyed := by
    intro id
    rw [hempty]
    exact Notifier.keyed_empty
  have hnone : ∀ id key node member,
      (key, Handler.recorder node member) ∉ (World.staff.notifier id).handlers := by
    intro id key node member hmem
    rw [hempty] at hmem
    cases hmem
  have hadopted := @Driven.adopt (World.dispatch World.callDepth) .recorder World.Quiet .bossAge .live
    World.staff World.staff_quiet hkeyed hnone
  refine ((hadopted.bind World.employee).subscriptions_exact ?_ (World.discreet_of_quiet _ _)
    Lambda.compile_bossAge).2.2.1
  rintro n m n' m' h
  cases h
  exact ⟨rfl, rfl⟩

end Live

end LiveExpr
