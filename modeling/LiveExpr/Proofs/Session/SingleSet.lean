import LiveExpr.Proofs.Session.OrderedDelivery
import LiveExpr.Proofs.Session.Silence

/-!
One member of one object is set while callbacks do nothing. Each node that follows the member is told
of it on its own, and the result is settled each time, so that the observers of a binding may be told of
one change for each such node; what they are told last is what evaluating once gives.
-/

namespace LiveExpr

/-! ## The nodes that follow a member -/

/-- The nodes that are told when the object announces a change of the member. -/
def Live.followers (l : Live) (object : Nat) (member : String) : List Nat :=
  (List.range l.graph.size).filter fun id =>
    (l.watchAt id).any (·.object == object) && (l.observedMember? id).any (concerns (some member))

def Handler.node? : Handler → Option Nat
  | .sink _ node _ => some node
  | _ => none

theorem Live.Hooked.asking {c : Nat} {l : Live} {w : World} (hl : l.Hooked (.sink c) w) {object : Nat}
    {member : String} {x : Nat × Handler} (hx : x ∈ (w.notifier object).handlers)
    (hasks : x.2.asks c (some member) = true) :
    ∃ node ∈ l.followers object member, x.2.node? = some node ∧
      l.watchAt node = some ⟨object, x.1⟩ := by
  obtain ⟨key, h⟩ := x
  cases h with
  | sink c' node m =>
      obtain ⟨hc, hconcerns⟩ := by simpa [Handler.asks] using hasks
      subst hc
      obtain ⟨hwatch, hm⟩ := (hl.hooks object key node m).mp hx
      refine ⟨node, ?_, rfl, hwatch⟩
      simp [followers, hwatch, hm, hconcerns, lt_size_of_observed hm]
  | recorder _ _ | deaf | reaction _ => cases hasks

/-- No two handlers are of the same node. -/
theorem Live.Hooked.asking_le {c : Nat} {l : Live} {w : World} (hl : l.Hooked (.sink c) w)
    (object : Nat) (member : String) :
    (w.notifier object).handlers.countP (·.2.asks c (some member)) ≤
      (l.followers object member).length := by
  rw [List.countP_eq_length_filter]
  generalize hasked : (w.notifier object).handlers.filter (·.2.asks c (some member)) = xs
  have hmem : ∀ x ∈ xs, x ∈ (w.notifier object).handlers ∧ x.2.asks c (some member) = true :=
    fun x hx => List.mem_filter.mp (hasked ▸ hx)
  have hnodup : (xs.map (·.2.node?)).Nodup := by
    have hfilter : xs.Nodup := hasked ▸ (hl.keyed object).nodup.of_map.filter _
    refine hfilter.map_on fun x hx y hy hnode => ?_
    obtain ⟨n, -, hn, hwatch⟩ := hl.asking (hmem x hx).1 (hmem x hx).2
    obtain ⟨n', -, hn', hwatch'⟩ := hl.asking (hmem y hy).1 (hmem y hy).2
    obtain rfl : n = n' := Option.some.inj (hn.symm.trans (hnode.trans hn'))
    have hkey : x.1 = y.1 := by simpa [hwatch] using hwatch'
    exact List.inj_on_of_nodup_map (hl.keyed object).nodup (hmem x hx).1 (hmem y hy).1 hkey
  have hfollow : xs.map (·.2.node?) ⊆ (l.followers object member).map some := by
    intro node hnode
    obtain ⟨x, hx, rfl⟩ := List.mem_map.mp hnode
    obtain ⟨n, hn, hsome, -⟩ := hl.asking (hmem x hx).1 (hmem x hx).2
    simpa [hsome] using hn
  simpa using (hnodup.subperm hfollow).length_le

namespace Audience

theorem attending_nil {c : Nat} {policy : EqualityPolicy} (cell : Cell) :
    (Audience.mk c policy []).attending cell = [] :=
  List.filter_eq_nil_iff.mpr fun _ _ => by simp [includes, names]

end Audience

namespace World

variable {w w' w'' : World} {sc : Scope} {b : Subject}

/-! ## Between the calls of a run -/

theorem Runs.trans (h : Runs sc w w') (h' : Runs sc w' w'') : Runs sc w w'' := by
  induction h' with
  | refl => exact h
  | act depth _ ha ih => exact ih.act depth ha
  | clone depth mode _ hp hname ih => exact ih.clone depth mode hp hname

/-- The binding that a prototype has just been copied for has nothing to deliver. -/
theorem rests_clone {e : Lambda} {p : Prototype} {name : String} (hw : w.Orderly sc)
    (hp : e.compile = .ok p) (hname : w.bindingCell? name = none) (d : Dispatcher)
    (mode : BindingMode) :
    (Audience.mk w.cells.size (p.graph.policyOf p.body) []).Rests (w.cloneBinding d p name mode) := by
  have hfresh := Live.adopt_fresh hp (host d fun _ _ => .deaf) mode w
  have hcell : (w.cloneBinding d p name mode).cells[w.cells.size]? =
      some (.ofLive (Live.adopt (host d fun _ _ => .deaf) p mode w).1) := by
    rw [cloneBinding_eq hw.quiet hname]
    exact Array.getElem?_push_size
  exact Audience.rests_of_cell hcell (Audience.fits_fresh hfresh rfl (.refl _) 0)
    (fun _ other _ _ => Audience.attending_nil other) (fun _ _ _ x _ => x.spares_nil) rfl rfl rfl

/-- Nothing is left to be delivered when a call returns, whoever observes a binding. -/
theorem Runs.rests (hr : Runs b.scope w w') (hw : w.Orderly b.scope) (hcells : w.cells = #[]) :
    ∀ c < w'.cells.size, ∃ policy, (Audience.mk c policy []).Rests w' := by
  induction hr with
  | refl => simp [hcells]
  | @act u depth x hrun hx ih =>
      obtain ⟨hu, -⟩ := hrun.maintains hw
      intro c hc
      rw [(act_evolves depth hu hx).size] at hc
      obtain ⟨policy, hrests⟩ := ih c hc
      have hcleared := hrests.clearReports
      exact ⟨policy, hcleared.proceeds
        (Audience.perform_proceeds (Audience.dispatch_minds _ depth) hcleared.sound x.spares_nil)⟩
  | @clone u depth name e p mode hrun hp hname ih =>
      obtain ⟨hu, -⟩ := hrun.maintains hw
      intro c hc
      have hsize : (u.cloneBinding (dispatch depth) p name mode).cells.size = u.cells.size + 1 := by
        rw [cloneBinding_eq hu.quiet hname]
        exact Array.size_push _
      rcases Nat.lt_or_eq_of_le (Nat.le_of_lt_succ (hsize ▸ hc)) with hlt | rfl
      · obtain ⟨policy, hrests⟩ := ih c hlt
        exact ⟨policy, hrests.proceeds
          (Audience.cloneBinding_proceeds (Audience.dispatch_minds _ depth) hrests.sound p name mode)⟩
      · exact ⟨_, rests_clone hu hp hname (dispatch depth) mode⟩

theorem rested_of_rests (hcomplete : w.exhausted = false)
    (hw : ∀ c < w.cells.size, ∃ policy, (Audience.mk c policy []).Rests w) : w.Rested := by
  intro c cell hc
  obtain ⟨policy, hrests⟩ := hw c (Array.getElem?_eq_some_iff.mp hc).1
  have hdel := hrests.delivering
  have hout := hrests.outbox
  rw [Audience.scene_of_cell hc] at hdel hout
  exact ⟨hdel, hout ⟨hcomplete, Audience.attending_nil cell⟩, (hrests.sound.fits cell hc).pending⟩

/-! ## Setting a member -/

/-- A member that a bag has just set and announced is not stale. -/
theorem stale_of_set {object : Nat} {member : String} {v : Value} (hc : w.capable object = true)
    {id : Nat} {m : String}
    (hs : ((w.modifyObject object (·.write member v)).modifyObject object
      (·.announced (some member))).stale id m) : w.stale id m := by
  obtain ⟨o', ho', hm⟩ := hs
  rw [objects_modifyObject, objects_modifyObject] at ho'
  by_cases hid : object = id
  · subst id
    obtain ⟨o, ho, rfl⟩ : ∃ o, w.objects[object]? = some o ∧
        (o.write member v).announced (some member) = o' := by
      simpa [Option.map_eq_some_iff] using ho'
    have hn : (o.write member v).notifier.isSome = true := by
      simpa [capable, ho, HostObject.write] using hc
    rw [HostObject.announced, if_pos hn] at hm
    obtain ⟨hm, hother⟩ := by simpa [List.mem_filter, HostObject.write, concerns] using hm
    refine ⟨o, ho, ?_⟩
    split at hm
    · exact hm
    · exact (List.mem_cons.mp hm).resolve_left fun h => hother.2 h.symm
  · rw [if_neg hid, if_neg hid] at ho'
    exact ⟨o', ho', hm⟩

/-- Setting a member of a bag has cell `c` report at most one change for each handler it has there. -/
theorem set_ripples (hw : w.Orderly b.scope) (hs : w.Silent) (hr : w.Rested) (c : Nat)
    {object : Nat} {member : String} {value : Literal} {o : HostObject Handler}
    (ho : w.objects[object]? = some o) (hbag : o.kind = .bag) (hcap : w.capable object = true)
    (hset : (Action.set object member value).Within b.scope) :
    ∃ u : World,
      Ripples c ((w.notifier object).handlers.countP (·.2.asks c (some member))) u
        (w.step (.set object member value)).2 ∧
      u.cells = w.cells ∧ u.exhausted = w.exhausted ∧ ∀ id m, u.stale id m → w.stale id m := by
  cases hset with
  | set hchanges hholds =>
      have hmade := (sameState_instantiate b.scope value w.clearReports).evolves
        (clearReports_evolves hw).orderly
      have hv := hholds w.clearReports
      obtain ⟨n, hn⟩ := value.instantiate_keeps w.clearReports
      have hstep : (w.step (.set object member value)).2 =
          (value.instantiate w.clearReports).2.writeMember (dispatch callDepth) object member
            (value.instantiate w.clearReports).1 := rfl
      rw [hstep]
      generalize value.instantiate w.clearReports = t at hn hmade hv ⊢
      obtain ⟨v, u⟩ := t
      simp only at hv
      obtain rfl : u = _ := hn
      have hwritten := write_evolves hmade.orderly hchanges hv
      have hannounced := announce_ripples hwritten.orderly hs hr 999999997 c object (some member)
      rw [notifier_modifyObject _ object (f := (·.write member v)) (fun _ => rfl)] at hannounced
      simp only [writeMember, clearReports, ho, hbag]
      exact ⟨_, hannounced, rfl, rfl, fun id m hstale => stale_of_set (v := v) hcap hstale⟩

/-! ## A binding between the calls of a run -/

/-- The world has come out of a run that began with objects alone and in which the binding was made. -/
def Lives (b : Subject) (w : World) : Prop :=
  ∃ (start w₀ : World) (depth : Nat), start.Pristine b.scope ∧ Runs b.scope start w₀ ∧
    w₀.bindingCell? b.name = none ∧ b.cell = w₀.cells.size ∧
    Runs b.scope (w₀.cloneBinding (dispatch depth) b.prototype b.name .live) w

theorem Lives.step (hw : w.Lives b) {x : Action} (hx : x.Within b.scope) : (w.step x).2.Lives b := by
  obtain ⟨start, w₀, depth, hpristine, hbefore, hname, hcell, hafter⟩ := hw
  exact ⟨start, w₀, depth, hpristine, hbefore, hname, hcell, hafter.act callDepth hx⟩

theorem Lives.orderly (hw : w.Lives b) : w.Orderly b.scope := by
  obtain ⟨start, w₀, depth, hpristine, hbefore, hname, -, hafter⟩ := hw
  obtain ⟨hw₀, -⟩ := hbefore.maintains hpristine.orderly
  exact (hafter.maintains (clone_orderly hw₀ b.compiles hname (dispatch depth) .live)).1

theorem Lives.maintains (hw : w.Lives b) (hcomplete : w.exhausted = false) :
    w.Maintains b fun _ _ => False := by
  obtain ⟨start, w₀, depth, hpristine, hbefore, hname, hcell, hafter⟩ := hw
  obtain ⟨hw₀, -⟩ := hbefore.maintains hpristine.orderly
  obtain ⟨-, hkeep⟩ := hafter.maintains (clone_orderly hw₀ b.compiles hname (dispatch depth) .live)
  exact (hkeep hcomplete).2 _ (clone_maintains hw₀ hname hcell (dispatch depth) _)

theorem Lives.rests (hw : w.Lives b) :
    ∀ c < w.cells.size, ∃ policy, (Audience.mk c policy []).Rests w := by
  obtain ⟨start, w₀, depth, hpristine, hbefore, hname, -, hafter⟩ := hw
  have hrun := (hbefore.clone depth .live b.compiles hname).trans hafter
  exact hrun.rests hpristine.orderly hpristine.cells

/-- Evaluating once gives the result of a bound binding while no change is still to be announced. -/
theorem Lives.agrees (hw : w.Lives b) (hcomplete : w.exhausted = false) {cell : Cell}
    (hcell : w.cells[b.cell]? = some cell) (hbound : cell.live.bound = true)
    (hannounced : ∀ id member, ¬ w.stale id member) (d : Dispatcher) :
    ∃ v, cell.live.ledger.get cell.live.parameter = some v ∧
      cell.live.root ==
        ((w.evaluator d b.prototype).2.evaluateWith d v (w.evaluator d b.prototype).1).1 := by
  have hlive := (hw.maintains hcomplete).live cell hcell
  have hstale : w.stale = fun _ _ => False := by
    funext id member
    exact eq_false (hannounced id member)
  rw [hstale] at hlive
  have hstill : (host d fun _ _ => .deaf).Still w.read w := hw.orderly.quiet.still
  obtain ⟨v, hv, -, hroot⟩ := hlive.agrees b.compiles hbound hstill
  exact ⟨v, hv, hroot⟩

/-- All observers of the binding there are. -/
def audience (b : Subject) (cell : Cell) : Audience :=
  ⟨b.cell, b.prototype.graph.policyOf b.prototype.body, cell.observers⟩

/-- The binding is bound, no change of a member is still to be announced, no call has been left out,
and whatever is called back does nothing. -/
structure Poised (b : Subject) (cell : Cell) (w : World) : Prop where
  lives : w.Lives b
  found : w.cells[b.cell]? = some cell
  bound : cell.live.bound = true
  complete : w.exhausted = false
  announced : ∀ id member, ¬ w.stale id member
  silent : w.Silent

theorem Poised.rested {cell : Cell} (hw : w.Poised b cell) : w.Rested :=
  rested_of_rests hw.complete hw.lives.rests

theorem Poised.rests {cell : Cell} (hw : w.Poised b cell) : (audience b cell).Rests w := by
  have horderly := hw.lives.orderly
  obtain ⟨hbusy, -, -⟩ := horderly.cells b.cell cell hw.found
  obtain ⟨hdel, hout, hpending⟩ := hw.rested b.cell cell hw.found
  have hcopy := ((hw.lives.maintains hw.complete).live cell hw.found).copy
  have hpolicy : cell.live.graph.policyOf cell.live.body = (audience b cell).policy := by
    rw [hcopy.policyOf, hcopy.body]
    rfl
  obtain ⟨policy, hrests⟩ := hw.lives.rests b.cell (Array.getElem?_eq_some_iff.mp hw.found).1
  have hfits := hrests.sound.fits cell hw.found
  have hsame : policy = (audience b cell).policy := hfits.policy.symm.trans hpolicy
  refine Audience.rests_of_cell hw.found
    ⟨hpending, hpolicy, hsame ▸ hfits.leads, List.filter_sublist⟩ (fun c other hc hne => ?_)
    (fun r reaction hr x hx => ?_) hbusy hdel hout
  · -- observers go by the name of their binding, and a name is of one binding only
    refine List.filter_eq_nil_iff.mpr fun x hx hin => hne ?_
    obtain ⟨y, hy, hname⟩ : ∃ y ∈ cell.observers, y.2.name = x.2.name := by
      simpa [Audience.includes, Audience.names, audience] using hin
    have hother := horderly.named c other hc x hx
    have hown := horderly.named b.cell cell hw.found y hy
    rw [(Prod.mk.inj hname).1, hother] at hown
    exact Option.some.inj hown
  · rw [hw.silent r reaction hr] at hx
    cases hx

/-- What an operation has the binding report is what the observers are told, and leads to the result
that there is then. -/
theorem Poised.told {cell cell' : Cell} (hw : w.Poised b cell) {x : Action}
    (hx : x.Spares (audience b cell).names) (hcomplete : (w.step x).2.exhausted = false)
    (hcell' : (w.step x).2.cells[b.cell]? = some cell')
    (hobservers : cell'.observers = cell.observers) :
    ∃ new, cell'.reported = cell.reported ++ new ∧
      (audience b cell).heard (w.step x).2.events = (audience b cell).tellings new ∧
      Leads (audience b cell).policy cell.live.root new cell'.live.root := by
  have hcleared := hw.rests.clearReports
  have hdone : (audience b cell).Proceeds w.clearReports (w.step x).2 :=
    Audience.perform_proceeds (Audience.dispatch_minds _ callDepth) hcleared.sound hx
  have hfits := (hcleared.proceeds hdone).sound.fits cell' hcell'
  have hattending : (audience b cell).attending cell' = (audience b cell).members :=
    Audience.attending_of_sublist hfits (by rw [hobservers]; exact .refl _)
  have hcell : w.clearReports.cells[(audience b cell).cell]? = some cell := hw.found
  have htold := hcleared.told hdone
  rw [Audience.scene_of_cell hcell', Audience.scene_of_cell hcell] at htold
  obtain ⟨new, hreported, hheard⟩ := htold ⟨hcomplete, hattending⟩
  replace hreported : cell'.reported = cell.reported ++ new := hreported
  have hleads := hfits.leads
  rw [hreported] at hleads
  exact ⟨new, hreported, hheard, (hw.rests.sound.fits cell hw.found).leads.of_append hleads⟩

/-- A member of a bag is set. All observers are told, one change after the other, of at most one change
for each node of the graph that follows the member. What they are told last, or else the result that
there was already, is what evaluating once gives of the value bound. -/
theorem Poised.set_tells_followers {cell : Cell} (hw : w.Poised b cell) (d : Dispatcher) {object : Nat}
    {member : String} {value : Literal} {o : HostObject Handler} (ho : w.objects[object]? = some o)
    (hbag : o.kind = .bag) (hobservable : o.notifier.isSome = true)
    (hset : (Action.set object member value).Within b.scope) :
    let w' := (w.step (.set object member value)).2
    ∃ v changes, cell.live.ledger.get cell.live.parameter = some v ∧
      (audience b cell).heard w'.events = (audience b cell).tellings changes ∧
      changes.length ≤ (cell.live.followers object member).length ∧
      changes.getLast?.elim cell.live.root (·.new) ==
        ((w'.evaluator d b.prototype).2.evaluateWith d v (w'.evaluator d b.prototype).1).1 := by
  intro w'
  have horderly := hw.lives.orderly
  have hcap : w.capable object = true := by rwa [capable, ho, Option.bind_some]
  obtain ⟨u, hripples, hucells, huexhausted, hustale⟩ :=
    set_ripples horderly hw.silent hw.rested b.cell ho hbag hcap hset
  obtain ⟨cell', new, hcell', hobservers, hsame, hreported, hlength⟩ :=
    hripples.cell cell (hucells ▸ hw.found)
  have hcomplete : w'.exhausted = false := hripples.exhausted.trans (huexhausted.trans hw.complete)
  obtain ⟨changes, hchanges, hheard, hleads⟩ :=
    hw.told (x := .set object member value) (.set object member value) hcomplete hcell' hobservers
  obtain rfl : changes = new := List.append_cancel_left (hchanges.symm.trans hreported)
  have hannounced : ∀ id m, ¬ w'.stale id m := by
    rw [hripples.heap.stale]
    exact fun id m hstale => hw.announced id m (hustale id m hstale)
  obtain ⟨v, hv, hroot⟩ :=
    (hw.lives.step hset).agrees hcomplete hcell' (hsame.bound.trans hw.bound) hannounced d
  have hbound : cell.live.ledger.get cell.live.parameter = some v := by
    have hcopy := ((hw.lives.maintains hw.complete).live cell hw.found).copy
    rw [← hsame.argument ((hcopy.kindAt_parameter b.compiles _).mpr rfl), ← hsame.parameter]
    exact hv
  obtain ⟨-, -, ht⟩ := horderly.cells b.cell cell hw.found
  refine ⟨v, changes, hbound, hheard, Nat.le_trans hlength (ht.hooked.asking_le object member), ?_⟩
  rw [hleads.last]
  exact hroot

/-! ## A member that is read twice -/

end World

/-- The two accesses are not shared, and follow the age each for itself. -/
def Lambda.ageDiffers : Lambda :=
  let person : ValueType := .object "Person" true
  let p : Expr := .parameter 0 person "p"
  ⟨p, .binary 3 .bool .notEqual (.member 1 (.nullable .i32) p "age" "age")
    (.member 2 (.nullable .i32) p "age" "age")⟩

def Prototype.ageDiffers : Prototype :=
  Lambda.ageDiffers.compile.toOption.get rfl

namespace World

def boss : Value :=
  .object ⟨1, "Person"⟩

def bossScope : Scope :=
  { staffScope with binds := fun _ v => v = boss }

theorem staff_pristine_boss : staff.Pristine bossScope :=
  { staff_pristine with }

theorem parameter_yields_boss {x : Result}
    (hx : CanYield bossScope (bossScope.binds "b") Prototype.ageDiffers.graph 0 x) :
    x = none ∨ x = some boss := by
  cases hx with
  | absent => exact .inl rfl
  | parameter _ _ hv => exact .inr (congrArg some hv)
  | rule _ _ hn hk =>
      cases hn
      exact absurd rfl hk

theorem ageDiffers_followable :
    Followable bossScope (bossScope.binds "b") Prototype.ageDiffers.graph := by
  intro id n member reads observe hn hk target htarget r _
  have haccess : target = 0 ∧ observe = true ∧ reads = member := by
    rcases id with _ | _ | _ | _ | id
    · cases hn
      cases hk
    · cases hn
      cases hk
      exact ⟨List.mem_singleton.mp htarget, rfl, rfl⟩
    · cases hn
      cases hk
      exact ⟨List.mem_singleton.mp htarget, rfl, rfl⟩
    · cases hn
      cases hk
    · cases hn
  obtain ⟨rfl, hobserve⟩ := haccess
  refine ⟨fun hyield => ?_, fun _ => hobserve⟩
  rcases parameter_yields_boss hyield with h | h <;> cases h

/-- Whether the age of the boss differs from itself. -/
def bossDiffers : Subject where
  scope := bossScope
  name := "b"
  cell := 0
  lambda := .ageDiffers
  prototype := .ageDiffers
  compiles := rfl
  followable := ageDiffers_followable

def watchedBoss : World :=
  let w := staff.cloneBinding (dispatch callDepth) .ageDiffers "b" .live
  let w := (w.step (.observe "b" "o" [] 0 none)).2
  (w.step (.bind "b" (.fixed boss))).2

def birthday : Action :=
  .set 1 "age" (.fixed (.i32 41))

theorem watchedBoss_poised : ∃ cell o, watchedBoss.Poised bossDiffers cell ∧
    cell.observers = [(0, ⟨"b", "o", 0⟩)] ∧ (cell.live.followers 1 "age").length = 2 ∧
    watchedBoss.objects[1]? = some o ∧ o.kind = .bag ∧ o.notifier.isSome = true := by
  have hruns : Runs bossScope (staff.cloneBinding (dispatch callDepth) .ageDiffers "b" .live)
      watchedBoss :=
    .act callDepth (.act callDepth (.refl _) (.observe "b" "o" 0 none nofun)) (.bind fun _ => rfl)
  have hcell : (watchedBoss.cells[0]?).any (fun cell => cell.live.bound &&
      (cell.observers == [(0, ⟨"b", "o", 0⟩)] && (cell.live.followers 1 "age").length == 2)) = true := by
    decide +kernel
  have hobject : (watchedBoss.objects[1]?).any
      (fun o => o.kind == .bag && o.notifier.isSome) = true := by decide +kernel
  have hannounced : (watchedBoss.objects.all fun o => o.unannounced.isEmpty) = true := by
    decide +kernel
  have hsilent : (watchedBoss.reactions.all fun r => r.script.isEmpty) = true := by decide +kernel
  obtain ⟨cell, hfound, hcell⟩ := (Option.any_eq_true _ _).mp hcell
  obtain ⟨hbound, hobserver, hfollowers⟩ := by simpa using hcell
  obtain ⟨o, ho, hobject⟩ := (Option.any_eq_true _ _).mp hobject
  obtain ⟨hbag, hobservable⟩ := by simpa using hobject
  rw [Array.all_eq_true'] at hannounced hsilent
  refine ⟨cell, o, ⟨⟨staff, staff, callDepth, staff_pristine_boss, .refl staff, rfl, rfl, hruns⟩,
    hfound, hbound, by decide +kernel, ?_, ?_⟩, hobserver, hfollowers, ho, hbag, hobservable⟩
  · rintro id member ⟨o', ho', hmem⟩
    rw [List.isEmpty_iff.mp (hannounced o' (Array.mem_of_getElem? ho'))] at hmem
    cases hmem
  · exact fun r reaction hr => List.isEmpty_iff.mp (hsilent reaction (Array.mem_of_getElem? hr))

theorem birthday_within : birthday.Within bossDiffers.scope :=
  .set rfl fun _ => .inr ⟨rfl, rfl, _, rfl⟩

/-- Both accesses follow the age, and the last that the observer is told is what evaluating gives. -/
theorem set_tells_followers_birthday :
    let w := (watchedBoss.step birthday).2
    ∃ cell v changes, watchedBoss.cells[0]? = some cell ∧
      (audience bossDiffers cell).heard w.events = (audience bossDiffers cell).tellings changes ∧
      changes.length ≤ 2 ∧
      changes.getLast?.elim cell.live.root (·.new) ==
        ((w.evaluator (dispatch callDepth) .ageDiffers).2.evaluateWith (dispatch callDepth) v
          (w.evaluator (dispatch callDepth) .ageDiffers).1).1 := by
  obtain ⟨cell, o, hpoised, -, hfollowers, ho, hbag, hobservable⟩ := watchedBoss_poised
  obtain ⟨v, changes, -, hheard, hlength, hlast⟩ :=
    hpoised.set_tells_followers (dispatch callDepth) ho hbag hobservable birthday_within
  rw [hfollowers] at hlength
  exact ⟨cell, v, changes, hpoised.found, hheard, hlength, hlast⟩

/-- The observer is told first that the age differs from itself and then that it does not. -/
theorem set_may_tell_twice : ¬ ∀ {b : Subject} {cell : Cell} {w : World}, w.Poised b cell →
    b.prototype.graph.policyOf b.prototype.body ≠ .emptyOnly →
    ∀ {object : Nat} {member : String} {value : Literal} {o : HostObject Handler},
      w.objects[object]? = some o → o.kind = .bag → o.notifier.isSome = true →
      (Action.set object member value).Within b.scope →
      ∃ changes, (audience b cell).heard (w.step (.set object member value)).2.events =
        (audience b cell).tellings changes ∧ changes.length ≤ 1 := by
  intro h
  obtain ⟨cell, o, hpoised, hobserver, -, ho, hbag, hobservable⟩ := watchedBoss_poised
  obtain ⟨changes, hheard, hone⟩ := h hpoised (by decide) ho hbag hobservable birthday_within
  have htwo : ((Audience.mk 0 .standard [(0, ⟨"b", "o", 0⟩)]).heard
      (watchedBoss.step birthday).2.events).length = 2 := by decide +kernel
  have haudience : audience bossDiffers cell = ⟨0, .standard, [(0, ⟨"b", "o", 0⟩)]⟩ := by
    rw [audience, hobserver]
    rfl
  rw [haudience] at hheard
  have hlength := congrArg List.length hheard
  rw [Audience.length_tellings] at hlength
  have hequal : 2 = changes.length * 1 := htwo.symm.trans hlength
  omega

end World

end LiveExpr
