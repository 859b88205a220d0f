import LiveExpr.Proofs.Compile.Meaning
import LiveExpr.Proofs.Compile.Numbering
import LiveExpr.Proofs.Live.Services
import LiveExpr.Proofs.Typing.HasType

/-!
Live graphs keep to their static types. As long as the parameter is bound to values of its type and
members are read as values of theirs, every result is absent, null or of the type of its node, also
those that were kept because the new ones counted as the same.
-/

namespace LiveExpr

/-! ## Lambdas whose types can be trusted -/

/-- Types nest no nullable around a nullable or a reference, operators have the types inferred for
them, no reference is converted to another reference type, and constants are what they are declared to
be. -/
structure Lambda.WellTyped (l : Lambda) : Prop where
  plain : ∀ e, l.Mentions e → e.type.Plain
  inferred : l.Inferred
  conversions : ∀ i t operand, l.Mentions (.unary i t .convert operand) →
    operand.type.isReference = true → t.isReference = true → operand.type = t
  constants : ∀ i t v, l.Mentions (.constant i t v) → v.HasType t

/-- Members that the lambda mentions are read as null or values of their declared types. -/
def Lambda.ReadsTyped (l : Lambda) (read : String → Value → Value) : Prop :=
  ∀ i t target name reads, l.Mentions (.member i t target name reads) →
    ∀ v : Value, v.isNull = false → v.HasType target.type → (read reads v).HasType t

theorem Result.hasType_none {t : ValueType} : Result.HasType none t :=
  nofun

theorem Result.hasType_some {v : Value} {t : ValueType} (hv : v.HasType t) :
    Result.HasType (some v) t := by
  rintro u ⟨⟩
  exact hv

/-! ## The rules of nodes -/

theorem BinaryOp.resultType_of_booleans {op : BinaryOp} {left right t : ValueType}
    (hop : op = .and ∨ op = .or) (hbool : (left.isBoolean && right.isBoolean) = true)
    (h : op.resultType left right = .ok t) (b : Bool) : (Value.bool b).HasType t := by
  obtain ⟨hleft, hright⟩ := Bool.and_eq_true_iff.mp hbool
  have hleft : left.nonNullable = .bool := of_decide_eq_true hleft
  have hright : right.nonNullable = .bool := of_decide_eq_true hright
  rw [resultType_eq_ok] at h
  rcases hop with rfl | rfl <;>
    · simp only [resultType?, hleft, hright, bitwiseResult?, ne_eq, not_true_eq_false, if_false] at h
      cases h
      exact .lifted .bool _

/-- The operators that answer for absent operands answer with a boolean, and are booleans. -/
theorem BinaryOp.onAbsent_hasType {op : BinaryOp} {left right t : ValueType}
    (ht : op.resultType left right = .ok t) (x y : Result) :
    (op.onAbsent (left.isBoolean && right.isBoolean) x y).HasType t := by
  have hcomparison : ∀ b, op = .equal ∨ op = .notEqual ∨ op.isRelational = true →
      Result.HasType (some (.bool b)) t := by
    intro b hop
    rw [resultType_of_comparison hop ht]
    exact Result.hasType_some .bool
  unfold onAbsent
  split
  · split
    · exact hcomparison false (by simp [*])
    · exact Result.hasType_none
  · cases op <;> dsimp only
    case and | or =>
      split
      · rename_i hknown
        have hbool := (Bool.and_eq_true_iff.mp hknown).1
        exact Result.hasType_some (resultType_of_booleans (by simp) hbool ht _)
      · exact Result.hasType_none
    case equal | notEqual | lessThan | lessThanOrEqual | greaterThan | greaterThanOrEqual =>
      exact hcomparison _ (by simp [isRelational])
    all_goals exact Result.hasType_none

namespace Compile

theorem NodeFor.rule_hasType {l : Lambda} (hl : l.WellTyped) {e : Expr} (he : l.Mentions e)
    {operands : List (Expr × Nat)} {n : Node} (hn : NodeFor e operands n)
    (hoperands : ∀ x ∈ operands, l.Mentions x.1) {read : String → Value → Value}
    (hread : l.ReadsTyped read) {results : Nat → Result}
    (hresults : ∀ x ∈ operands, (results x.2).HasType x.1.type) (own : Result) :
    (n.kind.rule read own ((n.inputs[0]?).elim none results)
      ((n.inputs[1]?).elim none results)).HasType n.type := by
  cases hn with
  | @constant i t v => exact Result.hasType_some (hl.constants i t v he)
  | @member i k t target name reads =>
      intro u hu
      obtain ⟨v, hv, rfl⟩ := Option.map_eq_some_iff.mp hu
      obtain ⟨hv, hnull⟩ := Option.filter_eq_some_iff.mp hv
      exact hread i t target name reads he v (by simpa using hnull)
        (hresults _ List.mem_cons_self v hv)
  | @unary i k t op operand kernel hsupports hk =>
      intro u hu
      obtain ⟨v, hv, rfl⟩ := Option.map_eq_some_iff.mp hu
      have hv : results k = some v := hv
      refine UnaryKernel.apply_hasType hsupports hk (hl.inferred _ he)
        (hl.plain _ (hoperands _ List.mem_cons_self)) (hl.plain _ he) ?_
        (hresults _ List.mem_cons_self v hv)
      rintro rfl
      exact hl.conversions i t operand he
  | @binary i j k t op left right tag kernel htag hk =>
      obtain ⟨result, hresult⟩ := BinaryOp.resultType_of_build hk
      obtain rfl : t = result := by
        have ht := hl.inferred _ he
        rw [Expr.TypeInferred, hresult] at ht
        exact ht
      have hrule := @rule_binary read _ _ _ _ _ htag (binaryTypeArgs tag left.type right.type t) kernel
        own (results j) (results k)
      have hleft := hresults _ List.mem_cons_self
      intro v hv
      replace hv := hrule.symm.trans hv
      split at hv
      · rename_i a b ha hb
        cases hv
        exact BinaryKernel.apply_hasType hk hresult (hleft a ha) b
      · exact BinaryOp.onAbsent_hasType hresult _ _ v hv

end Compile

/-! ## Typed results -/

namespace Live

variable {σ : Type} {h : Host σ} {P : σ → Prop} {e : Lambda} {p : Prototype} {l l' : Live} {s s' : σ}

/-- The result would be of the type of the node. -/
def TypedAt (l : Live) (id : Nat) (r : Result) : Prop :=
  ∀ n, l.graph.nodes[id]? = some n → r.HasType n.type

/-- Every result is absent, null or of the type of its node. -/
def Typed (l : Live) : Prop :=
  ∀ id, l.TypedAt id (l.ledger.get id)

theorem evaluate_eq_due (h : Host σ) (l : Live) (id : Nat) (s : σ) :
    (l.evaluate h id s).1 = l.due (fun member v => (h.access member v s).1) id := by
  unfold evaluate due kindAt
  cases l.graph.nodes[id]? with
  | none => rfl
  | some n =>
      simp only [Option.map_some, Option.bind_some]
      cases n.kind with
      | memberAccess member reads observe =>
          simp only [NodeKind.rule]
          cases Result.object? (l.operand id 0) <;> rfl
      | _ => rfl

theorem typedAt_of_frame (hg : l'.graph = l.graph) {id : Nat} {r : Result} :
    l'.TypedAt id r ↔ l.TypedAt id r := by
  rw [TypedAt, TypedAt, hg]

theorem Typed.ofLedger (hl : l.Typed) (hg : l'.graph = l.graph) (hledger : l'.ledger = l.ledger) :
    l'.Typed := by
  intro id
  rw [hledger, typedAt_of_frame hg]
  exact hl id

theorem Typed.setResult (hl : l.Typed) {id : Nat} {r : Result} (hr : l.TypedAt id r) :
    (l.setResult id r).Typed := by
  intro j
  rw [setResult_ledger_get]
  split
  · subst j
    exact hr
  · exact hl j

/-- A node of a copy has the type of the prototype's. -/
theorem CopyOf.typedAt (hl : CopyOf p l) {id : Nat} {r : Result} :
    l.TypedAt id r ↔ ∀ n, p.graph.nodes[id]? = some n → r.HasType n.type := by
  rw [TypedAt, hl.nodes, Array.getElem?_map]
  simp only [Option.map_eq_some_iff, forall_exists_index, and_imp, forall_apply_eq_imp_iff₂]
  exact .rfl

/-- The services of the host keep `P`, and while it holds members are read as values of their types. -/
structure Faithful (h : Host σ) (P : σ → Prop) (e : Lambda) : Prop where
  preserves : h.Preserves P
  reads : ∀ {s}, P s → e.ReadsTyped fun member v => (h.access member v s).1

section

variable (he : e.Identified) (hw : e.WellTyped) (hp : e.compile = .ok p) (hh : Faithful h P e)

include he hw hp hh

theorem evaluate_typed (hcopy : CopyOf p l) (hl : l.Typed) (hs : P s) (id : Nat) :
    l.TypedAt id (l.evaluate h id s).1 := by
  rw [hcopy.typedAt, evaluate_eq_due]
  intro n hn
  rw [Compile.due_of_node hcopy hn]
  rcases Compile.origin_of_compile he hp hn with ⟨hk, -⟩ | ⟨f, operands, hf, hfor, hoperands⟩
  · rw [hk]
    exact (hcopy.typedAt.mp (hl id)) n hn
  · refine hfor.rule_hasType hw hf (fun x hx => (hoperands x hx).1) (hh.reads hs) ?_ _
    intro x hx
    obtain ⟨-, m, hm, htype⟩ := hoperands x hx
    rw [← htype]
    exact (hcopy.typedAt.mp (hl x.2)) m hm

theorem Recomputed.typed {id : Nat} {changed : Bool} (hr : Recomputed h id l s changed l' s')
    (hcopy : CopyOf p l) (hl : l.Typed) (hs : P s) : l'.Typed := by
  cases hr with
  | @mk l₁ _ s₁ _ _ r _ hwatch hevaluate ha =>
      have hl₁ := hl.ofLedger hwatch.frame.graph hwatch.ledger
      have hr := evaluate_typed he hw hp hh (hcopy.ofFrame hwatch.frame) hl₁
        (hwatch.preserves hh.preserves hs) id
      rw [hevaluate] at hr
      cases ha with
      | same => exact hl₁
      | new => exact hl₁.setResult hr

theorem propagate_typed (dirty : List Nat) (hcopy : CopyOf p l) (hl : l.Typed) (hs : P s) :
    (l.propagate h dirty s).1.Typed := by
  obtain ⟨⟨-, -, hl'⟩, -⟩ := propagate_visits (h := h)
    (fun m t => P t ∧ CopyOf p m ∧ m.Typed) (fun _ _ _ => True)
    (fun hI hr => ⟨⟨hr.preserves hh.preserves hI.1, hI.2.1.ofFrame hr.frame,
      hr.typed he hw hp hh hI.2.1 hI.2.2 hI.1⟩, trivial⟩)
    (fun _ _ _ _ => trivial) dirty (l := l) (s := s) ⟨hs, hcopy, hl⟩
  exact hl'

/-! ## Requests -/

omit hw hh in
theorem typedAt_parameter (hcopy : CopyOf p l) {r : Result} (hr : r.HasType e.parameter.type) :
    l.TypedAt l.parameter r := by
  rw [hcopy.typedAt]
  intro n hn
  rcases Compile.origin_of_compile he hp hn with ⟨-, htype⟩ | ⟨f, operands, -, hfor, -⟩
  · rwa [htype]
  · have hkind := (Compile.parameter_iff_of_compile hp l.parameter).mpr hcopy.parameter
    rw [hn] at hkind
    exact absurd (Option.some.inj hkind) hfor.kind_ne_parameter

omit hw hh in
theorem hasType_of_typedAt_body (hcopy : CopyOf p l) {r : Result} (hr : l.TypedAt l.body r) :
    r.HasType e.body.type := by
  obtain ⟨n, hn, htype⟩ := Compile.body_of_compile he hp
  rw [← htype]
  rw [hcopy.body] at hr
  exact hcopy.typedAt.mp hr n hn

/-- A new result of its type is given to the parameter and passed on. -/
theorem reset_typed (hcopy : CopyOf p l) (hl : l.Typed) (b : Bool) {r : Result}
    (hr : r.HasType e.parameter.type) (dirty : List Nat) (hs : P s) :
    ((l.withParameter b r).propagate h dirty s).1.Typed := by
  have hgraph : (l.withParameter b r).Typed :=
    Typed.ofLedger (hl.setResult (typedAt_parameter he hp hcopy hr)) rfl rfl
  exact propagate_typed he hw hp hh dirty (copyOf_withParameter hcopy b r) hgraph hs

end

/-- The results of the nodes and that of the whole keep to their types. -/
structure Sound (e : Lambda) (l : Live) : Prop where
  typed : l.Typed
  root : l.root.HasType e.body.type

theorem Typed.settleRoot (hl : l.Typed) (hroot : l.root.HasType e.body.type) {target : Result}
    (htarget : target.HasType e.body.type) : Sound e (l.settleRoot target) := by
  have hsame := settleRoot_sameLedger l target
  refine ⟨hl.ofLedger hsame.graph hsame.ledger, ?_⟩
  unfold Live.settleRoot
  split
  · exact hroot
  · exact htarget

/-- From adoption on by the requests of a binding, in worlds where `P` holds and with nothing bound but
what `binds` allows. -/
inductive ReachedWithin (h : Host σ) (p : Prototype) (mode : BindingMode) (P : σ → Prop)
    (binds : Value → Prop) : Live → Prop
  | adopt {s : σ} : P s → ReachedWithin h p mode P binds (adopt h p mode s).1
  | bind {l : Live} {v : Value} {s : σ} : binds v → P s → ReachedWithin h p mode P binds l →
      ReachedWithin h p mode P binds (l.bind h v s).1
  | unbind {l : Live} {s : σ} : P s → ReachedWithin h p mode P binds l →
      ReachedWithin h p mode P binds (l.unbind h s).1
  | memberChanged {l : Live} (node : Nat) {s : σ} : P s → ReachedWithin h p mode P binds l →
      ReachedWithin h p mode P binds (l.memberChanged h node s).1
  | takePending {l : Live} : ReachedWithin h p mode P binds l →
      ReachedWithin h p mode P binds l.takePending.2

variable {mode : BindingMode} {binds : Value → Prop}

theorem ReachedWithin.reached (hl : ReachedWithin h p mode P binds l) : Reached h p mode l := by
  induction hl with
  | adopt => exact .adopt _
  | bind _ _ _ ih => exact .bind _ _ ih
  | unbind _ _ ih => exact .unbind _ ih
  | memberChanged node _ _ ih => exact .memberChanged node _ ih
  | takePending _ ih => exact .takePending ih

section

variable (he : e.Identified) (hw : e.WellTyped) (hp : e.compile = .ok p) (hh : Faithful h P e)

include he hw hp hh

theorem adopt_sound (mode : BindingMode) (hs : P s) : Sound e (adopt h p mode s).1 := by
  have hfresh := copy_fresh hp mode
  obtain ⟨⟨-, -, hl⟩, -⟩ := foldl_store_visits (h := h)
    (fun m t => P t ∧ CopyOf p m ∧ m.Typed) (fun _ _ => True)
    (fun {id m t} hI => by
      obtain ⟨ht, hcopy, hm⟩ := hI
      have hr := evaluate_typed he hw hp hh hcopy hm ht id
      exact ⟨⟨hh.preserves.evaluate m id ht, hcopy.ofFrame (.setResult m id _), hm.setResult hr⟩,
        trivial⟩)
    (fun _ _ _ => trivial) (copy p mode).1 (h.note (.cloned (copy p mode).2 mode) s)
    ⟨hh.preserves.note _ hs, hfresh.toCopyOf, fun j => copy_ledger p mode j ▸ fun _ _ => nofun⟩
    (copy p mode).1.graph.size
  rw [← adopt_eq] at hl
  exact ⟨hl, (adopt_fresh hp h mode s).root ▸ Result.hasType_none⟩

theorem bind_sound {v : Value} (hv : v.HasType e.parameter.type) (hcopy : CopyOf p l)
    (hl : Sound e l) (hs : P s) : Sound e (l.bind h v s).1 := by
  have hend := reset_typed he hw hp hh hcopy hl.typed true (Result.hasType_some hv) l.bindAgenda
    (hh.preserves.note (.binding v) hs)
  have hframe := propagate_frame h l.bindAgenda (l.withParameter true (some v)) (h.note (.binding v) s)
  rw [bind_eq]
  refine hend.settleRoot (hframe.root ▸ hl.root) ?_
  exact hasType_of_typedAt_body he hp ((copyOf_withParameter hcopy _ _).ofFrame hframe) (hend _)

theorem unbind_sound (hcopy : CopyOf p l) (hl : Sound e l) (hs : P s) : Sound e (l.unbind h s).1 := by
  rw [unbind_eq]
  have hs' : P (if l.bound then h.note (.unbinding l.watchCount) s else s) := by
    split
    · exact hh.preserves.note _ hs
    · exact hs
  have hunwatched : l.unwatched.Typed := hl.typed.ofLedger rfl rfl
  have hend := reset_typed he hw hp hh (copyOf_unwatched hcopy) hunwatched false Result.hasType_none
    (l.graph.readersOf l.parameter) (hh.preserves.releaseWatches { l with bound := false } hs')
  refine hend.settleRoot ?_ Result.hasType_none
  rw [(propagate_frame h _ _ _).root]
  exact hl.root

theorem memberChanged_sound (node : Nat) (hcopy : CopyOf p l) (hl : Sound e l) (hs : P s) :
    Sound e (l.memberChanged h node s).1 := by
  cases hb : l.bound with
  | false =>
      rw [memberChanged_unbound h node hb]
      exact hl
  | true =>
      rw [memberChanged_eq h node hb]
      have hframe := propagate_frame h [node] l s
      have hend := propagate_typed he hw hp hh [node] hcopy hl.typed hs
      refine hend.settleRoot (hframe.root ▸ hl.root) ?_
      exact hasType_of_typedAt_body he hp (hcopy.ofFrame hframe) (hend _)

/-- Whatever is bound to values of the type of the parameter, unbound and announced: every node has no
result, a null or a value of its static type, and so has the whole. -/
theorem ReachedWithin.results_typed
    (hl : ReachedWithin h p mode P (·.HasType e.parameter.type) l) :
    (∀ id n, l.graph.nodes[id]? = some n → (l.ledger.get id).HasType n.type) ∧
      l.root.HasType e.body.type := by
  suffices hsound : Sound e l from ⟨hsound.typed, hsound.root⟩
  induction hl with
  | adopt hs => exact adopt_sound he hw hp hh mode hs
  | bind hv hs hl ih => exact bind_sound he hw hp hh hv (hl.reached.settled hp).1 ih hs
  | unbind hs hl ih => exact unbind_sound he hw hp hh (hl.reached.settled hp).1 ih hs
  | memberChanged node hs hl ih =>
      exact memberChanged_sound he hw hp hh node (hl.reached.settled hp).1 ih hs
  | takePending _ ih => exact ⟨ih.typed, ih.root⟩

end

/-! ## Hosts that hold still -/

theorem still_faithful {read : String → Value → Value} {s₀ : σ} (hs : h.Still read s₀)
    (hread : e.ReadsTyped read) : Faithful h (h.Aside s₀) e where
  preserves :=
    { access := fun member v a => by rw [hs.access a]; exact a
      watch := fun r node member a => .watch r node member a
      unwatch := fun w a => .unwatch w a
      note := fun n a => .note n a }
  reads := by
    intro s a i t target name reads hm v hnull hv
    simp only [hs.access a]
    exact hread i t target name reads hm v hnull hv

theorem bossAge_mentions {f : Expr} (hf : Lambda.bossAge.Mentions f) :
    f = Lambda.bossAge.parameter ∨ f = Lambda.bossAge.body ∨
      f = .member 1 (.object "Person" true) Lambda.bossAge.parameter "boss" "boss" := by
  simp only [Lambda.Mentions, Lambda.bossAge, Expr.part_member, Expr.part_parameter] at hf
  rcases hf with rfl | rfl | rfl | rfl <;> simp [Lambda.bossAge]

theorem bossAge_inferred : Lambda.bossAge.Inferred := by
  intro f hf
  rcases bossAge_mentions hf with rfl | rfl | rfl <;> trivial

theorem bossOverThirty_wellTyped : Lambda.bossOverThirty.WellTyped := by
  refine ⟨fun f hf => ?_, fun f hf => ?_, fun i t operand hf => ?_, fun i t v hf => ?_⟩
  · rcases Lambda.bossOverThirty_mentions hf with hf | rfl | rfl | rfl | rfl
    · rcases bossAge_mentions hf with rfl | rfl | rfl
      · trivial
      · exact ⟨rfl, rfl, trivial⟩
      · trivial
    · trivial
    · trivial
    · exact ⟨rfl, rfl, trivial⟩
    · exact ⟨rfl, rfl, trivial⟩
  · rcases Lambda.bossOverThirty_mentions hf with hf | rfl | rfl | rfl | rfl
    · exact bossAge_inferred f hf
    · rfl
    · trivial
    · exact .inl rfl
    · exact .inl rfl
  · rcases Lambda.bossOverThirty_mentions hf with hf | h | h | h | h
    · rcases bossAge_mentions hf with h | h | h <;> cases h
    all_goals cases h
    all_goals exact nofun
  · rcases Lambda.bossOverThirty_mentions hf with hf | h | h | h | h
    · rcases bossAge_mentions hf with h | h | h <;> cases h
    all_goals cases h
    exact .int

theorem bossOverThirty_readsTyped : Lambda.bossOverThirty.ReadsTyped World.staff.read := by
  have hperson : ∀ {v : Value}, v.isNull = false → v.HasType (.object "Person" true) →
      ∃ r, v = .object r := by
    intro v hnull hv
    cases hv with
    | null => cases hnull
    | object => exact ⟨_, rfl⟩
  intro i t target name reads hm v hnull hv
  rcases Lambda.bossOverThirty_mentions hm with hm | h | h | h | h
  · rcases bossAge_mentions hm with h | h | h <;> cases h
    all_goals
      obtain ⟨⟨id, typeName⟩, rfl⟩ := hperson hnull hv
      rcases id with _ | _ | id
    · exact .null
    · exact .nullable (.int (n := MachineInt.ofInt .i32 40))
    · exact .null
    · exact .object
    · exact .null
    · exact .null
  all_goals cases h

/-- The age of the boss is converted and compared as a number of its type, and still is when it has been
announced to have changed. -/
theorem results_typed_bossOverThirty :
    let h := World.host (World.dispatch World.callDepth) fun _ _ => .deaf
    let t := adoptBound h .bossOverThirty .live World.employee World.staff
    let l := (t.1.memberChanged h 2 t.2).1
    (∀ (id : Nat) (n : Node), l.graph.nodes[id]? = some n → (l.ledger.get id).HasType n.type) ∧
      l.root.HasType .bool ∧ (l.ledger.get 3 == some (.int (MachineInt.ofInt .i64 40))) = true ∧
      l.root.isSome = true := by
  intro h t l
  have hstill : h.Still World.staff.read World.staff := World.staff_quiet.still
  have hh := still_faithful hstill bossOverThirty_readsTyped
  have hadopt := hh.preserves.adopt .bossOverThirty .live (.refl World.staff)
  have hemployee : World.employee.HasType Lambda.bossOverThirty.parameter.type := .object
  have hl : ReachedWithin h .bossOverThirty .live (h.Aside World.staff)
      (·.HasType Lambda.bossOverThirty.parameter.type) l :=
    .memberChanged 2 (hh.preserves.bind World.employee _ hadopt)
      (.bind hemployee hadopt (.adopt (.refl World.staff)))
  obtain ⟨hnodes, hroot⟩ := hl.results_typed Lambda.bossOverThirty_identified bossOverThirty_wellTyped
    Lambda.compile_bossOverThirty hh
  exact ⟨hnodes, hroot, by decide +kernel, by decide +kernel⟩

end Live

end LiveExpr
