import LiveExpr.Proofs.Build.Identity
import LiveExpr.Proofs.Build.Mirror
import LiveExpr.Proofs.Live.Integers
import LiveExpr.Proofs.Live.Valuation

/-!
Lambdas that differ in the order of two operands. Whatever the operands are, absent ones and nulls
included, the one compiles where the other does, and in live graphs over equal operands both give equal
results. The same goes for the two ways to say that something is not equal.
-/

namespace LiveExpr

variable {l l' : Lambda} {val val' : Expr → Result}

/-! ## Results of operators -/

/-- An ordering does not hold of what is absent, and the other operators do not ask which side it is. -/
theorem BinaryOp.onAbsent_mirror (op : BinaryOp) (booleans : Bool) (x y : Result)
    (h : x = none ∨ y = none) : op.mirror.onAbsent booleans y x = op.onAbsent booleans x y := by
  cases x <;> cases y <;> try (cases op <;> rfl)
  simp at h

theorem BinaryOp.onResults_mirror (op : BinaryOp) (booleans : Bool) {kernel : BinaryKernel}
    (hk : kernel ≠ .index) (x y : Result) :
    op.mirror.onResults booleans kernel.mirror y x = op.onResults booleans kernel x y := by
  cases x <;> cases y
  case none.none => exact op.onAbsent_mirror booleans none none (.inl rfl)
  case none.some w => exact op.onAbsent_mirror booleans none (some w) (.inl rfl)
  case some.none v => exact op.onAbsent_mirror booleans (some v) none (.inr rfl)
  case some.some v w => exact congrArg some (BinaryKernel.apply_mirror hk v w)

theorem BinaryOp.onResults_notEqual (booleans : Bool) (t : ValueType) (x y : Result) :
    notEqual.onResults booleans (.equality true) x y =
      Result.mapPresent (UnaryKernel.complement t).apply
        (equal.onResults booleans (.equality false) x y) := by
  cases x <;> cases y <;> try rfl
  simp [onResults, Result.mapPresent, BinaryKernel.apply, UnaryKernel.apply]

theorem BinaryOp.onResults_equal_scalar (booleans : Bool) (x y : Result) :
    (equal.onResults booleans (.equality false) x y).Scalar := by
  intro v hv
  cases x <;> cases y <;> cases hv <;> exact .bool _

namespace Build

variable {op : BinaryOp} {a b : Expr}

theorem operatorResult_congr (op : BinaryOp) (kernel : BinaryKernel)
    (ha : a.resultIn val == a.resultIn val') (hb : b.resultIn val == b.resultIn val') :
    operatorResult op kernel val a b == operatorResult op kernel val' a b :=
  op.onResults_congr _ kernel (Result.recast_congr _ _ ha) (Result.recast_congr _ _ hb)

theorem operatorResult_mirror (op : BinaryOp) {kernel : BinaryKernel} (hk : kernel ≠ .index)
    (val : Expr → Result) (a b : Expr) :
    operatorResult op.mirror kernel.mirror val b a = operatorResult op kernel val a b := by
  rw [operatorResult, operandType_mirror, operandType_mirror, Bool.and_comm, op.onResults_mirror _ hk,
    ← operatorResult]

theorem operatorResult_notEqual (val : Expr → Result) (a b : Expr) (t : ValueType) :
    operatorResult .notEqual (.equality true) val a b =
      Result.mapPresent (UnaryKernel.complement t).apply
        (operatorResult .equal (.equality false) val a b) :=
  BinaryOp.onResults_notEqual _ t _ _

/-- Two valuations of expressions that mirror each other, in which the operands have equal results. -/
theorem mirror_results (hop : op.isSymmetric = true) {kernel : BinaryKernel}
    (hk : BinaryKernel.build op (operandType op a b) (operandType op b a) = .ok kernel) {n n' : Nat}
    (hl : l.body = (binary op a b n).1) (hl' : l'.body = (binary op.mirror b a n').1)
    (hval : l.Values val) (hval' : l'.Values val') (ha : a.resultIn val == a.resultIn val')
    (hb : b.resultIn val == b.resultIn val') : val l.body == val' l'.body := by
  obtain ⟨hk', hne⟩ := op.build_mirror hop hk
  rw [← operandType_mirror, ← operandType_mirror op a] at hk'
  have hleft := binary_result hval hk n (hl ▸ .self _)
  have hright := binary_result hval' hk' n' (hl' ▸ .self _)
  rw [operatorResult_mirror op hne] at hright
  rw [hl, hl']
  exact BEq.trans hleft (BEq.trans (operatorResult_congr op kernel ha hb) (BEq.symm hright))

/-- Over operands that have equal results, to differ is not to be equal. -/
theorem notEqual_results {kernel : BinaryKernel}
    (hk : BinaryKernel.build .notEqual (operandType .notEqual a b) (operandType .notEqual b a) =
      .ok kernel) {n n' : Nat} (hl : l.body = (binary .notEqual a b n).1)
    (hl' : l'.body = ((binary .equal a b >>= unary .not) n').1) (hval : l.Values val)
    (hval' : l'.Values val') (ha : a.resultIn val == a.resultIn val')
    (hb : b.resultIn val == b.resultIn val') : val l.body == val' l'.body := by
  obtain ⟨rfl, hk'⟩ := BinaryOp.build_notEqual hk
  have hnot : UnaryKernel.build .not (binary .equal a b n').1.type
      (typeOn .not (binary .equal a b n').1.type) = .ok (.complement .bool) := by
    rw [equal_type a b n']
    rfl
  obtain ⟨hpart, hdenied⟩ := unary_result hval' hnot (binary .equal a b n').2 (hl' ▸ .self _)
  have hequal := (BinaryOp.onResults_equal_scalar _ _ _).eq_of_equal (binary_result hval' hk' n' hpart)
  rw [hequal, ← operatorResult, ← operatorResult_notEqual] at hdenied
  have hleft := binary_result hval hk n (hl ▸ .self _)
  rw [hl, hl']
  exact BEq.trans hleft (BEq.trans (operatorResult_congr .notEqual _ ha hb) (BEq.symm hdenied))

end Build

/-! ## Live graphs -/

namespace Live

variable {σ : Type} {h : Host σ} {read : String → Value → Value} {s : σ} {e : Lambda} {p : Prototype}

/-- Bound over a heap that holds still, a graph has the meaning of its body. -/
theorem adoptBound_eq_meaning (he : e.Identified) (hp : e.compile = .ok p) (hs : h.Still read s)
    (mode : BindingMode) (v : Value) : (adoptBound h p mode v s).1.root == e.body.meaning read v := by
  obtain ⟨hcopy, hbound, hroot⟩ := adoptBound_bound hp h mode v s
  have hbody := (Compile.represents_of_compile he hp).meaning hp hcopy hs.congr
    (adoptBound_settled hp mode v hs) hbound
  rw [← hcopy.body] at hbody
  exact BEq.trans hroot hbody

end Live

namespace Lambda

/-- The lambdas compile alike, and give equal results: in live graphs in which the operands have equal
results, whatever these graphs have been through, and in graphs that are bound to one value over one
heap. -/
structure Interchangeable (operands : List Expr) (e e' : Lambda) : Prop where
  compiles : (∃ p, e.compile = .ok p) ↔ ∃ p', e'.compile = .ok p'
  reached : ∀ {p p'}, e.compile = .ok p → e'.compile = .ok p' →
    ∀ {σ σ' : Type} {h : Host σ} {h' : Host σ'} {mode mode' l l'}, Live.Reached h p mode l →
      Live.Reached h' p' mode' l' → (∀ x ∈ operands, l.resultOf e x == l'.resultOf e' x) →
      l.ledger.get l.body == l'.ledger.get l'.body ∧
        (l.bound = true → l'.bound = true → l.root == l'.root)
  bound : ∀ {p p'}, e.compile = .ok p → e'.compile = .ok p' →
    ∀ {σ σ' : Type} {h : Host σ} {h' : Host σ'} {read s s'}, h.Still read s → h'.Still read s' →
      ∀ mode mode' v,
        (Live.adoptBound h p mode v s).1.root == (Live.adoptBound h' p' mode' v s').1.root

variable {e e' : Lambda} {operands : List Expr}

/-- It is enough to look at valuations. -/
theorem interchangeable_of_results (he : e.Identified) (he' : e'.Identified)
    (hcompiles : (∃ p, e.compile = .ok p) ↔ ∃ p', e'.compile = .ok p')
    (hresults : (∃ p, e.compile = .ok p) → ∀ {val val'}, e.Values val → e'.Values val' →
      (∀ x ∈ operands, x.resultIn val == x.resultIn val') → val e.body == val' e'.body) :
    e.Interchangeable operands e' where
  compiles := hcompiles
  reached := by
    intro p p' hp hp' σ σ' h h' mode mode' l l' hl hl' hoperands
    have hbody := hresults ⟨p, hp⟩ (hl.values he hp) (hl'.values he' hp') hoperands
    refine ⟨?_, fun hb hb' => ?_⟩
    · rwa [← hl.nodeOf_body he hp, ← hl'.nodeOf_body he' hp']
    · exact BEq.trans (hl.root_eq_body he hp hb)
        (BEq.trans hbody (BEq.symm (hl'.root_eq_body he' hp' hb')))
  bound := by
    intro p p' hp hp' σ σ' h h' read s s' hs hs' mode mode' v
    have hbody := hresults ⟨p, hp⟩ (e.meaning_values read v) (e'.meaning_values read v)
      fun _ _ => BEq.rfl
    exact BEq.trans (Live.adoptBound_eq_meaning he hp hs mode v)
      (BEq.trans hbody (BEq.symm (Live.adoptBound_eq_meaning he' hp' hs' mode' v)))

section

variable {op : BinaryOp} {a b parameter : Expr} {n n' : Nat} {S : Set Expr} (hS : Expr.Issued n S)
  (hS' : Expr.Issued n' S) (hparam : parameter ∈ S) (ha : a ∈ S) (hb : b ∈ S)

include hS hS' hparam ha hb

theorem mirror_interchangeable (hop : op.isSymmetric = true) :
    Interchangeable [a, b] ⟨parameter, (Build.binary op a b n).1⟩
      ⟨parameter, (Build.binary op.mirror b a n').1⟩ := by
  refine interchangeable_of_results ((Build.binary_issues op ha hb).identified hS hparam)
    ((Build.binary_issues op.mirror hb ha).identified hS' hparam) ?_ ?_
  · rw [compiles_binary_iff hop hS hparam ha hb,
      compiles_binary_iff (op.isSymmetric_mirror.trans hop) hS' hparam hb ha]
    simp only [Build.operandType_mirror, op.resultType_mirror hop, and_left_comm]
  · intro hcompiles val val' hval hval' hoperands
    have hdefined := ((compiles_binary_iff hop hS hparam ha hb).mp hcompiles).2.2
    obtain ⟨kernel, hk⟩ := (BinaryOp.build_ok_iff hop _ _).mpr hdefined
    exact Build.mirror_results hop hk rfl rfl hval hval' (hoperands a List.mem_cons_self)
      (hoperands b (List.mem_cons_of_mem _ List.mem_cons_self))

theorem notEqual_interchangeable :
    Interchangeable [a, b] ⟨parameter, (Build.binary .notEqual a b n).1⟩
      ⟨parameter, ((Build.binary .equal a b >>= Build.unary .not) n').1⟩ := by
  have hop : BinaryOp.notEqual.isSymmetric = true := rfl
  have hop' : BinaryOp.equal.isSymmetric = true := rfl
  have hequal := (Build.binary_issues .equal ha hb).identified hS' hparam
  have hdenied := ((Build.binary_issues .equal ha hb).bind fun _ _ _ h =>
    Build.unary_issues h .not).identified hS' hparam
  refine interchangeable_of_results ((Build.binary_issues .notEqual ha hb).identified hS hparam)
    hdenied ?_ ?_
  · rw [compiles_congr hdenied hequal rfl fun own => Build.not_equal_firstError a b own n',
      compiles_binary_iff hop hS hparam ha hb, compiles_binary_iff hop' hS' hparam ha hb]
    simp only [BinaryOp.resultType_notEqual]
    rfl
  · intro hcompiles val val' hval hval' hoperands
    have hdefined := ((compiles_binary_iff hop hS hparam ha hb).mp hcompiles).2.2
    obtain ⟨kernel, hk⟩ := (BinaryOp.build_ok_iff hop _ _).mpr hdefined
    exact Build.notEqual_results hk rfl rfl hval hval' (hoperands a List.mem_cons_self)
      (hoperands b (List.mem_cons_of_mem _ List.mem_cons_self))

omit hS' in
/-- Where the types differ the operator is not defined, and there is nothing to compile. -/
theorem mirror_type (hop : op.isSymmetric = true) (n' : Nat) :
    let e : Lambda := ⟨parameter, (Build.binary op a b n).1⟩
    let e' : Lambda := ⟨parameter, (Build.binary op.mirror b a n').1⟩
    e.body.type = e'.body.type ∨ op.isBitwise = true ∧ (∀ p, e.compile ≠ .ok p) ∧
      e.body.type = Build.operandType op a b ∧ e'.body.type = Build.operandType op b a := by
  intro e e'
  have htype : e.body.type = _ := Build.binary_type op a b n
  have htype' : e'.body.type = _ := Build.binary_type op.mirror b a n'
  rw [Build.operandType_mirror, Build.operandType_mirror] at htype'
  rw [htype, htype']
  obtain hsame | ⟨hbitwise, hundefined, hleft, hright⟩ :=
    Build.typeOver_mirror hop (Build.operandType op a b) (Build.operandType op b a)
  · exact .inl hsame.symm
  · refine .inr ⟨hbitwise, fun p hp => ?_, hleft, hright⟩
    obtain ⟨-, -, result, hresult⟩ := (compiles_binary_iff hop hS hparam ha hb).mp ⟨p, hp⟩
    exact hundefined result hresult

/-- With its operands exchanged a symmetric operator is its mirror, and to differ is not to be equal.
The type is the same as well, except where a bitwise operator is not defined for its operands: there is
nothing to compile then, and the type is that of the operand on the left. -/
theorem binary_mirror (hop : op.isSymmetric = true) :
    let e : Lambda := ⟨parameter, (Build.binary op a b n).1⟩
    let e' : Lambda := ⟨parameter, (Build.binary op.mirror b a n').1⟩
    e.Interchangeable [a, b] e' ∧
      (e.body.type = e'.body.type ∨ op.isBitwise = true ∧ (∀ p, e.compile ≠ .ok p) ∧
        e.body.type = Build.operandType op a b ∧ e'.body.type = Build.operandType op b a) ∧
      Interchangeable [a, b] ⟨parameter, (Build.binary .notEqual a b n).1⟩
        ⟨parameter, ((Build.binary .equal a b >>= Build.unary .not) n').1⟩ :=
  ⟨mirror_interchangeable hS hS' hparam ha hb hop, mirror_type hS hparam ha hb hop n',
    notEqual_interchangeable hS hS' hparam ha hb⟩

end

/-- The age of the boss, who is found, is less than a number, and the number is greater than it. -/
theorem age_mirrored :
    let h := World.host (World.dispatch World.callDepth) fun _ _ => .deaf
    let e : Lambda := ⟨bossAge.parameter, (Build.binary .lessThan bossAge.body .allBits 4).1⟩
    let e' : Lambda := ⟨bossAge.parameter, (Build.binary .greaterThan .allBits bossAge.body 4).1⟩
    ∃ p p', e.compile = .ok p ∧ e'.compile = .ok p' ∧ e.body.type = e'.body.type ∧
      (Live.adoptBound h p .live World.employee World.staff).1.root ==
        (Live.adoptBound h p' .oneTime World.employee World.staff).1.root ∧
      (Live.adoptBound h p .live World.employee World.staff).1.root == some (.bool true) := by
  intro h e e'
  have hop : BinaryOp.lessThan.isSymmetric = true := rfl
  obtain ⟨hmirror, htype, -⟩ := binary_mirror Expr.issued_allBits Expr.issued_allBits (.inr (.inl rfl))
    (.inr (.inr (.self _))) (.inl rfl) hop
  have hp : e.compile = .ok (e.compile.toOption.get rfl) := rfl
  obtain ⟨p', hp'⟩ := hmirror.compiles.mp ⟨_, hp⟩
  exact ⟨_, p', hp, hp', htype.resolve_right nofun,
    hmirror.bound hp hp' World.staff_quiet.still World.staff_quiet.still .live .oneTime _,
    by decide +kernel⟩

/-- A text and a number have no conjunction, and written either way it has the type of what comes
first. -/
theorem mirror_type_of_undefined :
    let text : Expr := .constant 1 .str (.str 0 "a")
    let number : Expr := .constant 2 .i32 (.i32 1)
    Expr.Issued 3 {number, text, .parameter 0 (.object "Person" true) "p"} ∧
      BinaryOp.and.isSymmetric = true ∧
      (Build.binary .and text number 3).1.type ≠
        (Build.binary (BinaryOp.mirror .and) number text 3).1.type := by
  intro text number
  have hparam : Expr.Issued 1 {.parameter 0 (.object "Person" true) "p"} :=
    ⟨fun he hf => Expr.part_parameter.mp (he ▸ hf), fun he => he ▸ Nat.zero_lt_one,
      fun he hf _ => he.trans hf.symm⟩
  exact ⟨(hparam.insert rfl fun _ hf => .inl (Expr.part_constant.mp hf)).insert rfl
    fun _ hf => .inl (Expr.part_constant.mp hf), rfl, by decide⟩

end Lambda

end LiveExpr
