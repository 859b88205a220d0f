import LiveExpr.Proofs.Build.Formula
import LiveExpr.Proofs.Live.Valuation

/-!
Conjunctions, disjunctions and negations in a live graph. Presence is combined by the node of a
connective and null by its kernel, and together they decide a tree by its leaves alone: an absorbing
leaf before an absent one, an absent one before a null. The two connectives are exact duals in this, so
that negations can be pushed to the leaves.
-/

namespace LiveExpr

/-! ## One operator -/

theorem Truth.result_scalar (t : Truth) : t.result.Scalar := by
  intro v hv
  cases t <;> cases hv
  · exact .null
  · exact .bool _

theorem Truth.eq_of_equal {r : Result} {t : Truth} (h : r == t.result) : r = t.result :=
  t.result_scalar.eq_of_equal h

/-- The node and the kernel of a connective come to the verdict between them. -/
theorem Connective.onResults_result (c : Connective) (t u : Truth) :
    c.op.onResults true (.logical c.bitwise) t.result u.result = (c.verdict [t, u]).result := by
  cases c <;> rcases t with _ | _ | _ | _ <;> rcases u with _ | _ | _ | _ <;> rfl

theorem Truth.complement_result (t : Truth) (target : ValueType) :
    Result.mapPresent (UnaryKernel.complement target).apply t.result = t.not.result := by
  cases t <;> rfl

theorem Expr.resultIn_of_not_null {e : Expr} (he : e.isNullConstant = false) (val : Expr → Result) :
    e.resultIn val = val e := by
  rw [resultIn, he]
  exact if_neg Bool.false_ne_true

/-- In a valuation a null constant has its null. -/
theorem Lambda.Values.resultIn {l : Lambda} {val : Expr → Result} (hv : l.Values val) {e : Expr}
    (he : e.Part l.body) : val e == e.resultIn val :=
  Build.Retyped.result hv (.same rfl) he

theorem Build.operatorResult_boolean {d e : Expr} (hd : d.type.isBoolean = true)
    (he : e.type.isBoolean = true) (op : BinaryOp) (kernel : BinaryKernel) (val : Expr → Result) :
    operatorResult op kernel val d e = op.onResults true kernel (d.resultIn val) (e.resultIn val) := by
  rw [operatorResult, operandType_boolean _ hd he, operandType_boolean _ he hd,
    typeBeside_boolean hd he, typeBeside_boolean he hd]
  simp [Result.recast]

/-! ## Whole trees -/

/-- Whatever is shared in it, the expression of a formula has the truth of the formula. -/
theorem Formula.Writes.result {l : Lambda} {val : Expr → Result} (hv : l.Values val) {f : Formula}
    {e : Expr} (h : f.Writes e) (he : e.isNullConstant = false → e.Part l.body) {ρ : Expr → Truth}
    (hρ : ∀ x ∈ f.leaves, x.resultIn val = (ρ x).result) : e.resultIn val = (f.truth ρ).result := by
  induction h with
  | leaf => exact hρ _ List.mem_cons_self
  | @not f e n h ih =>
      have hk : UnaryKernel.build .not e.type (Build.typeOn .not e.type) =
          .ok (.complement (Build.typeOn .not e.type)) := by
        rw [UnaryKernel.build, UnaryOp.resultType_boolean h.isBoolean]
        rfl
      obtain ⟨hpart, hresult⟩ := Build.unary_result hv hk n (he rfl)
      have hoperand := hv.resultIn hpart
      rw [ih (fun _ => hpart) hρ] at hoperand
      rw [Truth.eq_of_equal hoperand, Truth.complement_result] at hresult
      rw [Expr.resultIn_of_not_null rfl]
      exact Truth.eq_of_equal hresult
  | @join f g d e c n hd hg ihd ihe =>
      obtain ⟨i, x, y, heq, hx, hy⟩ := Build.binary_spec c.op d e n
      have hresult := Build.binary_result hv
        (Build.connective_operands c hd.isBoolean hg.isBoolean).2 n
      rw [heq] at he hresult ⊢
      have hnode := he rfl
      have hleft := ihd (fun hnull => .trans (hx.part hnull) (.trans (.left _ _ _ _ (.self _)) hnode))
        fun x hx => hρ x (List.mem_append_left _ hx)
      have hright := ihe (fun hnull => .trans (hy.part hnull) (.trans (.right _ _ _ _ (.self _)) hnode))
        fun x hx => hρ x (List.mem_append_right _ hx)
      replace hresult := hresult hnode
      rw [Build.operatorResult_boolean hd.isBoolean hg.isBoolean, hleft, hright,
        c.onResults_result] at hresult
      rw [Expr.resultIn_of_not_null rfl]
      exact Truth.eq_of_equal hresult

/-! ## Live graphs -/

namespace Live

variable {σ σ' : Type} {h : Host σ} {h' : Host σ'} {e e' : Lambda} {p p' : Prototype}
  {mode mode' : BindingMode} {l l' : Live} {f : Formula} {ρ : Expr → Truth}

theorem Reached.shows_truth (he : e.Identified) (hp : e.compile = .ok p) (hl : Reached h p mode l)
    (hf : f.Writes e.body) (hρ : ∀ x ∈ f.leaves, l.resultOf e x = (ρ x).result) :
    l.Shows (f.truth ρ).result := by
  have hv := hl.values he hp
  have hbody := hv.resultIn (.self e.body)
  rw [hf.result hv (fun _ => .self _) hρ] at hbody
  exact hl.shows he hp (f.truth ρ).result_scalar hbody

/-- Formulas over the same leaves can be compiled alike. -/
theorem compiles_of_leaves (he : e.Identified) (hp : e.compile = .ok p) (hf : f.Writes e.body)
    (he' : e'.Identified) (hparam : e'.parameter = e.parameter) {f' : Formula}
    (hf' : f'.Writes e'.body) (hleaves : f'.leaves = f.leaves) : ∃ p', e'.compile = .ok p' := by
  obtain ⟨own, t, name, -, hown, -⟩ := Compile.compile_spec hp
  have hclear := (Lambda.compiles_iff he hown).mp ⟨p, hp⟩
  rw [Lambda.compiles_iff he' (hparam.trans hown), hf'.firstError, hleaves, ← hf.firstError]
  exact hclear

/-- A tree of conjunctions shows the absorbing value if a leaf has it, otherwise nothing if a leaf is
absent, otherwise null if a leaf is null, and otherwise true; a tree of disjunctions likewise. With
negations among them, the tree with the negations pushed to the leaves can be written, compiles as
well, and shows the same whenever its leaves do. -/
theorem Reached.shows_verdict (he : e.Identified) (hp : e.compile = .ok p) (hl : Reached h p mode l)
    (hf : f.Writes e.body) (hρ : ∀ x ∈ f.leaves, l.resultOf e x = (ρ x).result) :
    (∀ c, f.JoinedBy c → l.Shows (c.verdict (f.leaves.map ρ)).result) ∧
      (f.push false).NegatesLeaves ∧
      (∀ e' : Lambda, e'.Identified → e'.parameter = e.parameter → (f.push false).Writes e'.body →
        ∃ p', e'.compile = .ok p' ∧
          ∀ (σ' : Type) (h' : Host σ') mode' l', Reached h' p' mode' l' →
            (∀ x ∈ f.leaves, l'.resultOf e' x = (ρ x).result) →
            ∃ r, l.Shows r ∧ l'.Shows r) ∧
      ∀ n S, Expr.Issued n S → e.parameter ∈ S → (∀ x ∈ f.leaves, x ∈ S) →
        let e' : Lambda := ⟨e.parameter, ((f.push false).build n).1⟩
        e'.Identified ∧ (f.push false).Writes e'.body := by
  have hshows := hl.shows_truth he hp hf hρ
  refine ⟨fun c hc => ?_, f.push_negatesLeaves false, fun e' he' hparam hf' => ?_,
    fun n S hS hparam hleaves => ?_⟩
  · rwa [← Formula.truth_of_joinedBy hc]
  · obtain ⟨p', hp'⟩ := compiles_of_leaves he hp hf he' hparam hf' (f.leaves_push false)
    refine ⟨p', hp', fun σ' h' mode' l' hl' hρ' => ⟨_, hshows, ?_⟩⟩
    have hshows' := hl'.shows_truth he' hp' hf' (ρ := ρ) (by rwa [f.leaves_push])
    rwa [f.truth_push] at hshows'
  · have hin : ∀ x ∈ (f.push false).leaves, x ∈ S := by rwa [f.leaves_push]
    have hboolean : ∀ x ∈ (f.push false).leaves, x.type.isBoolean = true := by
      rw [f.leaves_push]
      exact hf.leaves_isBoolean
    exact ⟨(Formula.build_issues hin).identified hS hparam, Formula.build_writes hboolean n⟩

end Live

/-! ## An example -/

namespace Formula

/-- `p.boss.boss.retired`, where the boss may have none above. -/
def retired : Expr :=
  .member 3 (.nullable .bool)
    (.member 2 (.object "Person" true)
      (.member 1 (.object "Person" true) (.parameter 0 (.object "Person" true) "p") "boss" "boss")
      "boss" "boss") "retired" "retired"

/-- `p.boss == p` -/
def selfLed : Expr :=
  .binary 4 .bool .equal
    (.member 1 (.object "Person" true) (.parameter 0 (.object "Person" true) "p") "boss" "boss")
    (.parameter 0 (.object "Person" true) "p")

def notSelfLed : Formula :=
  .not (.join .and (.leaf retired) (.leaf selfLed))

theorem issued_notSelfLed :
    Expr.Issued 5 {x | x.Part retired ∨ x.Part selfLed} := by
  refine ⟨fun he hf => he.imp hf.trans hf.trans, fun he => ?_, fun he hf hid => ?_⟩
  · simp only [Set.mem_ofPred_eq, retired, selfLed, Expr.part_member, Expr.part_binary,
      Expr.part_parameter, or_assoc] at he
    rcases he with rfl | rfl | rfl | rfl | rfl | rfl | rfl | rfl <;> decide
  · simp only [Set.mem_ofPred_eq, retired, selfLed, Expr.part_member, Expr.part_binary,
      Expr.part_parameter, or_assoc] at he hf
    rcases he with rfl | rfl | rfl | rfl | rfl | rfl | rfl | rfl <;>
      rcases hf with rfl | rfl | rfl | rfl | rfl | rfl | rfl | rfl <;>
      first | rfl | cases hid

end Formula

def Lambda.notSelfLed (pushed : Bool) : Lambda :=
  ⟨.parameter 0 (.object "Person" true) "p",
    ((if pushed then Formula.notSelfLed.push false else Formula.notSelfLed).build 5).1⟩

def Prototype.notSelfLed (pushed : Bool) : Prototype :=
  (Lambda.notSelfLed pushed).compile.toOption.get (by cases pushed <;> rfl)

theorem Lambda.compile_notSelfLed (pushed : Bool) :
    (notSelfLed pushed).compile = .ok (.notSelfLed pushed) := by
  cases pushed <;> rfl

theorem Lambda.notSelfLed_identified (pushed : Bool) : (notSelfLed pushed).Identified := by
  have hleaves : ∀ x ∈ (if pushed then Formula.notSelfLed.push false else Formula.notSelfLed).leaves,
      x ∈ {x | x.Part Formula.retired ∨ x.Part Formula.selfLed} := by
    cases pushed <;> simp [Formula.notSelfLed, Formula.push, Formula.leaves, Expr.Part.self]
  exact (Formula.build_issues hleaves).identified Formula.issued_notSelfLed
    (.inl (by simp [Formula.retired]))

/-- Nobody is above the boss, so that whether they have retired is absent; but the employee has another
boss, and that decides. -/
theorem Live.shows_notSelfLed :
    let h := World.host (World.dispatch World.callDepth) fun _ _ => .deaf
    let l pushed := (adoptBound h (.notSelfLed pushed) .live World.employee World.staff).1
    (l false).resultOf (.notSelfLed false) Formula.retired = none ∧
      (∃ r, (l false).Shows r ∧ (l true).Shows r) ∧ ((l true).root == some (.bool true)) = true := by
  intro h l
  let ρ : Expr → Truth := fun x => if x.id = 3 then .absent else .known false
  have hreached : ∀ pushed, Reached h (.notSelfLed pushed) .live (l pushed) :=
    fun _ => .bind World.employee _ (.adopt World.staff)
  have hleaves : ∀ pushed, ∀ x ∈ Formula.notSelfLed.leaves,
      (l pushed).resultOf (.notSelfLed pushed) x = (ρ x).result := by
    intro pushed x hx
    refine Truth.eq_of_equal ?_
    simp only [Formula.notSelfLed, Formula.leaves, List.singleton_append, List.mem_cons,
      List.not_mem_nil, or_false] at hx
    rcases hx with rfl | rfl <;> cases pushed <;> decide +kernel
  have hboolean : ∀ x ∈ Formula.notSelfLed.leaves, x.type.isBoolean = true := by decide
  obtain ⟨-, -, hpushed, -⟩ := (hreached false).shows_verdict (Lambda.notSelfLed_identified false)
    (Lambda.compile_notSelfLed false) (Formula.build_writes hboolean 5) (hleaves false)
  obtain ⟨p', hp', hagree⟩ := hpushed (.notSelfLed true) (Lambda.notSelfLed_identified true) rfl
    (Formula.build_writes (f := Formula.notSelfLed.push false) hboolean 5)
  cases (Lambda.compile_notSelfLed true).symm.trans hp'
  exact ⟨hleaves false _ List.mem_cons_self,
    hagree _ h .live (l true) (hreached true) (hleaves true), by decide +kernel⟩

end LiveExpr
