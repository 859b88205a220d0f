import LiveExpr.Proofs.Compile.Represents
import LiveExpr.Expr.Build

/-!
The builders give every node an identity of its own. Expressions in which an identity stands for one
expression stay so when more is built of them, so that lambdas that were built share what they are
meant to share and nothing else.
-/

namespace LiveExpr

/-! ## Identities that have been given out -/

/-- The expressions of `S`, which contains the parts of each, have identities below `n`, the next one
to be given out, and no two of them have the same. -/
structure Expr.Issued (n : Nat) (S : Set Expr) : Prop where
  parts : ∀ {e f}, e ∈ S → Expr.Part f e → f ∈ S
  below : ∀ {e}, e ∈ S → e.id < n
  unique : ∀ {e f}, e ∈ S → f ∈ S → e.id = f.id → e = f

namespace Expr.Issued

variable {n : Nat} {S : Set Expr} {e : Expr} {l : Lambda}

/-- A new node over expressions that are there. -/
theorem insert (hS : Issued n S) (hid : e.id = n) (hparts : ∀ f : Expr, f.Part e → f = e ∨ f ∈ S) :
    Issued (n + 1) (Insert.insert e S) where
  parts := by
    rintro g f (rfl | hg) hf
    · exact hparts f hf
    · exact .inr (hS.parts hg hf)
  below := by
    rintro g (rfl | hg)
    · omega
    · exact Nat.lt_succ_of_lt (hS.below hg)
  unique := by
    rintro f g (rfl | hf) (rfl | hg) hsame
    · rfl
    · have := hS.below hg
      omega
    · have := hS.below hf
      omega
    · exact hS.unique hf hg hsame

theorem mentioned (hS : Issued n S) (hparam : l.parameter ∈ S) (hbody : l.body ∈ S)
    (he : l.Mentions e) : e ∈ S := by
  rcases he with rfl | he
  · exact hparam
  · exact hS.parts hbody he

theorem identified (hS : Issued n S) (hparam : l.parameter ∈ S) (hbody : l.body ∈ S) :
    l.Identified :=
  fun _ _ he hf => hS.unique (hS.mentioned hparam hbody he) (hS.mentioned hparam hbody hf)

end Expr.Issued

/-- What a lambda mentions has been given identities, each to one expression. -/
theorem Lambda.Identified.issued {l : Lambda} (hl : l.Identified) {i : Nat} {t : ValueType}
    {name : String} (hparam : l.parameter = .parameter i t name) {n : Nat}
    (hn : ∀ e, l.Mentions e → e.id < n) : Expr.Issued n {e | l.Mentions e} where
  parts := by
    rintro e f (rfl | he) hf
    · rw [hparam, Expr.part_parameter] at hf
      exact .inl (hf.trans hparam.symm)
    · exact .inr (hf.trans he)
  below := hn _
  unique := hl _ _

/-! ## What the builders give out -/

namespace Build

/-- Over the expressions of `S` the builder makes something that satisfies `P`, together with the
expressions that are there afterwards. -/
def Issues {α : Type} (S : Set Expr) (m : Build α) (P : Set Expr → α → Prop) : Prop :=
  ∀ n, Expr.Issued n S → ∃ S', S ⊆ S' ∧ Expr.Issued (m n).2 S' ∧ P S' (m n).1

variable {S : Set Expr} {e l r : Expr}

theorem Issues.pure {α : Type} {P : Set Expr → α → Prop} {a : α} (ha : P S a) :
    Issues S (Pure.pure a) P :=
  fun _ hS => ⟨S, subset_rfl, hS, ha⟩

theorem Issues.bind {α β : Type} {m : Build α} {f : α → Build β} {P : Set Expr → α → Prop}
    {Q : Set Expr → β → Prop} (hm : Issues S m P)
    (hf : ∀ S' a, S ⊆ S' → P S' a → Issues S' (f a) Q) : Issues S (m >>= f) Q := by
  intro n hS
  obtain ⟨S₁, hsub, hS₁, ha⟩ := hm n hS
  obtain ⟨S₂, hsub', hS₂, hb⟩ := hf S₁ (m n).1 hsub ha _ hS₁
  exact ⟨S₂, hsub.trans hsub', hS₂, hb⟩

/-- A lambda over what has been built. -/
theorem Issues.identified {m : Build Expr} (hm : Issues S m fun S' e => e ∈ S') {n : Nat}
    (hS : Expr.Issued n S) {parameter : Expr} (hparam : parameter ∈ S) :
    Lambda.Identified ⟨parameter, (m n).1⟩ := by
  obtain ⟨S', hsub, hS', he⟩ := hm n hS
  exact hS'.identified (hsub hparam) he

theorem node_issues {make : Nat → Expr} (hid : ∀ n, (make n).id = n)
    (hparts : ∀ n, ∀ f : Expr, f.Part (make n) → f = make n ∨ ∃ g ∈ S, f.Part g) :
    Issues S (node make) fun S' e => e ∈ S' := by
  intro n hS
  refine ⟨Insert.insert (make n) S, Set.subset_insert _ _, hS.insert (hid n) fun f hf => ?_,
    Set.mem_insert _ _⟩
  exact (hparts n f hf).imp_right fun ⟨g, hg, hfg⟩ => hS.parts hg hfg

theorem constantOf_issues (v : Value) (t : ValueType) :
    Issues S (constantOf v t) fun S' e => e ∈ S' :=
  node_issues (fun _ => rfl) fun _ _ hf => .inl (Expr.part_constant.mp hf)

theorem unaryNode_issues (he : e ∈ S) (t : ValueType) (op : UnaryOp) :
    Issues S (node (.unary · t op e)) fun S' e => e ∈ S' :=
  node_issues (fun _ => rfl) fun _ _ hf =>
    (Expr.part_unary.mp hf).imp_right fun hf => ⟨e, he, hf⟩

theorem unary_issues (he : e ∈ S) (op : UnaryOp) : Issues S (unary op e) fun S' e => e ∈ S' :=
  unaryNode_issues he _ op

theorem widen_issues (he : e ∈ S) (t : ValueType) : Issues S (widen e t) fun S' e => e ∈ S' := by
  unfold widen
  split
  · exact .pure he
  · exact unaryNode_issues he t .convert

theorem adoptType_issues (hl : l ∈ S) (hr : r ∈ S) :
    Issues S (adoptType l r) fun S' (x, y) => x ∈ S' ∧ y ∈ S' := by
  unfold adoptType
  split
  · exact (constantOf_issues _ _).bind fun _ _ hsub hx => .pure ⟨hx, hsub hr⟩
  · split
    · exact (constantOf_issues _ _).bind fun _ _ hsub hy => .pure ⟨hsub hl, hy⟩
    · exact .pure ⟨hl, hr⟩

theorem coerceOperands_issues (op : BinaryOp) (hl : l ∈ S) (hr : r ∈ S) :
    Issues S (coerceOperands op l r) fun S' (x, y) => x ∈ S' ∧ y ∈ S' := by
  refine (adoptType_issues hl hr).bind fun S₁ (x, y) _ ⟨hx, hy⟩ => ?_
  dsimp only
  split
  · exact .pure ⟨hx, hy⟩
  · split
    · exact .pure ⟨hx, hy⟩
    · refine (widen_issues hx _).bind fun S₂ x' hsub hx' => ?_
      exact (widen_issues (hsub hy) _).bind fun S₃ y' hsub' hy' => .pure ⟨hsub' hx', hy'⟩

theorem binary_issues (op : BinaryOp) (hl : l ∈ S) (hr : r ∈ S) :
    Issues S (binary op l r) fun S' e => e ∈ S' := by
  refine (coerceOperands_issues op hl hr).bind fun S' (x, y) _ ⟨hx, hy⟩ => ?_
  refine node_issues (fun _ => rfl) fun _ _ hf => (Expr.part_binary.mp hf).imp_right fun hf => ?_
  exact hf.elim (fun hf => ⟨x, hx, hf⟩) fun hf => ⟨y, hy, hf⟩

end Build

end LiveExpr
