import LiveExpr.Proofs.Compile.Represents
import LiveExpr.Expr.Build

/-!
Static types that were inferred. An expression can be written with any type at an operator, but the
builders give operators the type their operands determine, except where a conversion names its own.
-/

namespace LiveExpr

namespace Expr

/-- The type of an operator is the one that is inferred for its operands. -/
def TypeInferred : Expr → Prop
  | unary _ t op operand =>
    op = .convert ∨ op = .typeAs ∨ t = (op.resultType operand.type).toOption.getD operand.type
  | binary _ t op left right =>
    t = (op.resultType left.type right.type).toOption.getD (Build.fallbackType op left.type)
  | _ => True

def Inferred (e : Expr) : Prop :=
  ∀ f : Expr, f.Part e → f.TypeInferred

theorem Inferred.member {target : Expr} (h : target.Inferred) (i : Nat) (t : ValueType)
    (name reads : String) : (Expr.member i t target name reads).Inferred := by
  intro f hf
  rcases part_member.mp hf with rfl | hf
  · trivial
  · exact h f hf

theorem Inferred.unary {i : Nat} {t : ValueType} {op : UnaryOp} {operand : Expr}
    (h : operand.Inferred) (ht : (Expr.unary i t op operand).TypeInferred) :
    (Expr.unary i t op operand).Inferred := by
  intro f hf
  rcases part_unary.mp hf with rfl | hf
  · exact ht
  · exact h f hf

theorem Inferred.binary {i : Nat} {t : ValueType} {op : BinaryOp} {left right : Expr}
    (hl : left.Inferred) (hr : right.Inferred) (ht : (Expr.binary i t op left right).TypeInferred) :
    (Expr.binary i t op left right).Inferred := by
  intro f hf
  rcases part_binary.mp hf with rfl | hf | hf
  · exact ht
  · exact hl f hf
  · exact hr f hf

end Expr

def Lambda.Inferred (l : Lambda) : Prop :=
  ∀ e : Expr, l.Mentions e → e.TypeInferred

/-! ## What the builders make -/

namespace Build

/-- Whatever identities are still free, what the builder makes satisfies `P`. -/
def Makes {α : Type} (m : Build α) (P : α → Prop) : Prop :=
  ∀ s : Nat, P (m s).1

theorem Makes.pure {α : Type} {P : α → Prop} {a : α} (ha : P a) : Makes (Pure.pure a) P :=
  fun _ => ha

theorem Makes.bind {α β : Type} {m : Build α} {f : α → Build β} {P : α → Prop} {Q : β → Prop}
    (hm : Makes m P) (hf : ∀ a, P a → Makes (f a) Q) : Makes (m >>= f) Q :=
  fun s => hf _ (hm s) _

variable {e l r : Expr}

theorem parameter_makes (name : String) (t : ValueType) : Makes (parameter name t) Expr.Inferred := by
  intro s f hf
  obtain rfl := Expr.part_parameter.mp hf
  trivial

theorem constantOf_makes (v : Value) (t : ValueType) : Makes (constantOf v t) Expr.Inferred := by
  intro s f hf
  obtain rfl := Expr.part_constant.mp hf
  trivial

theorem memberReading_makes (he : e.Inferred) (name : String) (t : ValueType) (reads : String) :
    Makes (memberReading e name t reads) Expr.Inferred :=
  fun s => he.member s t name reads

theorem unary_makes (he : e.Inferred) (op : UnaryOp) : Makes (unary op e) Expr.Inferred :=
  fun _ => he.unary (.inr (.inr rfl))

theorem convert_makes (he : e.Inferred) (t : ValueType) : Makes (convert e t) Expr.Inferred :=
  fun _ => he.unary (.inl rfl)

theorem typeAs_makes (he : e.Inferred) (t : ValueType) : Makes (typeAs e t) Expr.Inferred :=
  fun _ => he.unary (.inr (.inl rfl))

theorem adoptType_makes (hl : l.Inferred) (hr : r.Inferred) :
    Makes (adoptType l r) fun (x, y) => x.Inferred ∧ y.Inferred := by
  unfold adoptType
  split
  · exact (constantOf_makes _ _).bind fun _ hx => .pure ⟨hx, hr⟩
  · split
    · exact (constantOf_makes _ _).bind fun _ hy => .pure ⟨hl, hy⟩
    · exact .pure ⟨hl, hr⟩

theorem widen_makes (he : e.Inferred) (t : ValueType) : Makes (widen e t) Expr.Inferred := by
  unfold widen
  split
  · exact .pure he
  · exact convert_makes he t

theorem coerceOperands_makes (op : BinaryOp) (hl : l.Inferred) (hr : r.Inferred) :
    Makes (coerceOperands op l r) fun (x, y) => x.Inferred ∧ y.Inferred := by
  refine (adoptType_makes hl hr).bind fun (x, y) ⟨hx, hy⟩ => ?_
  dsimp only
  split
  · exact .pure ⟨hx, hy⟩
  · split
    · exact .pure ⟨hx, hy⟩
    · exact (widen_makes hx _).bind fun _ hx' => (widen_makes hy _).bind fun _ hy' => .pure ⟨hx', hy'⟩

theorem binary_makes (op : BinaryOp) (hl : l.Inferred) (hr : r.Inferred) :
    Makes (binary op l r) Expr.Inferred :=
  (coerceOperands_makes op hl hr).bind fun (_, _) ⟨hx, hy⟩ _ => hx.binary hy rfl

end Build

/-! ## Operators that have a kernel -/

theorem UnaryOp.resultType_of_build {op : UnaryOp} {operand t : ValueType} {kernel : UnaryKernel}
    (h : UnaryKernel.build op operand t = .ok kernel) (hop : op ≠ .convert ∧ op ≠ .typeAs) :
    ∃ result, op.resultType operand = .ok result := by
  cases hresult : op.resultType operand with
  | ok result => exact ⟨result, rfl⟩
  | error cause => cases op <;> simp_all [UnaryKernel.build, Except.map]

theorem BinaryOp.resultType_of_build {op : BinaryOp} {left right : ValueType} {kernel : BinaryKernel}
    (h : BinaryKernel.build op left right = .ok kernel) :
    ∃ result, op.resultType left right = .ok result := by
  obtain ⟨result, hresult, -⟩ := Compile.ok_of_bind h
  exact ⟨result, hresult⟩

theorem BinaryOp.resultType_eq_ok {op : BinaryOp} {left right t : ValueType} :
    op.resultType left right = .ok t ↔ op.resultType? left right = some t := by
  unfold resultType
  split <;> simp_all

theorem BinaryOp.resultType_of_comparison {op : BinaryOp} {left right t : ValueType}
    (hop : op = .equal ∨ op = .notEqual ∨ op.isRelational = true)
    (h : op.resultType left right = .ok t) : t = .bool := by
  rw [resultType_eq_ok] at h
  cases op <;> simp_all [resultType?, isRelational]

end LiveExpr
