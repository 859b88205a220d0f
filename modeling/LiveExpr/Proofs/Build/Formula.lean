import LiveExpr.Proofs.Build.Coercion
import LiveExpr.Proofs.Build.Identity

/-!
Trees of conjunctions, disjunctions and negations over boolean expressions, what they come to where a
leaf may be absent or null besides being true or false, and their negation normal form. The order in
which the leaves of a conjunction or a disjunction are joined does not matter, and the two are dual.
-/

namespace LiveExpr

/-! ## Truth -/

/-- What a boolean expression comes to: `unknown` is a null that is there. -/
inductive Truth
  | absent
  | unknown
  | known (b : Bool)
deriving DecidableEq

namespace Truth

def result : Truth → Result
  | absent => none
  | unknown => some .null
  | known b => some (.bool b)

def not : Truth → Truth
  | absent => absent
  | unknown => unknown
  | known b => known !b

@[simp] theorem not_not (t : Truth) : t.not.not = t := by
  cases t <;> simp [not]

end Truth

inductive Connective
  | and | or
deriving DecidableEq

namespace Connective

def op : Connective → BinaryOp
  | and => .and
  | or => .or

def bitwise : Connective → Bitwise
  | and => .and
  | or => .or

def dual : Connective → Connective
  | and => or
  | or => and

/-- The truth value that decides alone. -/
def absorbing : Connective → Bool
  | and => false
  | or => true

@[simp] theorem absorbing_dual (c : Connective) : c.dual.absorbing = !c.absorbing := by
  cases c <;> rfl

/-- What a conjunction or a disjunction of all of these comes to, in whatever order it is built. -/
def verdict (c : Connective) (ts : List Truth) : Truth :=
  if .known c.absorbing ∈ ts then .known c.absorbing
  else if .absent ∈ ts then .absent
  else if .unknown ∈ ts then .unknown
  else .known !c.absorbing

variable (c : Connective)

@[simp] theorem verdict_singleton (t : Truth) : c.verdict [t] = t := by
  cases t with
  | known b => cases b <;> cases c <;> rfl
  | _ => rfl

/-- A tree may be cut in two anywhere: its verdict is that of the verdicts of the two parts. -/
theorem verdict_append (ts us : List Truth) :
    c.verdict (ts ++ us) = c.verdict [c.verdict ts, c.verdict us] := by
  unfold verdict
  simp only [List.mem_append]
  by_cases hts : Truth.known c.absorbing ∈ ts <;> by_cases hus : Truth.known c.absorbing ∈ us <;>
    by_cases ats : Truth.absent ∈ ts <;> by_cases aus : Truth.absent ∈ us <;>
    by_cases uts : Truth.unknown ∈ ts <;> by_cases uus : Truth.unknown ∈ us <;>
    simp [hts, hus, ats, aus, uts, uus]

theorem not_verdict (ts : List Truth) :
    (c.verdict ts).not = c.dual.verdict (ts.map Truth.not) := by
  have hmem : ∀ t : Truth, t ∈ ts.map Truth.not ↔ t.not ∈ ts := by
    intro t
    constructor
    · intro ht
      obtain ⟨u, hu, rfl⟩ := List.mem_map.mp ht
      rwa [Truth.not_not]
    · exact fun ht => List.mem_map.mpr ⟨t.not, ht, t.not_not⟩
  unfold verdict
  simp only [hmem, absorbing_dual]
  by_cases habsorbing : Truth.known c.absorbing ∈ ts <;> by_cases habsent : Truth.absent ∈ ts <;>
    by_cases hunknown : Truth.unknown ∈ ts <;>
    simp [Truth.not, habsorbing, habsent, hunknown]

end Connective

/-! ## Formulas -/

/-- A tree over boolean expressions. A leaf or a part of the tree can occur any number of times. -/
inductive Formula
  | leaf (e : Expr)
  | not (f : Formula)
  | join (c : Connective) (f g : Formula)

namespace Formula

variable {ρ : Expr → Truth}

def leaves : Formula → List Expr
  | leaf e => [e]
  | not f => f.leaves
  | join _ f g => f.leaves ++ g.leaves

def truth (ρ : Expr → Truth) : Formula → Truth
  | leaf e => ρ e
  | not f => (f.truth ρ).not
  | join c f g => c.verdict [f.truth ρ, g.truth ρ]

/-- Nothing but `c` stands between the leaves. -/
def JoinedBy (c : Connective) : Formula → Prop
  | leaf _ => True
  | not _ => False
  | join c' f g => c' = c ∧ f.JoinedBy c ∧ g.JoinedBy c

theorem truth_of_joinedBy {c : Connective} {f : Formula} (hf : f.JoinedBy c) :
    f.truth ρ = c.verdict (f.leaves.map ρ) := by
  induction f with
  | leaf e => exact (c.verdict_singleton (ρ e)).symm
  | not => cases hf
  | join c' f g ihf ihg =>
      obtain ⟨rfl, hf, hg⟩ := hf
      rw [truth, leaves, List.map_append, Connective.verdict_append, ihf hf, ihg hg]

/-- The formula, or its negation, with De Morgan's laws applied down to the leaves. -/
def push (negated : Bool) : Formula → Formula
  | leaf e => if negated then not (leaf e) else leaf e
  | not f => f.push !negated
  | join c f g => join (if negated then c.dual else c) (f.push negated) (g.push negated)

/-- Only leaves are negated. -/
def NegatesLeaves : Formula → Prop
  | leaf _ => True
  | not (leaf _) => True
  | not _ => False
  | join _ f g => f.NegatesLeaves ∧ g.NegatesLeaves

theorem push_negatesLeaves (negated : Bool) (f : Formula) : (f.push negated).NegatesLeaves := by
  induction f generalizing negated with
  | leaf => cases negated <;> trivial
  | not f ih => exact ih _
  | join c f g ihf ihg => exact ⟨ihf _, ihg _⟩

@[simp] theorem leaves_push (negated : Bool) (f : Formula) : (f.push negated).leaves = f.leaves := by
  induction f generalizing negated with
  | leaf => cases negated <;> rfl
  | not f ih => exact ih _
  | join c f g ihf ihg => rw [push, leaves, ihf, ihg, leaves]

theorem truth_push (negated : Bool) (f : Formula) :
    (f.push negated).truth ρ = if negated then (f.truth ρ).not else f.truth ρ := by
  induction f generalizing negated with
  | leaf => cases negated <;> rfl
  | not f ih =>
      rw [push, ih, truth]
      cases negated <;> simp
  | join c f g ihf ihg =>
      rw [push, truth, ihf, ihg, truth]
      cases negated with
      | false => rfl
      | true => exact (c.not_verdict [f.truth ρ, g.truth ρ]).symm

/-! ## Formulas as expressions -/

/-- The expression is built as the formula says, over boolean leaves. Parts that occur more than once
may be one expression or several. -/
inductive Writes : Formula → Expr → Prop
  | leaf {e : Expr} : e.type.isBoolean = true → Writes (leaf e) e
  | not {f : Formula} {e : Expr} (n : Nat) : Writes f e → Writes (not f) (Build.unary .not e n).1
  | join {f g : Formula} {d e : Expr} (c : Connective) (n : Nat) : Writes f d → Writes g e →
      Writes (join c f g) (Build.binary c.op d e n).1

theorem Writes.leaves_isBoolean {f : Formula} {e : Expr} (h : f.Writes e) :
    ∀ x ∈ f.leaves, x.type.isBoolean = true := by
  induction h with
  | leaf he => simpa [leaves] using he
  | not n _ ih => exact ih
  | join c n _ _ ihd ihe => exact List.forall_mem_append.mpr ⟨ihd, ihe⟩

/-- Builds the formula with a node for every connective and every negation in it. -/
def build : Formula → Build Expr
  | leaf e => return e
  | not f => do Build.unary .not (← f.build)
  | join c f g => do Build.binary c.op (← f.build) (← g.build)

theorem build_writes {f : Formula} (hf : ∀ e ∈ f.leaves, e.type.isBoolean = true) :
    Build.Makes f.build f.Writes := by
  induction f with
  | leaf e => exact .pure (.leaf (hf e List.mem_cons_self))
  | not f ih => exact (ih hf).bind fun e he n => .not n he
  | join c f g ihf ihg =>
      refine (ihf fun e he => hf e (List.mem_append_left _ he)).bind fun d hd => ?_
      exact (ihg fun e he => hf e (List.mem_append_right _ he)).bind fun e he n => .join c n hd he

theorem build_issues {S : Set Expr} {f : Formula} (hf : ∀ e ∈ f.leaves, e ∈ S) :
    Build.Issues S f.build fun S' e => e ∈ S' := by
  induction f generalizing S with
  | leaf e => exact .pure (hf e List.mem_cons_self)
  | not f ih => exact (ih hf).bind fun S' e _ he => Build.unary_issues he .not
  | join c f g ihf ihg =>
      refine (ihf fun e he => hf e (List.mem_append_left _ he)).bind fun S₁ d hsub hd => ?_
      refine (ihg fun e he => hsub (hf e (List.mem_append_right _ he))).bind fun S₂ e hsub' he => ?_
      exact Build.binary_issues c.op (hsub' hd) he

end Formula

/-! ## Booleans -/

theorem ValueType.nonNullable_of_isBoolean {t : ValueType} (h : t.isBoolean = true) :
    t.nonNullable = .bool :=
  of_decide_eq_true h

theorem ValueType.isBoolean_lifted (lift : Bool) : (ValueType.bool.lifted lift).isBoolean = true := by
  cases lift <;> rfl

theorem UnaryOp.resultType_boolean {t : ValueType} (h : t.isBoolean = true) :
    UnaryOp.not.resultType t = .ok (ValueType.bool.lifted t.isNullable) := by
  simp [resultType, ValueType.nonNullable_of_isBoolean h, resultOn?]

namespace Connective

variable (c : Connective) {s t : ValueType} (hs : s.isBoolean = true) (ht : t.isBoolean = true)

include hs ht

theorem resultType_booleans :
    c.op.resultType s t = .ok (ValueType.bool.lifted (s.isNullable || t.isNullable)) := by
  rw [BinaryOp.resultType_eq_ok]
  cases c <;> simp [op, BinaryOp.resultType?, BinaryOp.bitwiseResult?,
    ValueType.nonNullable_of_isBoolean hs, ValueType.nonNullable_of_isBoolean ht]

theorem build_booleans : BinaryKernel.build c.op s t = .ok (.logical c.bitwise) := by
  rw [BinaryKernel.build, c.resultType_booleans hs ht]
  cases c <;> exact congrArg Except.ok (if_pos (ValueType.isBoolean_lifted _))

end Connective

namespace Build

variable {d e : Expr}

theorem typeBeside_boolean (hd : d.type.isBoolean = true) (he : e.type.isBoolean = true) :
    (typeBeside d e).isBoolean = true := by
  unfold typeBeside
  split
  · rw [ValueType.isBoolean, ValueType.nonNullable_toNullable]
    exact he
  · exact hd

/-- Booleans are not promoted. -/
theorem operandType_boolean (op : BinaryOp) (hd : d.type.isBoolean = true)
    (he : e.type.isBoolean = true) : operandType op d e = typeBeside d e := by
  have hnone : commonType? op (typeBeside d e) (typeBeside e d) = none := by
    unfold commonType? ValueType.promote?
    rw [ValueType.nonNullable_of_isBoolean (typeBeside_boolean hd he)]
    split <;> rfl
  rw [operandType, hnone, Option.getD_none]

/-- A connective is defined on boolean operands, and its kernel is its own. -/
theorem connective_operands (c : Connective) (hd : d.type.isBoolean = true)
    (he : e.type.isBoolean = true) :
    c.op.resultType (operandType c.op d e) (operandType c.op e d) =
        .ok (ValueType.bool.lifted ((typeBeside d e).isNullable || (typeBeside e d).isNullable)) ∧
      BinaryKernel.build c.op (operandType c.op d e) (operandType c.op e d) =
        .ok (.logical c.bitwise) := by
  rw [operandType_boolean _ hd he, operandType_boolean _ he hd]
  exact ⟨c.resultType_booleans (typeBeside_boolean hd he) (typeBeside_boolean he hd),
    c.build_booleans (typeBeside_boolean hd he) (typeBeside_boolean he hd)⟩

end Build

namespace Formula

theorem Writes.isBoolean {f : Formula} {e : Expr} (h : f.Writes e) : e.type.isBoolean = true := by
  induction h with
  | leaf he => exact he
  | @not f e n _ ih =>
      rw [Build.unary_eq, Expr.type, Build.typeOn, UnaryOp.resultType_boolean ih]
      exact ValueType.isBoolean_lifted _
  | @join f g d e c n _ _ ihd ihe =>
      rw [Build.binary_type c.op d e n, Build.typeOver, (Build.connective_operands c ihd ihe).1]
      exact ValueType.isBoolean_lifted _

/-- What is built of boolean leaves has no error but those of the leaves. -/
theorem Writes.firstError {f : Formula} {e : Expr} (h : f.Writes e) (own : Nat) :
    e.firstError own = none ↔ ∀ x ∈ f.leaves, x.firstError own = none := by
  induction h with
  | leaf => simp [leaves]
  | @not f e n he ih =>
      have hkernel : (Expr.unary n (Build.typeOn .not e.type) .not e).kernelError = none := by
        rw [Expr.kernelError, UnaryKernel.build, UnaryOp.resultType_boolean he.isBoolean]
        rfl
      rw [Build.unary_eq, Expr.firstError, hkernel, leaves, ← ih]
      simp [Expr.shapeError]
  | @join f g d e c n hd he ihd ihe =>
      have hsymmetric : c.op.isSymmetric = true := by cases c <;> rfl
      have hdefined := (Build.connective_operands c hd.isBoolean he.isBoolean).1
      refine (Build.binary_firstError hsymmetric d e own n).trans ?_
      rw [ihd, ihe, leaves]
      simp [hdefined, or_imp, forall_and]

end Formula

end LiveExpr
