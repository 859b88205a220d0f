import LiveExpr.Proofs.Compile.Represents

/-!
What can be compiled, said of expressions as trees: no graph, no sharing and no table of what has been
visited. Visiting skips what has been placed before, and that never hides an error, as nothing with an
error in it is ever placed.
-/

namespace LiveExpr

namespace Expr

/-! ## The first error of an expression -/

/-- What is wrong with an expression whatever its operands are: a parameter that is not the `own` one,
and a form or an operator outside the grammar. -/
def shapeError (own : Nat) (e : Expr) : Option CompileError :=
  match e with
  | parameter i .. => if i = own then none else some (.unboundParameter e)
  | constant .. | member .. => none
  | staticMember .. => some (.staticMember e)
  | unary _ _ op _ =>
    match op with
    | .not | .negate | .arrayLength | .convert => none
    | .unaryPlus | .typeAs => some (.unsupported e)
  | binary _ _ op .. =>
    match op with
    | .equal | .notEqual | .lessThan | .lessThanOrEqual | .greaterThan | .greaterThanOrEqual
    | .and | .or | .exclusiveOr | .arrayIndex => none
    | .andAlso | .orElse => some (.shortCircuit e)
    | .add | .subtract | .multiply | .divide | .modulo | .coalesce | .leftShift | .rightShift =>
      some (.unsupported e)
  | conditional .. | call .. => some (.unsupported e)

/-- An operator that is not defined for the static types around it. -/
def kernelError (e : Expr) : Option CompileError :=
  match e with
  | unary _ t op operand =>
    match UnaryKernel.build op operand.type t with
    | .ok _ => none
    | .error cause => some (.undefinedOperator e cause)
  | binary _ _ op left right =>
    match BinaryKernel.build op left.type right.type with
    | .ok _ => none
    | .error cause => some (.undefinedOperator e cause)
  | _ => none

/-- The shape of an expression is looked at before its operands, from left to right, and the types of
its operator after them. -/
def firstError (own : Nat) (e : Expr) : Option CompileError :=
  match e with
  | member _ _ target .. => (e.shapeError own).or (target.firstError own)
  | unary _ _ _ operand => ((e.shapeError own).or (operand.firstError own)).or e.kernelError
  | binary _ _ _ left right =>
    (((e.shapeError own).or (left.firstError own)).or (right.firstError own)).or e.kernelError
  | _ => e.shapeError own

theorem expr_of_shapeError {own : Nat} {e : Expr} {err : CompileError}
    (h : e.shapeError own = some err) : err.expr = e := by
  unfold shapeError at h
  (repeat' split at h) <;> cases h <;> rfl

theorem expr_of_kernelError {e : Expr} {err : CompileError} (h : e.kernelError = some err) :
    err.expr = e := by
  unfold kernelError at h
  (repeat' split at h) <;> cases h <;> rfl

/-- The error names the sub-expression at which it was met. -/
theorem part_of_firstError {own : Nat} {err : CompileError} :
    (e : Expr) → e.firstError own = some err → err.expr.Part e
  | member _ _ target _ _, h => by
      rw [firstError, Option.or_eq_some_iff] at h
      rcases h with h | ⟨-, h⟩
      · rw [expr_of_shapeError h]; exact .self _
      · exact .target _ _ _ _ (part_of_firstError target h)
  | unary _ _ _ operand, h => by
      simp only [firstError, Option.or_eq_some_iff, Option.or_eq_none_iff] at h
      rcases h with (h | ⟨-, h⟩) | ⟨-, h⟩
      · rw [expr_of_shapeError h]; exact .self _
      · exact .operand _ _ _ (part_of_firstError operand h)
      · rw [expr_of_kernelError h]; exact .self _
  | binary _ _ _ left right, h => by
      simp only [firstError, Option.or_eq_some_iff, Option.or_eq_none_iff] at h
      rcases h with ((h | ⟨-, h⟩) | ⟨-, h⟩) | ⟨-, h⟩
      · rw [expr_of_shapeError h]; exact .self _
      · exact .left _ _ _ _ (part_of_firstError left h)
      · exact .right _ _ _ _ (part_of_firstError right h)
      · rw [expr_of_kernelError h]; exact .self _
  | parameter .., h | constant .., h | staticMember .., h | conditional .., h | call .., h => by
      rw [firstError] at h
      · rw [expr_of_shapeError h]; exact .self _
      all_goals simp

end Expr

def Lambda.firstError (l : Lambda) : Option CompileError :=
  match l.parameter with
  | .parameter own .. => l.body.firstError own
  | e => some (.unsupported e)

namespace Compile

/-! ## Visits and the first error -/

/-- The own parameter has been placed, and nothing that has an error in it. -/
structure Progress.Cleared (l : Lambda) (own : Nat) (s : Progress) : Prop where
  placed : ∃ id, s.placed.lookup own = some id
  clear : ∀ e id, l.Mentions e → s.placed.lookup e.id = some id → e.firstError own = none

/-- A visit reports the first error of the expression, and succeeds where there is none. -/
def Judges (l : Lambda) (own : Nat) (e : Expr) : Except CompileError (Nat × Progress) → Prop
  | .error err => e.firstError own = some err
  | .ok (_, s) => e.firstError own = none ∧ s.Cleared l own

variable {l : Lambda} {own : Nat} {s : Progress} {e : Expr}

theorem Progress.Cleared.place (hl : l.Identified) (hs : s.Cleared l own) (he : l.Mentions e)
    (hclear : e.firstError own = none) (tag : NodeTag) (typeArgs : List ValueType)
    (payload : NodePayload) (inputs : List Nat) (label : String) :
    Judges l own e (.ok (s.place e tag typeArgs payload inputs label)) := by
  rw [place_eq]
  refine ⟨hclear, ?_, fun f id hf hid => ?_⟩
  · obtain ⟨id, hid⟩ := hs.placed
    rw [lookup_push]
    split
    · exact ⟨_, rfl⟩
    · exact ⟨id, hid⟩
  · rw [lookup_push] at hid
    split at hid
    · rw [hl f e hf he ‹_›]
      exact hclear
    · exact hs.clear f id hf hid

/-- What has been placed before has no error in it, so that only new expressions need a look. -/
theorem Judges.of_new (hs : s.Cleared l own) (he : l.Mentions e)
    (hnew : s.placed.lookup e.id = none → Judges l own e (visit e s)) : Judges l own e (visit e s) := by
  cases hplaced : s.placed.lookup e.id with
  | none => exact hnew hplaced
  | some id =>
      have hvisit : visit e s = .ok (id, s) := by
        unfold visit
        rw [hplaced]
      rw [hvisit]
      exact ⟨hs.clear e id he hplaced, hs⟩

theorem shapeError_unary (own i : Nat) (t : ValueType) (op : UnaryOp) (operand : Expr) :
    (Expr.unary i t op operand).shapeError own =
      if supportsUnary op then none else some (.unsupported (.unary i t op operand)) := by
  cases op <;> rfl

theorem binaryTag_of_shapeError {own i : Nat} {t : ValueType} {op : BinaryOp} {left right : Expr}
    {err : CompileError} (h : (Expr.binary i t op left right).shapeError own = some err) :
    binaryTag (.binary i t op left right) op left.type right.type = .error err := by
  cases op <;> cases h <;> rfl

theorem binaryTag_of_shape {own i : Nat} {t : ValueType} {op : BinaryOp} {left right : Expr}
    (h : (Expr.binary i t op left right).shapeError own = none) :
    ∃ tag, binaryTag (.binary i t op left right) op left.type right.type = .ok tag := by
  cases op <;> first | exact ⟨_, rfl⟩ | cases h

/-! One step for each way an expression is built, from what visiting its parts amounts to. -/

section

variable {i : Nat} {t : ValueType} (hl : l.Identified)

include hl

theorem Judges.member {target : Expr} {name reads : String} (hs : s.Cleared l own)
    (he : l.Mentions (.member i t target name reads)) (htarget : Judges l own target (visit target s)) :
    Judges l own (.member i t target name reads) (visit (.member i t target name reads) s) := by
  refine .of_new hs he fun hnew => ?_
  rw [visit, hnew]
  cases hvisit : visit target s with
  | error err =>
      rw [hvisit] at htarget
      exact htarget
  | ok found =>
      rw [hvisit] at htarget
      exact htarget.2.place hl he htarget.1 ..

theorem Judges.unary {op : UnaryOp} {operand : Expr} (hs : s.Cleared l own)
    (he : l.Mentions (.unary i t op operand)) (hoperand : Judges l own operand (visit operand s)) :
    Judges l own (.unary i t op operand) (visit (.unary i t op operand) s) := by
  refine .of_new hs he fun hnew => ?_
  have hshape := shapeError_unary own i t op operand
  rw [visit, hnew]
  by_cases hsupports : supportsUnary op = true
  · rw [if_pos hsupports] at hshape
    simp only [hsupports, Bool.not_true, Bool.false_eq_true, if_false]
    cases hvisit : visit operand s with
    | error err =>
        rw [hvisit] at hoperand
        simp only [Judges] at hoperand
        simp [bind, Except.bind, Judges, Expr.firstError, hshape, hoperand]
    | ok found =>
        rw [hvisit] at hoperand
        obtain ⟨hclear, hs'⟩ := hoperand
        cases hkernel : UnaryKernel.build op operand.type t with
        | error cause =>
            simp [bind, Except.bind, kernelFor, Except.mapError, Judges, Expr.firstError,
              Expr.kernelError, hshape, hclear, hkernel]
        | ok kernel =>
            refine hs'.place hl he ?_ ..
            simp [Expr.firstError, Expr.kernelError, hshape, hclear, hkernel]
  · rw [if_neg hsupports] at hshape
    simp [hsupports, bind, Except.bind, Judges, Expr.firstError, hshape, throw, throwThe,
      MonadExceptOf.throw]

theorem Judges.binary {op : BinaryOp} {left right : Expr} (hs : s.Cleared l own)
    (he : l.Mentions (.binary i t op left right)) (hleft : Judges l own left (visit left s))
    (hright : ∀ found : Nat × Progress, found.2.Cleared l own →
      Judges l own right (visit right found.2)) :
    Judges l own (.binary i t op left right) (visit (.binary i t op left right) s) := by
  refine .of_new hs he fun hnew => ?_
  rw [visit, hnew]
  cases hshape : (Expr.binary i t op left right).shapeError own with
  | some err =>
      rw [binaryTag_of_shapeError hshape]
      simp [bind, Except.bind, Judges, Expr.firstError, hshape]
  | none =>
      obtain ⟨tag, htag⟩ := binaryTag_of_shape hshape
      rw [htag]
      cases hvisit : visit left s with
      | error err =>
          rw [hvisit] at hleft
          simp only [Judges] at hleft
          simp [bind, Except.bind, Judges, Expr.firstError, hshape, hleft]
      | ok found =>
          rw [hvisit] at hleft
          obtain ⟨hclear, hs₁⟩ := hleft
          have hfound := hright found hs₁
          cases hvisit' : visit right found.2 with
          | error err =>
              rw [hvisit'] at hfound
              simp only [Judges] at hfound
              simp [bind, Except.bind, hvisit', Judges, Expr.firstError, hshape, hclear, hfound]
          | ok found' =>
              rw [hvisit'] at hfound
              obtain ⟨hclear', hs₂⟩ := hfound
              cases hkernel : BinaryKernel.build op left.type right.type with
              | error cause =>
                  simp [bind, Except.bind, hvisit', kernelFor, Except.mapError, Judges,
                    Expr.firstError, Expr.kernelError, hshape, hclear, hclear', hkernel]
              | ok kernel =>
                  simp only [bind, Except.bind, hvisit', kernelFor, Except.mapError]
                  refine hs₂.place hl he ?_ ..
                  simp [Expr.firstError, Expr.kernelError, hshape, hclear, hclear', hkernel]

end

theorem judges_visit (hl : l.Identified) :
    (e : Expr) → e.Part l.body → {s : Progress} → s.Cleared l own → Judges l own e (visit e s)
  | .parameter i t name, he, s, hs => by
      refine .of_new hs (.inr he) fun hnew => ?_
      have hforeign : i ≠ own := by
        rintro rfl
        obtain ⟨id, hid⟩ := hs.placed
        cases hnew.symm.trans hid
      rw [visit, hnew]
      simp [Judges, Expr.firstError, Expr.shapeError, hforeign]
  | .constant i t v, he, s, hs => by
      refine .of_new hs (.inr he) fun hnew => ?_
      rw [visit, hnew]
      exact hs.place hl (.inr he) rfl ..
  | .staticMember .., he, s, hs | .conditional .., he, s, hs | .call .., he, s, hs => by
      refine .of_new hs (.inr he) fun hnew => ?_
      rw [visit, hnew]
      rfl
  | .member i t target name reads, he, s, hs =>
      .member hl hs (.inr he)
        (judges_visit hl target ((Expr.Part.target i t name reads (.self _)).trans he) hs)
  | .unary i t op operand, he, s, hs =>
      .unary hl hs (.inr he)
        (judges_visit hl operand ((Expr.Part.operand i t op (.self _)).trans he) hs)
  | .binary i t op left right, he, s, hs =>
      .binary hl hs (.inr he)
        (judges_visit hl left ((Expr.Part.left i t op right (.self _)).trans he) hs)
        fun _ hs' =>
          judges_visit hl right ((Expr.Part.right i t op left (.self _)).trans he) hs'

end Compile

namespace Lambda

/-! ## Compiling and the first error -/

theorem firstError_of_parameter {l : Lambda} {own : Nat} {t : ValueType} {name : String}
    (h : l.parameter = .parameter own t name) : l.firstError = l.body.firstError own := by
  rw [firstError, h]

theorem compile_of_parameter {l : Lambda} {own : Nat} {t : ValueType} {name : String}
    (h : l.parameter = .parameter own t name) :
    l.compile = (Compile.visit l.body (Compile.startWith l.parameter t name)).map
      fun (body, s) => ⟨l, s.graph, 0, body⟩ := by
  rw [compile, h]
  rfl

/-- What the first error of a lambda says about compiling it: that it is reported, or that there is a
prototype where there is none. -/
theorem compile_firstError {l : Lambda} (hl : l.Identified) :
    match l.firstError with
    | some err => l.compile = .error err ∧ l.Mentions err.expr
    | none => ∃ p, l.compile = .ok p := by
  cases hparam : l.parameter with
  | parameter own t name =>
      have hstart : (Compile.startWith l.parameter t name).Cleared l own := by
        refine ⟨⟨0, by rw [hparam]; exact List.lookup_cons_self⟩, fun e id he hid => ?_⟩
        have hown : e = l.parameter := by
          refine hl e _ he (.inl rfl) ?_
          by_contra hne
          rw [Compile.startWith, Compile.Progress.lookup_push, if_neg hne] at hid
          cases hid
        rw [hown, hparam]
        simp [Expr.firstError, Expr.shapeError]
      have hbody := Compile.judges_visit hl l.body (.self _) hstart
      rw [firstError_of_parameter hparam, compile_of_parameter hparam]
      cases hvisit : Compile.visit l.body (Compile.startWith l.parameter t name) with
      | error err =>
          rw [hvisit] at hbody
          simp only [Compile.Judges] at hbody
          rw [hbody]
          exact ⟨rfl, .inr (Expr.part_of_firstError l.body hbody)⟩
      | ok found =>
          rw [hvisit] at hbody
          rw [hbody.1]
          exact ⟨_, rfl⟩
  | _ =>
      rw [firstError, compile, hparam]
      exact ⟨rfl, .inl hparam.symm⟩

/-- The lambda is refused exactly for its first error, which names one of its own expressions. -/
theorem compile_iff_firstError {l : Lambda} (hl : l.Identified) :
    (∀ err, l.compile = .error err ↔ l.firstError = some err) ∧
      ((∃ p, l.compile = .ok p) ↔ l.firstError = none) ∧
      ∀ err, l.compile = .error err → l.Mentions err.expr := by
  have hends := compile_firstError hl
  cases hfirst : l.firstError with
  | none =>
      rw [hfirst] at hends
      obtain ⟨p, hp⟩ := hends
      simp [hp]
  | some err =>
      rw [hfirst] at hends
      obtain ⟨herr, hmentions⟩ := hends
      simp [herr, hmentions]

/-- `p => (p.age == p.age) & !p.name`, in which one access to the age is used twice. -/
def notNamed : Lambda :=
  let p : Expr := .parameter 0 (.object "Person" true) "p"
  let age : Expr := .member 1 .i32 p "age" "age"
  let name : Expr := .unary 4 .str .not (.member 3 .str p "name" "name")
  ⟨p, .binary 5 .bool .and (.binary 2 .bool .equal age age) name⟩

theorem notNamed_identified : notNamed.Identified := by
  intro e f he hf hid
  simp only [Mentions, notNamed, Expr.part_parameter, Expr.part_member, Expr.part_unary,
    Expr.part_binary] at he hf
  rcases he with rfl | rfl | (rfl | (rfl | rfl) | rfl | rfl) | rfl | rfl | rfl <;>
    rcases hf with rfl | rfl | (rfl | (rfl | rfl) | rfl | rfl) | rfl | rfl | rfl <;>
    first | rfl | cases hid

/-- The conjunction is fine as far as its left side goes, and its right side is refused for its type. -/
theorem compile_notNamed :
    notNamed.compile = .error (.undefinedOperator
      (.unary 4 .str .not (.member 3 .str notNamed.parameter "name" "name"))
      (.undefinedOperator "!" [.str])) :=
  ((compile_iff_firstError notNamed_identified).1 _).mpr rfl

end Lambda

end LiveExpr
