import LiveExpr.Proofs.Live.Binding
import LiveExpr.Proofs.Session.Reading
import LiveExpr.Session.Perform

/-!
Compiling keeps the meaning: the result of a graph, evaluated once, is what the expression means.
-/

namespace LiveExpr

variable {σ : Type} {h : Host σ} {read : String → Value → Value} {bound : Value}

/-! ## Rules and meanings -/

namespace Expr

theorem meaning_member (i : Nat) (t : ValueType) (target : Expr) (name reads : String) :
    (member i t target name reads).meaning read bound =
      (Result.object? (target.meaning read bound)).map (read reads) := by
  rw [meaning]
  cases target.meaning read bound with
  | none => rfl
  | some v => cases v <;> rfl

theorem meaning_unary {op : UnaryOp} {operand : Expr} {t : ValueType} {kernel : UnaryKernel}
    (hk : UnaryKernel.build op operand.type t = .ok kernel) (i : Nat) :
    (unary i t op operand).meaning read bound =
      Result.mapPresent kernel.apply (operand.meaning read bound) := by
  rw [meaning, hk]
  cases operand.meaning read bound <;> rfl

theorem meaning_binary {op : BinaryOp} {left right : Expr} {kernel : BinaryKernel}
    (hk : BinaryKernel.build op left.type right.type = .ok kernel) (i : Nat) (t : ValueType) :
    (binary i t op left right).meaning read bound =
      match left.meaning read bound, right.meaning read bound with
      | some a, some b => some (kernel.apply a b)
      | x, y => op.onAbsent (left.type.isBoolean && right.type.isBoolean) x y := by
  rw [meaning, hk]
  rfl

end Expr

/-- A present boolean that absorbs the other operand decides without it. -/
theorem Result.connect_of_absent (absorbing : Bool) (op : Value → Value → Value) {x y : Result}
    (hxy : x = none ∨ y = none) :
    (Result.connect absorbing x y).resolve op =
      if (x.or y).any (·.asBool? == some absorbing) then some (.bool absorbing) else none := by
  cases x with
  | none =>
      cases y with
      | none => rfl
      | some w =>
          cases w with
          | bool b => cases b <;> cases absorbing <;> rfl
          | _ => rfl
  | some v =>
      obtain rfl := hxy.resolve_left (by simp)
      cases v with
      | bool b => cases b <;> cases absorbing <;> rfl
      | _ => rfl

namespace Compile

/-- The node of a binary operator answers for absent operands as the operator does. -/
theorem rule_binary {e : Expr} {op : BinaryOp} {left right : ValueType} {tag : NodeTag}
    (htag : binaryTag e op left right = .ok tag) (typeArgs : List ValueType) (kernel : BinaryKernel)
    (own x y : Result) :
    ((NodeConstructor.build tag typeArgs).instantiate (.binary op kernel)).rule read own x y =
      match x, y with
      | some a, some b => some (kernel.apply a b)
      | x, y => op.onAbsent (left.isBoolean && right.isBoolean) x y := by
  have hconnective : ∀ absorbing, x = none ∨ y = none →
      (Result.connect absorbing x y).resolve kernel.apply =
        if (x.or y).any (·.asBool? == some absorbing) then some (.bool absorbing) else none :=
    fun absorbing => Result.connect_of_absent absorbing kernel.apply
  cases op <;> simp only [binaryTag, Except.ok.injEq, reduceCtorEq] at htag <;> subst htag
  case and =>
      cases left.isBoolean && right.isBoolean
      · cases x <;> cases y <;> rfl
      · cases x with
        | none => cases y with
          | none => rfl
          | some b => exact hconnective false (.inl rfl)
        | some a => cases y with
          | none => exact hconnective false (.inr rfl)
          | some b => rfl
  case or =>
      cases left.isBoolean && right.isBoolean
      · cases x <;> cases y <;> rfl
      · cases x with
        | none => cases y with
          | none => rfl
          | some b => exact hconnective true (.inl rfl)
        | some a => cases y with
          | none => exact hconnective true (.inr rfl)
          | some b => rfl
  all_goals cases x <;> cases y <;> rfl

/-! ## Results are meanings -/

theorem due_of_node {p : Prototype} {l : Live} (hl : l.CopyOf p) {id : Nat} {n : Node}
    (hn : p.graph.nodes[id]? = some n) :
    l.due read id = n.kind.rule read (l.ledger.get id) ((n.inputs[0]?).elim none l.ledger.get)
      ((n.inputs[1]?).elim none l.ledger.get) := by
  have hoperand : ∀ k, l.operand id k = (n.inputs[k]?).elim none l.ledger.get := by
    intro k
    rw [Live.operand, hl.inputs, Graph.inputs_of_node hn]
  rw [Live.due_eq_oneTime, hl.kindAt_oneTime, hn, hoperand, hoperand]
  exact NodeKind.rule_oneTime ..

theorem Represents.meaning {e : Lambda} {p : Prototype} (hp : e.compile = .ok p) {l : Live}
    (hl : l.CopyOf p) (hread : Host.RespectsEquality read) (hs : ∀ id, l.Settled read id)
    (hbound : l.ledger.get l.parameter = some bound) {f : Expr} {id : Nat}
    (hf : Represents p.graph f id) : l.ledger.get id == f.meaning read bound := by
  induction hf with
  | @parameter i id t name hn =>
      have hid : id = p.parameter := (parameter_iff_of_compile hp id).mp (by rw [hn]; rfl)
      rw [hid, ← hl.parameter, hbound]
      exact BEq.rfl
  | @operator f id operands n hn hnode _ ih =>
      refine BEq.trans (hs id) ?_
      rw [due_of_node hl hn]
      cases hnode with
      | constant => exact BEq.rfl
      | member =>
          rw [Expr.meaning_member]
          exact NodeKind.rule_congr hread (.memberAccess _ _ _) (fun _ => BEq.rfl)
            (ih _ List.mem_cons_self) BEq.rfl
      | unary _ hk =>
          rw [Expr.meaning_unary hk]
          exact NodeKind.rule_congr hread (.unaryOp _ _) (fun _ => BEq.rfl)
            (ih _ List.mem_cons_self) BEq.rfl
      | @binary i j k t op left right tag kernel htag hk =>
          rw [Expr.meaning_binary hk, ← rule_binary htag (binaryTypeArgs tag left.type right.type t)
            kernel (l.ledger.get id)]
          exact NodeKind.rule_congr hread _ (fun _ => BEq.rfl) (ih _ List.mem_cons_self)
            (ih _ (List.mem_cons_of_mem _ List.mem_cons_self))

end Compile

/-- Evaluating once gives the meaning of the body, whatever is shared between its parts. -/
theorem Lambda.evaluateOnce_eq_meaning {l : Lambda} {p : Prototype} (hl : l.Identified)
    (hp : l.compile = .ok p) {s : σ} (hs : h.Still read s) (v : Value) :
    ((Live.adopt h p .oneTime s).1.evaluateOnce h v (Live.adopt h p .oneTime s).2).1 ==
      l.body.meaning read v := by
  have hsettled := Live.adoptBound_settled hp .oneTime v hs
  obtain ⟨hcopy, hbound, hroot⟩ := Live.adoptBound_bound hp h .oneTime v s
  have hbody := (Compile.represents_of_compile hl hp).meaning hp hcopy hs.congr hsettled hbound
  rw [← hcopy.body] at hbody
  rw [Live.evaluateOnce_result]
  exact BEq.trans hroot hbody

theorem Lambda.bossAge_identified : bossAge.Identified := by
  have hmentions : ∀ {e}, bossAge.Mentions e → e = bossAge.parameter ∨ e = bossAge.body ∨
      e = .member 1 (.object "Person" true) bossAge.parameter "boss" "boss" := by
    rintro e (rfl | he)
    · exact .inl rfl
    cases he with
    | self => exact .inr (.inl rfl)
    | target _ _ _ _ he =>
        cases he with
        | self => exact .inr (.inr rfl)
        | target _ _ _ _ he =>
            cases he
            exact .inl rfl
  intro e f he hf hid
  rcases hmentions he with rfl | rfl | rfl <;> rcases hmentions hf with rfl | rfl | rfl <;>
    first | rfl | cases hid

theorem Lambda.bossOverThirty_mentions {f : Expr} (hf : bossOverThirty.Mentions f) :
    bossAge.Mentions f ∨ f = bossOverThirty.body ∨
      f = .constant 3 (.int .i64) (.int (MachineInt.ofInt .i64 30)) ∨
      f = .unary 4 (.nullable (.int .i64)) .convert bossAge.body ∨
      f = .unary 5 (.nullable (.int .i64)) .convert
        (.constant 3 (.int .i64) (.int (MachineInt.ofInt .i64 30))) := by
  simp only [Mentions, bossOverThirty, Expr.part_binary, Expr.part_unary, Expr.part_constant] at hf ⊢
  tauto

theorem Lambda.bossOverThirty_identified : bossOverThirty.Identified := by
  have hlt : ∀ {f}, bossAge.Mentions f → f.id < 3 := by
    intro f hf
    simp only [Mentions, bossAge, Expr.part_member, Expr.part_parameter] at hf
    rcases hf with rfl | rfl | rfl | rfl <;> decide
  intro e f he hf hid
  rcases bossOverThirty_mentions he with he | he <;> rcases bossOverThirty_mentions hf with hf | hf
  · exact bossAge_identified e f he hf hid
  · have hage := hid ▸ hlt he
    rcases hf with rfl | rfl | rfl | rfl <;> exact absurd hage (by decide)
  · have hage := hid ▸ hlt hf
    rcases he with rfl | rfl | rfl | rfl <;> exact absurd hage (by decide)
  · rcases he with rfl | rfl | rfl | rfl <;> rcases hf with rfl | rfl | rfl | rfl <;>
      first | rfl | cases hid

theorem Lambda.meaning_of_bossOverThirty :
    let h := World.host (World.dispatch World.callDepth) fun _ _ => .deaf
    let t := Live.adopt h .bossOverThirty .oneTime World.staff
    (t.1.evaluateOnce h World.employee t.2).1 ==
        bossOverThirty.body.meaning World.staff.read World.employee ∧
      (t.1.evaluateOnce h World.employee t.2).1 == some (.bool true) :=
  ⟨evaluateOnce_eq_meaning bossOverThirty_identified compile_bossOverThirty
    World.staff_quiet.still _, by decide +kernel⟩

end LiveExpr
