import LiveExpr.Proofs.Typing.Inferred

/-!
The operators keep to their static types: on operands that are null or of their declared types, a
kernel gives null or a value of the type that was inferred for it. Kernels choose how they represent a
result on their own, so that this is shown operator by operator.
-/

namespace LiveExpr

/-! ## Values of a type -/

/-- The value is null or of the type: arrays item by item, objects and structs whatever their own type
is called, and enumerations by name. -/
inductive Value.HasType : Value → ValueType → Prop
  | null {t : ValueType} : HasType .null t
  | nullable {v : Value} {t : ValueType} : HasType v t → HasType v (.nullable t)
  | bool {b : Bool} : HasType (.bool b) .bool
  | char {c : Char} : HasType (.char c) .char
  | int {n : MachineInt} : HasType (.int n) (.int n.kind)
  | float {p : Precision} {x : Binary p} : HasType (.float p x) (.float p)
  | str {allocation : Nat} {text : String} : HasType (.str allocation text) .str
  | timestamp {t : Timestamp} : HasType (.timestamp t) .timestamp
  | duration {d : Span} : HasType (.duration d) .duration
  | uuid {bits : BitVec 128} : HasType (.uuid bits) .uuid
  | enum {name : String} {d : BitVec 64} : HasType (.enum name d) (.enum name)
  | array {allocation : Nat} {items : List Value} {element : ValueType} :
      (∀ v ∈ items, HasType v element) → HasType (.array allocation items) (.array element)
  | object {r : ObjectRef} {name : String} {observable : Bool} :
      HasType (.object r) (.object name observable)
  | struct {r : ObjectRef} {name : String} : HasType (.struct r) (.struct name)

/-- The result is absent, a present null or a value of the type. -/
def Result.HasType (r : Result) (t : ValueType) : Prop :=
  ∀ v, r = some v → v.HasType t

/-- No nullable type is built on a nullable or a reference type. -/
def ValueType.Plain : ValueType → Prop
  | nullable inner => inner.isNullable = false ∧ inner.isReference = false ∧ inner.Plain
  | array element => element.Plain
  | _ => True

namespace Value.HasType

variable {v : Value} {t : ValueType}

theorem nonNullable_iff : v.HasType t.nonNullable ↔ v.HasType t := by
  cases t with
  | nullable inner =>
      constructor
      · exact .nullable
      · intro h
        cases h with
        | null => exact .null
        | nullable h => exact h
  | _ => exact .rfl

theorem ofInt (t : ValueType) (n : Int) : (Value.ofInt t n).HasType t := by
  rw [← nonNullable_iff]
  unfold Value.ofInt
  cases t.nonNullable with
  | int k => exact .int (n := MachineInt.ofInt k n)
  | float => exact .float
  | char =>
      cases charOfInt? n with
      | none => exact .null
      | some => exact .char
  | enum => exact .enum
  | _ => exact .null

theorem onInt (f : Int → Int) : (UnaryKernel.onInt t f v).HasType t := by
  unfold UnaryKernel.onInt
  cases v.asInt? with
  | none => exact .null
  | some n => exact ofInt t (f n)

theorem lifted (h : v.HasType t) (lift : Bool) : v.HasType (t.lifted lift) := by
  unfold ValueType.lifted ValueType.toNullable
  split
  · split
    · exact h
    · exact .nullable h
  · exact h

end Value.HasType

namespace ValueType

theorem Plain.isNullable_nonNullable {t : ValueType} (ht : t.Plain) :
    t.nonNullable.isNullable = false := by
  cases t with
  | nullable inner => exact ht.1
  | _ => rfl

/-- Numbers and enumerations, which convert into each other. -/
def isNumberLike : ValueType → Bool
  | .enum _ => true
  | t => t.isNumeric

theorem isNumberLike_cases {t : ValueType} (ht : t.isNullable = false) (h : t.isNumberLike = true) :
    t.isIntegral = true ∨ (∃ p, t = .float p) ∨ ∃ name, t = .enum name := by
  cases t with
  | enum name => exact .inr (.inr ⟨name, rfl⟩)
  | float p => exact .inr (.inl ⟨p, rfl⟩)
  | nullable => cases ht
  | _ => first | exact .inl rfl | cases h

theorem isNumberLike_of_isReference {t : ValueType} (h : t.isReference = true) :
    t.nonNullable.isNumberLike = false := by
  cases t <;> first | rfl | cases h

end ValueType

/-! ## Conversions -/

theorem checkConversion_ok {source target : ValueType} (h : checkConversion source target = .ok ()) :
    source.nonNullable = target.nonNullable ∨ target.nonNullable.isNumberLike = true ∨
      (source.isReference = true ∧ target.isReference = true) := by
  have hcheck : checkConversion source target =
      if source.nonNullable = target.nonNullable ||
          (source.nonNullable.isNumberLike && target.nonNullable.isNumberLike) ||
          (source.isReference && target.isReference) then
        .ok ()
      else
        .error (.invalidConversion source target) := rfl
  rw [hcheck] at h
  split at h
  · rename_i hc
    simp only [Bool.or_eq_true, Bool.and_eq_true, decide_eq_true_eq] at hc
    tauto
  · cases h

theorem Value.convert_hasType {v : Value} {source target : ValueType} (ht : target.Plain)
    (hcheck : checkConversion source target = .ok ())
    (href : source.isReference = true → target.isReference = true → source = target)
    (hv : v.HasType source) : (v.convert target).HasType target := by
  have hsame : source.nonNullable = target.nonNullable → v.HasType target := by
    intro heq
    rwa [← HasType.nonNullable_iff, ← heq, HasType.nonNullable_iff]
  by_cases hnull : v.isNull = true
  · cases v with
    | null => exact .null
    | _ => cases hnull
  unfold convert
  by_cases hkeep : target.isReference = true
  · rw [if_pos (by simp [hkeep])]
    rcases checkConversion_ok hcheck with heq | hnumber | ⟨hs, -⟩
    · exact hsame heq
    · rw [ValueType.isNumberLike_of_isReference hkeep] at hnumber
      cases hnumber
    · rwa [← href hs hkeep]
  · rw [if_neg (by simp [hnull, hkeep])]
    split
    · rename_i p hfloat
      rw [← HasType.nonNullable_iff, hfloat]
      cases v.asDouble? with
      | none => exact .null
      | some x => exact .float
    · rename_i hfloat
      have hnumeric : ((v.toIntegral?.map (ofInt target.nonNullable)).getD null).HasType target := by
        rw [← HasType.nonNullable_iff]
        cases v.toIntegral? with
        | none => exact .null
        | some n => exact HasType.ofInt _ n
      split
      · simpa using hnumeric
      · rename_i henum
        simp only [Bool.or_false]
        split
        · exact hnumeric
        · rename_i hint
          rcases checkConversion_ok hcheck with heq | hnumber | ⟨-, hreference⟩
          · exact hsame heq
          · rcases ValueType.isNumberLike_cases ht.isNullable_nonNullable hnumber with
              hintegral | ⟨p, hp⟩ | ⟨name, hname⟩
            · exact absurd hintegral hint
            · exact absurd hp (hfloat p)
            · exact absurd hname (henum name)
          · exact absurd hreference hkeep

/-! ## Unary operators -/

theorem UnaryOp.resultType_ok {op : UnaryOp} {operand t : ValueType}
    (h : op.resultType operand = .ok t) :
    (op = .arrayLength ∧ t = .i32) ∨
      ∃ inner, op.resultOn? operand.nonNullable = some inner ∧ t = inner.lifted operand.isNullable := by
  unfold resultType at h
  split at h
  · cases h
    exact .inl ⟨rfl, rfl⟩
  · rename_i op _ _ _
    cases hr : op.resultOn? operand.nonNullable with
    | none =>
        rw [hr] at h
        cases h
    | some inner =>
        rw [hr] at h
        cases h
        exact .inr ⟨inner, rfl, rfl⟩

/-- A complemented boolean stays one, and any other operand becomes a number of the result type. -/
theorem complement_hasType {operand t : ValueType} (hplain : operand.Plain)
    (h : UnaryOp.not.resultType operand = .ok t) {v : Value} (hv : v.HasType operand) :
    ((UnaryKernel.complement t).apply v).HasType t := by
  cases v with
  | bool b =>
      obtain ⟨⟨⟩, -⟩ | ⟨inner, hinner, rfl⟩ := UnaryOp.resultType_ok h
      rw [← Value.HasType.nonNullable_iff] at hv
      have hnested := hplain.isNullable_nonNullable
      generalize operand.nonNullable = s at *
      cases hv with
      | nullable => cases hnested
      | bool =>
          cases hinner
          exact .lifted .bool _
  | _ => exact .onInt _

/-- A negated float keeps its precision, and any other operand becomes a number of the result type. -/
theorem negate_hasType {operand t : ValueType} (hplain : operand.Plain)
    (h : UnaryOp.negate.resultType operand = .ok t) {v : Value} (hv : v.HasType operand) :
    ((UnaryKernel.negate t).apply v).HasType t := by
  cases v with
  | float p x =>
      obtain ⟨⟨⟩, -⟩ | ⟨inner, hinner, rfl⟩ := UnaryOp.resultType_ok h
      rw [← Value.HasType.nonNullable_iff] at hv
      have hnested := hplain.isNullable_nonNullable
      generalize operand.nonNullable = s at *
      cases hv with
      | nullable => cases hnested
      | float =>
          cases hinner
          exact .lifted .float _
  | _ => exact .onInt _

/-- What a unary operator makes of an operand of its type is of the type of the operator. -/
theorem UnaryKernel.apply_hasType {op : UnaryOp} {operand t : ValueType} {kernel : UnaryKernel}
    (hsupports : Compile.supportsUnary op = true)
    (hk : UnaryKernel.build op operand t = .ok kernel)
    (hinferred : op = .convert ∨ op = .typeAs ∨ t = (op.resultType operand).toOption.getD operand)
    (hoperand : operand.Plain) (ht : t.Plain)
    (href : op = .convert → operand.isReference = true → t.isReference = true → operand = t)
    {v : Value} (hv : v.HasType operand) : (kernel.apply v).HasType t := by
  have hresult : op ≠ .convert → op.resultType operand = .ok t := by
    intro hop
    have htype : op ≠ .typeAs := by
      rintro rfl
      cases hsupports
    obtain ⟨result, hresult⟩ := UnaryOp.resultType_of_build hk ⟨hop, htype⟩
    have hsame := (hinferred.resolve_left hop).resolve_left htype
    rw [hresult] at hsame ⊢
    rw [hsame]
    rfl
  cases op with
  | convert =>
      obtain ⟨⟨⟩, hcheck, hkernel⟩ := Compile.ok_of_bind (f := fun _ => .ok (convert t)) hk
      cases hkernel
      exact Value.convert_hasType ht hcheck (href rfl) hv
  | not =>
      have hnot := hresult (by decide)
      rw [UnaryKernel.build, hnot] at hk
      cases hk
      exact complement_hasType hoperand hnot hv
  | negate =>
      have hnegate := hresult (by decide)
      rw [UnaryKernel.build, hnegate] at hk
      cases hk
      exact negate_hasType hoperand hnegate hv
  | arrayLength =>
      have hlength := hresult (by decide)
      rw [UnaryKernel.build, hlength] at hk
      cases hk
      obtain ⟨-, rfl⟩ | ⟨inner, hinner, -⟩ := UnaryOp.resultType_ok hlength
      · cases v with
        | array => exact .int (n := MachineInt.ofInt .i32 _)
        | _ => exact .null
      · cases hinner
  | unaryPlus | typeAs => cases hsupports

/-! ## Binary operators -/

theorem itemAt_hasType {items : List Value} {element : ValueType}
    (h : ∀ v ∈ items, v.HasType element) (i : Int) : (BinaryKernel.itemAt items i).HasType element := by
  unfold BinaryKernel.itemAt
  split
  · exact .null
  · cases hitem : items[i.toNat]? with
    | none => exact .null
    | some v => exact h v (List.mem_of_getElem? hitem)

theorem ofBitwise_hasType (op : Bitwise) (t : ValueType) (a b : Value) :
    ((BinaryKernel.ofBitwise op t).apply a b).HasType t := by
  unfold BinaryKernel.ofBitwise
  split
  · rename_i hbool
    have hbool : t.nonNullable = .bool := of_decide_eq_true hbool
    rw [← Value.HasType.nonNullable_iff, hbool]
    simp only [BinaryKernel.apply]
    cases op.onBools a.asBool? b.asBool? with
    | none => exact .null
    | some => exact .bool
  · simp only [BinaryKernel.apply]
    split
    · exact .ofInt t _
    · exact .null

theorem BinaryOp.resultType_arrayIndex {left right t : ValueType}
    (h : BinaryOp.arrayIndex.resultType left right = .ok t) : left = .array t := by
  rw [resultType_eq_ok] at h
  unfold resultType? at h
  simp only at h
  split at h
  · cases h; rfl
  · cases h; rfl
  · cases h

/-- What a binary operator makes of operands of their types is of the type of the operator. -/
theorem BinaryKernel.apply_hasType {op : BinaryOp} {left right t : ValueType} {kernel : BinaryKernel}
    (hk : BinaryKernel.build op left right = .ok kernel) (ht : op.resultType left right = .ok t)
    {a : Value} (ha : a.HasType left) (b : Value) : (kernel.apply a b).HasType t := by
  obtain ⟨result, hresult, hkernel⟩ := Compile.ok_of_bind hk
  obtain rfl : result = t := by
    rw [ht] at hresult
    cases hresult
    rfl
  cases op <;> cases hkernel
  case and | or | exclusiveOr => exact ofBitwise_hasType ..
  case arrayIndex =>
    obtain rfl := BinaryOp.resultType_arrayIndex ht
    cases ha with
    | null => exact .null
    | array hitems =>
        simp only [apply]
        cases b.asInt? with
        | none => exact .null
        | some i => exact itemAt_hasType hitems i
  all_goals
    rw [BinaryOp.resultType_of_comparison (by simp [BinaryOp.isRelational]) ht]
    exact .bool

end LiveExpr
