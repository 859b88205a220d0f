import LiveExpr.Proofs.Session.Registration
import LiveExpr.Proofs.Live.Settled

/-!
In a world without echoes, reading a member changes nothing, and a graph finds the members it had
found before however often it has subscribed in between.
-/

namespace LiveExpr

def Lambda.bossAge : Lambda :=
  let person : ValueType := .object "Person" true
  let p : Expr := .parameter 0 person "p"
  ⟨p, .member 2 (.nullable .i32) (.member 1 person p "boss" "boss") "age" "age"⟩

def Prototype.bossAge : Prototype :=
  Lambda.bossAge.compile.toOption.get rfl

theorem Lambda.compile_bossAge : bossAge.compile = .ok .bossAge :=
  rfl

/-- `p.boss.age > 30`, where the number is a wider one than the age. -/
def Lambda.bossOverThirty : Lambda :=
  let wide : ValueType := .nullable (.int .i64)
  let thirty : Expr := .constant 3 (.int .i64) (.int (MachineInt.ofInt .i64 30))
  ⟨bossAge.parameter, .binary 6 .bool .greaterThan (.unary 4 wide .convert bossAge.body)
    (.unary 5 wide .convert thirty)⟩

def Prototype.bossOverThirty : Prototype :=
  Lambda.bossOverThirty.compile.toOption.get rfl

theorem Lambda.compile_bossOverThirty : bossOverThirty.compile = .ok .bossOverThirty :=
  rfl

namespace World

variable {d : Dispatcher} {handler : Nat → String → Handler} {w w' : World}

/-- No object announces that it is read. -/
def Quiet (w : World) : Prop :=
  ∀ (id : Nat) (o : HostObject Handler), w.objects[id]? = some o → o.kind ≠ .echo

theorem SameHeap.quiet (h : SameHeap w w') (hw : w.Quiet) : w'.Quiet := by
  intro id o' ho'
  obtain ⟨o, ho, heq⟩ := h.object ho'
  have hkind : o'.kind = o.kind := congrArg (·.kind) heq
  rw [hkind]
  exact hw id o ho

theorem Quiet.modifyObject (hw : w.Quiet) (id : Nat) {f : HostObject Handler → HostObject Handler}
    (hf : ∀ o, (f o).kind = o.kind) : (w.modifyObject id f).Quiet := by
  intro j o' ho'
  rw [objects_modifyObject] at ho'
  split at ho'
  · obtain ⟨o, ho, rfl⟩ := Option.map_eq_some_iff.mp ho'
    rw [hf]
    exact hw j o ho
  · exact hw j o' ho'

theorem readMember_of_quiet (hw : w.Quiet) (id : Nat) (member : String) :
    w.readMember d id member = ((w.objects[id]?).bind (·.members.get? member), w) := by
  rw [readMember]
  cases ho : w.objects[id]? with
  | none => rfl
  | some o =>
      have hecho := hw id o ho
      cases hk : o.kind <;> simp_all

theorem access_of_quiet (hw : w.Quiet) (member : String) (v : Value) :
    w.access d member v = (w.read member v, w) := by
  cases v with
  | object r | struct r =>
      simp only [access, readMember_of_quiet hw, read]
      cases w.objects[r.id]? <;> rfl
  | _ => rfl

theorem read_respectsEquality (w : World) : Host.RespectsEquality w.read := by
  intro member v u h
  cases Value.alike_of_equal h with
  | refl => exact BEq.rfl
  | object hr | struct hr => simp only [read, hr, BEq.rfl]
  | float | str | array => exact Value.builtinMember_congr member h

theorem Aside.sameHeap (a : (host d handler).Aside w w') : SameHeap w w' := by
  induction a with
  | refl => exact .refl w
  | watch r node member _ ih => exact ih.trans (subscribe_sameHeap r.id _ _)
  | unwatch watch _ ih => exact ih.trans (unwatch_sameHeap watch _)
  | note _ _ ih => exact ih.trans (.ofObjects rfl)

theorem Quiet.still (hw : w.Quiet) : (host d handler).Still w.read w where
  access a member v := by
    have hheap := Aside.sameHeap a
    rw [← hheap.read]
    exact access_of_quiet (hheap.quiet hw) member v
  congr := read_respectsEquality w

/-! ## A small world -/

/-- Two persons, of whom one is the boss of the other. -/
def staff : World :=
  { empty with
    objects := #[
      { HostObject.new "Person" .bag with members := [("boss", .object ⟨1, "Person"⟩)] },
      { HostObject.new "Person" .bag with members := [("age", .i32 40)] }] }

def employee : Value :=
  .object ⟨0, "Person"⟩

theorem staff_quiet : staff.Quiet := by
  intro id o ho
  rcases id with _ | _ | id
  · cases ho
    decide
  · cases ho
    decide
  · cases ho

end World

end LiveExpr
