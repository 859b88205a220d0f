import LiveExpr.Proofs.Session.Reading
import LiveExpr.Proofs.Live.Soundness

/-!
Holding back a change that counts as none is safe. Whatever a policy takes for the same result is an
equal one, and on a given heap nothing that a node computes tells equal inputs apart, so that the
readers of the node would come to what they have.
-/

namespace LiveExpr

namespace World

/-- What an access finds does not depend on who is told of it. -/
theorem access_result (d : Dispatcher) (w : World) (member : String) (v : Value) :
    (w.access d member v).1 = w.read member v := by
  cases v with
  | object r | struct r =>
      simp only [access, readMember, read]
      cases w.objects[r.id]? with
      | none => rfl
      | some o =>
          obtain ⟨_, kind, _⟩ := o
          cases kind <;> rfl
  | _ => rfl

theorem access_congr (d : Dispatcher) (w : World) (member : String) {v v' : Value} (h : v == v') :
    (w.access d member v).1 == (w.access d member v').1 := by
  rw [access_result, access_result]
  exact w.read_respectsEquality member v v' h

end World

namespace Live

variable {σ : Type} {h : Host σ} {l : Live} {s : σ}

/-- Every node comes to an equal result when one of them is given a result equal to its own. -/
theorem evaluate_setResult_equal
    (hread : Host.RespectsEquality fun member v => (h.access member v s).1) {id : Nat} {r : Result}
    (hr : l.ledger.get id == r) (j : Nat) :
    (l.evaluate h j s).1 == ((l.setResult id r).evaluate h j s).1 := by
  have hrules : SameRules l (l.setResult id r) := ⟨fun _ => rfl, fun _ => rfl⟩
  have hledger : ∀ i, l.ledger.get i == (l.setResult id r).ledger.get i := by
    intro i
    rw [setResult_ledger_get]
    split
    · subst i
      exact hr
    · exact BEq.rfl
  rw [evaluate_eq_due, evaluate_eq_due]
  exact hrules.due_eq hread (fun _ => hledger j) fun i _ => hledger i

theorem equal_of_not_accepted {id : Nat} {r : Result} (h : Host σ) (s : σ)
    (hr : (l.accept h id r s).1 = false) : l.ledger.get id == r := by
  have ha := accept_spec h id r l s
  rw [hr] at ha
  generalize (l.accept h id r s).2.1 = l', (l.accept h id r s).2.2 = s' at ha
  cases ha with
  | same hsame => exact Result.equal_of_sameAs hsame

end Live

/-- Equality of values is an equivalence relation, which every policy implies and which every kernel,
every access to a member of the heap and every rule of a node respects. So where a new result is not
accepted, the readers of the node, like all others, would get the same from it as from the old one. -/
theorem World.suppression_hides_nothing (w : World) (d : Dispatcher)
    (handler : Nat → String → Handler) :
    Equivalence (fun v v' : Value => v == v') ∧
      (∀ (policy : EqualityPolicy) (x y : Result), Result.sameAs policy x y = true → x == y) ∧
      (∀ (k : UnaryKernel) (v v' : Value), v == v' → k.apply v == k.apply v') ∧
      (∀ (k : BinaryKernel) (a a' b b' : Value), a == a' → b == b' → k.apply a b == k.apply a' b') ∧
      (∀ (member : String) (v v' : Value), v == v' →
        (w.access d member v).1 == (w.access d member v').1) ∧
      (∀ (k : NodeKind) (x x' y y' : Result), x == x' → y == y' → k.combine x y == k.combine x' y') ∧
      ∀ (l : Live) (id : Nat) (r : Result), (l.accept (host d handler) id r w).1 = false →
        ∀ j, (l.evaluate (host d handler) j w).1 ==
          ((l.setResult id r).evaluate (host d handler) j w).1 := by
  refine ⟨⟨fun _ => BEq.rfl, BEq.symm, BEq.trans⟩, fun _ _ _ => Result.equal_of_sameAs,
    fun k _ _ => k.apply_congr, fun k _ _ _ _ => k.apply_congr, fun _ _ _ => w.access_congr d _,
    fun k _ _ _ _ => k.combine_congr, fun l id r hr => ?_⟩
  exact Live.evaluate_setResult_equal (fun member _ _ => w.access_congr d member)
    (Live.equal_of_not_accepted _ w hr)

end LiveExpr
