import LiveExpr.Result.Basic

/-!
Conjunction and disjunction over the presence of their operands. When both operands are present
the operator decides; when one is missing, a present operand that absorbs the other one decides
alone, and otherwise the result is absent.
-/

namespace LiveExpr

inductive Verdict
  | decided (result : Result)
  | byOperator (left right : Value)

namespace Verdict

def resolve (op : Value → Value → Value) : Verdict → Result
  | decided r => r
  | byOperator a b => some (op a b)

def calls : Verdict → Nat
  | decided _ => 0
  | byOperator .. => 1

end Verdict

namespace Result

/-- The connective in which the truth value `absorbing` outweighs whatever it meets. -/
def connect (absorbing : Bool) : Result → Result → Verdict
  | some a, some b => .byOperator a b
  | none, none => .decided none
  | l, r =>
    if l.truth? = some absorbing || r.truth? = some absorbing then
      .decided (some (.bool absorbing))
    else
      .decided none

def conjunction : Result → Result → Verdict :=
  connect false

def disjunction : Result → Result → Verdict :=
  connect true

end Result

end LiveExpr
