import LiveExpr.Graph.Clone
import LiveExpr.Result.Basic

/-!
What the library reports about its own work, each report with a level and a text.
-/

namespace LiveExpr

inductive Request
  | memberNotification
  | bind
  | unbind
deriving DecidableEq

def Request.name : Request → String
  | memberNotification => "member notification"
  | bind => "bind"
  | unbind => "unbind"

inductive Notice
  | compiled (lambda : String) (nodes shared : Nat)
  | cloned (nodes : Nat) (mode : BindingMode)
  | binding (value : Value)
  | unbinding (watches : Nat)
  | unchanged (node : Nat) (source : String)
  | changed (node : Nat) (source : String) (change : ResultChange)
  | ignored (request : Request)

namespace Notice

/-- Changes of single nodes are for tracing, and a request that is turned down is a warning. -/
def level : Notice → String
  | compiled .. | cloned .. | binding _ | unbinding _ => "DEBUG"
  | unchanged .. | changed .. => "TRACE"
  | ignored _ => "WARN"

def message : Notice → String
  | compiled lambda nodes shared =>
    "compiled `" ++ lambda ++ "` into " ++ toString nodes ++ " nodes (" ++ toString shared ++
      " shared)"
  | cloned nodes mode => "cloned " ++ toString nodes ++ " nodes (" ++ mode.name ++ " mode)"
  | binding v => "binding to " ++ v.render
  | unbinding watches => "unbinding (" ++ toString watches ++ " subscriptions)"
  | unchanged node source => toString node ++ " `" ++ source ++ "`: unchanged"
  | changed node source change => toString node ++ " `" ++ source ++ "`: " ++ change.render
  | ignored request => request.name ++ " ignored: binding is mid-propagation"

def render (n : Notice) : String :=
  n.level ++ " " ++ n.message

end Notice

end LiveExpr
