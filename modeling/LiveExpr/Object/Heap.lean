import LiveExpr.Object.Notifier
import LiveExpr.Value.Equality
import LiveExpr.Value.Render

/-!
The objects that a graph reads from outside: named members, and for most kinds a notifier through
which changes are announced.
-/

namespace LiveExpr

/-- Members by name, in ascending order of names. -/
abbrev Members := List (String × Value)

namespace Members

def get? (ms : Members) (name : String) : Option Value :=
  ms.lookup name

def put : Members → String → Value → Members
  | [], name, v => [(name, v)]
  | (n, w) :: rest, name, v =>
    if name = n then (name, v) :: rest
    else if name < n then (name, v) :: (n, w) :: rest
    else (n, w) :: put rest name v

end Members

/-- A `bag` announces every write and a `record` nothing at all. A `gauge` leaves announcing to its
owner, an `echo` besides announces every read, and a `silent` object is neither a bag nor announces
anything. -/
inductive ObjectKind
  | bag | record | gauge | echo | silent
deriving DecidableEq

namespace ObjectKind

def notifies : ObjectKind → Bool
  | bag | gauge | echo => true
  | record | silent => false

def isBag : ObjectKind → Bool
  | bag | record => true
  | gauge | echo | silent => false

end ObjectKind

/-- `η` is the type of what can be subscribed. `unannounced` are the members that have changed since
the object last announced a change of them; nothing that runs depends on it. -/
structure HostObject (η : Type) where
  typeName : String
  kind : ObjectKind
  members : Members
  unannounced : List String
  notifier : Option (Notifier η)

namespace HostObject

variable {η : Type}

def new (typeName : String) (kind : ObjectKind) : HostObject η :=
  ⟨typeName, kind, [], [], if kind.notifies then some .empty else none⟩

def read (o : HostObject η) (member : String) : Value :=
  (o.members.get? member).getD .null

def write (o : HostObject η) (member : String) (v : Value) : HostObject η :=
  { o with
    members := o.members.put member v
    unannounced := if o.read member == v then o.unannounced else member :: o.unannounced }

/-- The object once it has announced a change; without a notifier it cannot. -/
def announced (o : HostObject η) (changed : Option String) : HostObject η :=
  if o.notifier.isSome then
    { o with unannounced := o.unannounced.filter fun member => !concerns changed member }
  else
    o

def subscriberCount (o : HostObject η) : Nat :=
  o.notifier.elim 0 Notifier.count

def debug? (o : HostObject η) : Option String :=
  let members := ", ".intercalate (o.members.map fun (n, v) => Text.quote n ++ ": " ++ v.quoted)
  let count := toString o.subscriberCount
  if o.kind.isBag then
    some ("PropertyBag \x7b type_name: " ++ Text.quote o.typeName ++ ", members: \x7b" ++ members ++
      "\x7d, subscribers: " ++ count ++ " \x7d")
  else
    o.notifier.map fun _ => "ChangeNotifier \x7b subscribers: " ++ count ++ " \x7d"

end HostObject

end LiveExpr
