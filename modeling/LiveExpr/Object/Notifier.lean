/-!
Subscriptions to the changes of one object. Handlers are called in the order they subscribed; one
that is removed while a change is being announced is no longer called, and one that is added then
is not called yet.
-/

namespace LiveExpr

/-- Handlers by key, in the order of subscription; keys below `nextKey` have been given out. -/
structure Notifier (η : Type) where
  handlers : List (Nat × η)
  nextKey : Nat

namespace Notifier

variable {η σ : Type}

def empty : Notifier η :=
  ⟨[], 0⟩

def count (n : Notifier η) : Nat :=
  n.handlers.length

def holds (n : Notifier η) (key : Nat) : Bool :=
  n.handlers.any (·.1 == key)

def subscribe (n : Notifier η) (handler : η) : Nat × Notifier η :=
  (n.nextKey, ⟨n.handlers ++ [(n.nextKey, handler)], n.nextKey + 1⟩)

/-- Tells whether there was a handler to remove. -/
def unsubscribe (n : Notifier η) (key : Nat) : Bool × Notifier η :=
  (n.holds key, { n with handlers := n.handlers.filter (·.1 != key) })

/-- Calls, out of the handlers there at the start, each that is still there when its turn comes.
A call may change the whole state `σ`, and with it the notifier that `view` finds there. -/
def dispatch (view : σ → Notifier η) (call : η → σ → σ) (s : σ) : σ :=
  (view s).handlers.foldl (fun s (key, handler) => if (view s).holds key then call handler s else s) s

end Notifier

/-- Whether an announced change is about `member`; no name, or an empty one, may mean any. -/
def concerns (changed : Option String) (member : String) : Bool :=
  match changed with
  | none => true
  | some name => name = "" || name = member

end LiveExpr
