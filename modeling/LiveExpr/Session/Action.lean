import LiveExpr.Compile
import LiveExpr.Result.Basic

/-!
What a host can do with objects and bindings, written down as data: single actions, and scripts of
actions that run from inside a callback.
-/

namespace LiveExpr

/-- A value to be made when it is needed: texts and lists get a new allocation each time. -/
inductive Literal
  | fixed (v : Value)
  | text (s : String)
  | list (items : List Literal)

/-- The `times` of a script bounds how often it may be started; `onlyWhen` makes it wait for a
change to that very result. Objects are given by number and the rest by name. -/
inductive Action
  | set (object : Nat) (member : String) (value : Literal)
  | touch (object : Nat)
  | announce (object : Nat) (member : Option String)
  | getMember (object : Nat) (member : String)
  | readMember (object : Nat) (member : String)
  | typeName (object : Nat)
  | isObservable (object : Nat)
  | debugObject (object : Nat)
  | subscribe (object : Nat) (handler : String) (script : List Action) (times : Nat)
  | unsubscribe (object key : Nat)
  | watch (object : Nat) (guard : String) (script : List Action) (times : Nat)
  | release (guard : String)
  | isOn (guard : String) (object : Nat)
  | debugGuard (guard : String)
  | compile (prototype : String) (lambda : Lambda)
  | describe (prototype : String)
  | evaluate (prototype : String) (value : Literal)
  | evaluateMany (prototype : String) (values : List Literal)
  | clone (prototype binding : String) (mode : BindingMode)
  | bind (binding : String) (value : Literal)
  | unbind (binding : String)
  | drop (binding : String)
  | observe (binding observer : String) (script : List Action) (times : Nat)
      (onlyWhen : Option (Option Literal))
  | unobserve (binding observer : String)
  | value (binding : String)
  | trace (binding : String)
  | debugBinding (binding : String)
  | info (binding : String)

inductive Reply
  | nothing
  | flag (b : Bool)
  | text (s : String)
  | key (n : Nat)
  | result (r : Result)
  | results (rs : List Result)
  | reading (r : Except ResultAccessError Value)
  | failure (e : CompileError)
  | prototype (p : Prototype)
  | info (mode : BindingMode) (nodes : Nat) (telemetry : Telemetry)

/-- Whether there is nothing to show; an absent result counts as nothing. -/
def Reply.isNothing : Reply → Bool
  | nothing | result none => true
  | _ => false

inductive Event
  | change (binding observer : String) (change : ResultChange)
  | notified (handler : String) (member : Option String)
  | reply (r : Reply)

end LiveExpr
