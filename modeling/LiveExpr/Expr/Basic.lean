import LiveExpr.Operator
import LiveExpr.Value.Render

/-!
The expressions a live graph is compiled from. Every node carries an identity: two uses of one
identity are one shared subexpression, and nodes built apart differ even when they look alike.
-/

namespace LiveExpr

/-- A member access reads the member `reads` of its target and is named after the member whose
changes it follows. Static members, conditionals and calls can be written but not compiled. -/
inductive Expr
  | parameter (id : Nat) (type : ValueType) (name : String)
  | constant (id : Nat) (type : ValueType) (value : Value)
  | member (id : Nat) (type : ValueType) (target : Expr) (name reads : String)
  | staticMember (id : Nat) (type : ValueType) (owner name : String)
  | unary (id : Nat) (type : ValueType) (op : UnaryOp) (operand : Expr)
  | binary (id : Nat) (type : ValueType) (op : BinaryOp) (left right : Expr)
  | conditional (id : Nat) (type : ValueType) (test ifTrue ifFalse : Expr)
  | call (id : Nat) (type : ValueType) (target : Option Expr) (method : String) (args : List Expr)

namespace Expr

def id : Expr → Nat
  | parameter i .. | constant i .. | member i .. | staticMember i .. | unary i .. | binary i ..
  | conditional i .. | call i .. => i

def type : Expr → ValueType
  | parameter _ t .. | constant _ t .. | member _ t .. | staticMember _ t .. | unary _ t ..
  | binary _ t .. | conditional _ t .. | call _ t .. => t

def isNullConstant : Expr → Bool
  | constant _ _ .null => true
  | _ => false

mutual

/-- Binary operators stand between their operands in parentheses, conversions name their type. -/
def render : Expr → String
  | parameter _ _ name => name
  | constant _ _ v => v.quoted
  | member _ _ target name _ => target.render ++ "." ++ name
  | staticMember _ _ owner name => owner ++ "::" ++ name
  | unary _ t op operand =>
    match op with
    | .not | .negate | .unaryPlus => op.symbol ++ operand.render
    | .arrayLength => operand.render ++ ".len()"
    | .convert => "(" ++ operand.render ++ " as " ++ t.render ++ ")"
    | .typeAs => "(" ++ operand.render ++ " as? " ++ t.render ++ ")"
  | binary _ _ op left right =>
    match op with
    | .arrayIndex => left.render ++ "[" ++ right.render ++ "]"
    | op => "(" ++ left.render ++ " " ++ op.symbol ++ " " ++ right.render ++ ")"
  | conditional _ _ test ifTrue ifFalse =>
    "(" ++ test.render ++ " ? " ++ ifTrue.render ++ " : " ++ ifFalse.render ++ ")"
  | call _ _ none method args => method ++ "(" ++ renderArgs args ++ ")"
  | call _ _ (some target) method args =>
    target.render ++ "." ++ method ++ "(" ++ renderArgs args ++ ")"

def renderArgs : List Expr → String
  | [] => ""
  | [e] => e.render
  | e :: f :: rest => e.render ++ ", " ++ renderArgs (f :: rest)

end

def debug (e : Expr) : String :=
  "Expr(" ++ e.render ++ ": " ++ e.type.render ++ ")"

end Expr

/-- A function expression of one parameter, the unit of compilation. -/
structure Lambda where
  parameter : Expr
  body : Expr

namespace Lambda

def resultType (l : Lambda) : ValueType :=
  l.body.type

def render (l : Lambda) : String :=
  l.parameter.render ++ " => " ++ l.body.render

def debug (l : Lambda) : String :=
  "Lambda(" ++ l.render ++ ")"

end Lambda

end LiveExpr
