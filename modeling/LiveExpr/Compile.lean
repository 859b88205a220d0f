import LiveExpr.Expr.Basic
import LiveExpr.Graph.Clone
import LiveExpr.Graph.Telemetry

/-!
Compilation of a lambda into a graph. Subexpressions are placed by identity, so that one used in
several places becomes one node; the first expression outside the grammar, in depth-first order
with a node before its operands, is the one reported.
-/

namespace LiveExpr

/-- Each cause carries the expression at which compilation stopped. -/
inductive CompileError
  | unsupported (expr : Expr)
  | staticMember (expr : Expr)
  | shortCircuit (expr : Expr)
  | undefinedOperator (expr : Expr) (cause : TypeError)
  | unboundParameter (expr : Expr)

namespace CompileError

def expr : CompileError → Expr
  | unsupported e | staticMember e | shortCircuit e | undefinedOperator e _ | unboundParameter e => e

def message : CompileError → String
  | unsupported e => "unsupported expression: " ++ e.render
  | staticMember e => "static member access cannot be observed for changes: " ++ e.render
  | shortCircuit e => "short-circuiting operators cannot combine absent operands: " ++ e.render
  | undefinedOperator e cause => cause.message ++ ": " ++ e.render
  | unboundParameter e => "parameter is not the compiled lambda's own: " ++ e.render

end CompileError

/-- A compiled lambda: its graph with the nodes of the parameter and the body. It is never changed;
bindings are cloned from it. -/
structure Prototype where
  lambda : Lambda
  graph : Graph
  parameter : Nat
  body : Nat

namespace Compile

structure Progress where
  graph : Graph
  placed : List (Nat × Nat)

/-- A node for `e`, specialised on `typeArgs`, which is from now on the node of that identity. -/
def Progress.place (s : Progress) (e : Expr) (tag : NodeTag) (typeArgs : List ValueType)
    (payload : NodePayload) (inputs : List Nat) (label : String) : Nat × Progress :=
  let c := NodeConstructor.build tag typeArgs
  let node : Node := ⟨c.instantiate payload, e.type, c.policy, inputs, label, e.render⟩
  (s.graph.size, ⟨s.graph.add node, (e.id, s.graph.size) :: s.placed⟩)

def supportsUnary : UnaryOp → Bool
  | .not | .negate | .arrayLength | .convert => true
  | .unaryPlus | .typeAs => false

def unaryLabel (op : UnaryOp) (result : ValueType) : String :=
  match op with
  | .convert => "as " ++ result.render
  | op => op.symbol

/-- The kind of node for a binary operator, or why there is none. On booleans, nullable or not, the
conjunction and the disjunction are connectives of their own. -/
def binaryTag (e : Expr) (op : BinaryOp) (left right : ValueType) : Except CompileError NodeTag :=
  let logical := left.isBoolean && right.isBoolean
  match op with
  | .equal => .ok .binaryEqual
  | .notEqual => .ok .binaryNotEqual
  | .lessThan | .lessThanOrEqual | .greaterThan | .greaterThanOrEqual => .ok .binaryRelational
  | .and => .ok (if logical then .binaryLogicalAnd else .binaryDefault)
  | .or => .ok (if logical then .binaryLogicalOr else .binaryDefault)
  | .exclusiveOr | .arrayIndex => .ok .binaryDefault
  | .andAlso | .orElse => .error (.shortCircuit e)
  | _ => .error (.unsupported e)

def binaryTypeArgs (tag : NodeTag) (left right result : ValueType) : List ValueType :=
  if tag.arity = 3 then [left, right, result] else [left, right]

def kernelFor {κ : Type} (e : Expr) (kernel : Except TypeError κ) : Except CompileError κ :=
  kernel.mapError (.undefinedOperator e)

/-- The node of an expression: the one placed before, or a new one after those of its operands. -/
def visit (e : Expr) (s : Progress) : Except CompileError (Nat × Progress) :=
  match s.placed.lookup e.id with
  | some id => .ok (id, s)
  | none =>
    match e with
    | .parameter .. => .error (.unboundParameter e)
    | .staticMember .. => .error (.staticMember e)
    | .conditional .. | .call .. => .error (.unsupported e)
    | .constant _ t v => .ok (s.place e .constant [t] (.constant v) [] v.quoted)
    | .member _ t target name reads => do
      let (object, s) ← visit target s
      return s.place e .memberAccess [target.type, t] (.member name reads) [object] ("." ++ name)
    | .unary _ t op operand => do
      if !supportsUnary op then
        throw (.unsupported e)
      let (input, s) ← visit operand s
      let kernel ← kernelFor e (UnaryKernel.build op operand.type t)
      return s.place e .unaryOp [operand.type, t] (.unary op kernel) [input] (unaryLabel op t)
    | .binary _ t op left right => do
      let tag ← binaryTag e op left.type right.type
      let (l, s) ← visit left s
      let (r, s) ← visit right s
      let kernel ← kernelFor e (BinaryKernel.build op left.type right.type)
      return s.place e tag (binaryTypeArgs tag left.type right.type t) (.binary op kernel) [l, r]
        op.symbol

end Compile

/-- The parameter becomes the node 0, and the body follows. -/
def Lambda.compile (l : Lambda) : Except CompileError Prototype :=
  match l.parameter with
  | .parameter _ t name => do
    let (parameter, s) :=
      Compile.Progress.place ⟨.empty, []⟩ l.parameter .parameter [t] .parameter [] name
    let (body, s) ← Compile.visit l.body s
    return ⟨l, s.graph, parameter, body⟩
  | e => .error (.unsupported e)

namespace Prototype

def telemetry (p : Prototype) : Telemetry :=
  .analyze p.graph p.parameter p.body

def debug (p : Prototype) : String :=
  "Prototype \x7b lambda: " ++ p.lambda.debug ++ ", nodes: " ++ toString p.graph.size ++ " \x7d"

end Prototype

end LiveExpr
