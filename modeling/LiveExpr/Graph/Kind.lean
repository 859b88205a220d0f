import LiveExpr.Kernel
import LiveExpr.Value.Render

/-!
The kinds of nodes: what a node computes from its inputs, and the constructors specialised on the
static types around a node.
-/

namespace LiveExpr

inductive NodeTag
  | parameter | constant | memberAccess | unaryOp
  | binaryDefault | binaryEqual | binaryNotEqual | binaryRelational
  | binaryLogicalAnd | binaryLogicalOr
deriving DecidableEq

namespace NodeTag

def name : NodeTag → String
  | parameter => "Parameter"
  | constant => "Constant"
  | memberAccess => "MemberAccess"
  | unaryOp => "UnaryOp"
  | binaryDefault => "BinaryDefault"
  | binaryEqual => "BinaryEqual"
  | binaryNotEqual => "BinaryNotEqual"
  | binaryRelational => "BinaryRelational"
  | binaryLogicalAnd => "BinaryLogicalAnd"
  | binaryLogicalOr => "BinaryLogicalOr"

def byName : List NodeTag :=
  [binaryDefault, binaryEqual, binaryLogicalAnd, binaryLogicalOr, binaryNotEqual, binaryRelational,
    constant, memberAccess, parameter, unaryOp]

/-- How many static types a node of this kind is specialised on: those of its operands, and that
of its result unless it is boolean anyway. -/
def arity : NodeTag → Nat
  | parameter | constant => 1
  | memberAccess | unaryOp | binaryEqual | binaryNotEqual | binaryRelational => 2
  | binaryDefault | binaryLogicalAnd | binaryLogicalOr => 3

end NodeTag

/-- A member access with `observe` set follows the changes of the member on the object it reads. -/
inductive NodeKind
  | parameter
  | constant (value : Value)
  | memberAccess (member reads : String) (observe : Bool)
  | unaryOp (op : UnaryOp) (kernel : UnaryKernel)
  | binaryDefault (op : BinaryOp) (kernel : BinaryKernel)
  | binaryEqual (kernel : BinaryKernel)
  | binaryNotEqual (kernel : BinaryKernel)
  | binaryRelational (op : BinaryOp) (kernel : BinaryKernel)
  | binaryLogicalAnd (kernel : BinaryKernel)
  | binaryLogicalOr (kernel : BinaryKernel)

namespace NodeKind

def tag : NodeKind → NodeTag
  | parameter => .parameter
  | constant _ => .constant
  | memberAccess .. => .memberAccess
  | unaryOp .. => .unaryOp
  | binaryDefault .. => .binaryDefault
  | binaryEqual _ => .binaryEqual
  | binaryNotEqual _ => .binaryNotEqual
  | binaryRelational .. => .binaryRelational
  | binaryLogicalAnd _ => .binaryLogicalAnd
  | binaryLogicalOr _ => .binaryLogicalOr

def observes : NodeKind → Bool
  | memberAccess _ _ observe => observe
  | _ => false

def oneTime : NodeKind → NodeKind
  | memberAccess member reads _ => memberAccess member reads false
  | k => k

def debug : NodeKind → String
  | constant v => "Constant(" ++ v.quoted ++ ")"
  | memberAccess member _ observe =>
    "MemberAccess(" ++ member ++ ", observe: " ++ toString observe ++ ")"
  | unaryOp op _ => "UnaryOp(" ++ op.name ++ ")"
  | binaryDefault op _ => "BinaryDefault(" ++ op.name ++ ")"
  | binaryRelational op _ => "BinaryRelational(" ++ op.name ++ ")"
  | k => k.tag.name

end NodeKind

inductive NodePayload
  | parameter
  | constant (value : Value)
  | member (member reads : String)
  | unary (op : UnaryOp) (kernel : UnaryKernel)
  | binary (op : BinaryOp) (kernel : BinaryKernel)

/-- A kind of node specialised on static types: how its results are compared, and whether a member
access has a target that may announce changes. -/
structure NodeConstructor where
  tag : NodeTag
  resultType : ValueType
  policy : EqualityPolicy
  observe : Bool
deriving DecidableEq

namespace NodeConstructor

/-- The last static type is that of the result; comparisons yield booleans whatever they compare.
-/
def resultTypeOf (tag : NodeTag) (typeArgs : List ValueType) : ValueType :=
  match tag with
  | .binaryEqual | .binaryNotEqual | .binaryRelational => .bool
  | _ => typeArgs.getLast?.getD .bool

/-- A member access observes when its target is of an observable object type. -/
def observesOn (tag : NodeTag) (typeArgs : List ValueType) : Bool :=
  match tag, typeArgs with
  | .memberAccess, .object _ observable :: _ => observable
  | _, _ => false

def build (tag : NodeTag) (typeArgs : List ValueType) : NodeConstructor :=
  let result := resultTypeOf tag typeArgs
  ⟨tag, result, .ofType result, observesOn tag typeArgs⟩

/-- The payload decides the family of the node, and the tag its kind among the binary ones. -/
def instantiate (c : NodeConstructor) : NodePayload → NodeKind
  | .parameter => .parameter
  | .constant v => .constant v
  | .member member reads => .memberAccess member reads c.observe
  | .unary op kernel => .unaryOp op kernel
  | .binary op kernel =>
    match c.tag with
    | .binaryEqual => .binaryEqual kernel
    | .binaryNotEqual => .binaryNotEqual kernel
    | .binaryRelational => .binaryRelational op kernel
    | .binaryLogicalAnd => .binaryLogicalAnd kernel
    | .binaryLogicalOr => .binaryLogicalOr kernel
    | _ => .binaryDefault op kernel

end NodeConstructor

end LiveExpr
