/-!
The operators of expressions. More can be written than can be compiled: arithmetic, shifts and the
short-circuiting forms have types but no place in a live graph.
-/

namespace LiveExpr

inductive UnaryOp
  | not | negate | arrayLength | convert | unaryPlus | typeAs
deriving DecidableEq

inductive BinaryOp
  | equal | notEqual
  | lessThan | lessThanOrEqual | greaterThan | greaterThanOrEqual
  | and | or | exclusiveOr
  | andAlso | orElse
  | arrayIndex
  | add | subtract | multiply | divide | modulo
  | coalesce
  | leftShift | rightShift
deriving DecidableEq

namespace UnaryOp

def symbol : UnaryOp → String
  | not => "!"
  | negate => "-"
  | arrayLength => "len"
  | convert => "convert"
  | unaryPlus => "+"
  | typeAs => "as"

def name : UnaryOp → String
  | not => "Not"
  | negate => "Negate"
  | arrayLength => "ArrayLength"
  | convert => "Convert"
  | unaryPlus => "UnaryPlus"
  | typeAs => "TypeAs"

end UnaryOp

namespace BinaryOp

def symbol : BinaryOp → String
  | equal => "=="
  | notEqual => "!="
  | lessThan => "<"
  | lessThanOrEqual => "<="
  | greaterThan => ">"
  | greaterThanOrEqual => ">="
  | and => "&"
  | or => "|"
  | exclusiveOr => "^"
  | andAlso => "&&"
  | orElse => "||"
  | arrayIndex => "[]"
  | add => "+"
  | subtract => "-"
  | multiply => "*"
  | divide => "/"
  | modulo => "%"
  | coalesce => "??"
  | leftShift => "<<"
  | rightShift => ">>"

def name : BinaryOp → String
  | equal => "Equal"
  | notEqual => "NotEqual"
  | lessThan => "LessThan"
  | lessThanOrEqual => "LessThanOrEqual"
  | greaterThan => "GreaterThan"
  | greaterThanOrEqual => "GreaterThanOrEqual"
  | and => "And"
  | or => "Or"
  | exclusiveOr => "ExclusiveOr"
  | andAlso => "AndAlso"
  | orElse => "OrElse"
  | arrayIndex => "ArrayIndex"
  | add => "Add"
  | subtract => "Subtract"
  | multiply => "Multiply"
  | divide => "Divide"
  | modulo => "Modulo"
  | coalesce => "Coalesce"
  | leftShift => "LeftShift"
  | rightShift => "RightShift"

def isRelational : BinaryOp → Bool
  | lessThan | lessThanOrEqual | greaterThan | greaterThanOrEqual => true
  | _ => false

/-- Whether numeric operands are brought to a common type first. -/
def promotesOperands : BinaryOp → Bool
  | andAlso | orElse | arrayIndex | coalesce | leftShift | rightShift => false
  | _ => true

end BinaryOp

end LiveExpr
