import Dataflow.Tensor.Basic
import Dataflow.Typing.Basic

/-! Operators with their parameters, and the operands that an implementation is selected for: tensors, operators,
    operators placed on a device, and stand-ins of which only the type is known. -/

namespace Dataflow

inductive Operator where
  | constant (value dtype : Value)
  | empty (shape dtype : Value)
  | index (axis position : Value)
  | split (axis sizes : Value)
  | tie (axis : Value)
  | stack (axis : Value)

inductive OperatorKind where
  | constant
  | empty
  | index
  | split
  | tie
  | stack
deriving DecidableEq

namespace OperatorKind

def all : List OperatorKind := [.constant, .empty, .index, .split, .tie, .stack]

def toClass : OperatorKind → Class
  | .constant => .constant
  | .empty => .empty
  | .index => .index
  | .split => .split
  | .tie => .tie
  | .stack => .stack

end OperatorKind

def Operator.kind : Operator → OperatorKind
  | .constant _ _ => .constant
  | .empty _ _ => .empty
  | .index _ _ => .index
  | .split _ _ => .split
  | .tie _ => .tie
  | .stack _ => .stack

inductive Operand where
  | tensor (x : Tensor)
  | operator (op : Operator)
  | placed (inner : Operand) (device : Value)
  | standIn (type : TypeExpr)

namespace Operand

/-- The literal type of a device; a tuple lists several. -/
def deviceType : Value → TypeExpr
  | .tuple vs => .literalOf vs
  | v => .literalOf [v]

def type : Operand → TypeExpr
  | .tensor x => .named x.device.toClass
  | .operator op => .named op.kind.toClass
  | .placed inner device => .apply .placed [inner.type, deviceType device]
  | .standIn t => t

def tensor? : Operand → Option Tensor
  | .tensor x => some x
  | _ => none

end Operand

end Dataflow
