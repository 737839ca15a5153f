import Dataflow.Dispatch.Kernel
import Dataflow.Dispatch.Table

/-! The structural operations on tensors. The kernel is the one that the library's table selects for the devices of
    the tensors. -/

namespace Dataflow

namespace Operator

/-- What an operator that needs no device makes of tensors. -/
def apply (op : Operator) (xs : List Tensor) : Outcome (List Tensor) := do
  let operands := .operator op :: xs.map .tensor
  let types := operands.map Operand.type
  match ← (Table.builtin [.host, .torch]).lookup types with
  | .kernel device kind => Kernel.run device kind operands
  | _ => throw (.undispatched types 0)

/-- What an operator makes of tensors, where this is a single tensor. -/
def applySingle (op : Operator) (xs : List Tensor) : Outcome Tensor := do
  match ← op.apply xs with
  | [y] => return y
  | _ => throw .badValue

end Operator

namespace Tensor

def index (x : Tensor) (i axis : Value) : Outcome Tensor :=
  Operator.applySingle (.index axis i) [x]

def rowsUpTo (x : Tensor) (n : Nat) : Outcome (List Tensor) :=
  (List.range n).mapM fun (k : Nat) => x.index (.int k) (.int 0)

def lengthAt (x : Tensor) (axis : Value) : Outcome Nat := do
  match (position? x.rank (← axis.position)).bind (x.shape[·]?) with
  | some n => return n
  | none => throw .indexOutOfRange

/-- Sizes of parts are not negative. -/
def requireSizes (sizes : List Int) : Outcome Unit :=
  if sizes.any (· < 0) then .error (.refused (.negativeSplit sizes)) else .ok ()

/-- Consecutive parts along an axis, of sizes that are not negative and add up to its length. -/
def split (x : Tensor) (axis : Value) (sizes : List Int) : Outcome (List Tensor) := do
  requireSizes sizes
  let length ← x.lengthAt axis
  if sumOf sizes ≠ length then throw (.refused (.splitTotal sizes length))
  Operator.apply (.split axis (.tuple (sizes.map .int))) [x]

/-- Tensors one after the other along an axis; there has to be one. -/
def tie (xs : List Tensor) (axis : Value) : Outcome Tensor :=
  if xs.isEmpty then .error (.premise .tacit) else Operator.applySingle (.tie axis) xs

/-- Tensors of one shape along a new axis; there has to be one. -/
def stack (xs : List Tensor) (axis : Value) : Outcome Tensor :=
  if xs.isEmpty then .error (.premise .tacit) else Operator.applySingle (.stack axis) xs

end Tensor

end Dataflow
