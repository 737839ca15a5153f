import Dataflow.Backend.Host.Creation
import Dataflow.Backend.Host.Structure
import Dataflow.Backend.Torch.Creation
import Dataflow.Backend.Torch.Structure
import Dataflow.Dispatch.Operator

/-! Kernels: what an operator computes on a device. Given operands instead of tensors, a kernel asks each of them for
    its elements in turn, and a stand-in has none. -/

namespace Dataflow

namespace Kernel

/-- The tensor that an operand is; a stand-in has no elements. -/
def tensorOf (o : Operand) : Outcome Tensor :=
  match o.tensor? with
  | some x => .ok x
  | none => .error .missingMember

def constant (device : Device) (value dtype : Value) : Outcome Tensor :=
  match device with
  | .host => Host.constant value dtype
  | .torch => Torch.constant value dtype

def empty (device : Device) (shape dtype : Value) : Outcome Tensor :=
  match device with
  | .host => Host.empty shape dtype
  | .torch => Torch.empty shape dtype

def index (device : Device) (x : Tensor) (axis position : Value) : Outcome Tensor :=
  match device with
  | .host => Host.index x axis position
  | .torch => Torch.index x axis position

def split (device : Device) (x : Tensor) (axis sizes : Value) : Outcome (List Tensor) :=
  match device with
  | .host => Host.split x axis sizes
  | .torch => Torch.split x axis sizes

def tie (device : Device) (axis : Value) (xs : List Tensor) : Outcome Tensor :=
  match device with
  | .host => Host.tie axis xs
  | .torch => Torch.tie axis xs

def stack (device : Device) (axis : Value) (xs : List Tensor) : Outcome Tensor :=
  match device with
  | .host => Host.stack axis xs
  | .torch => Torch.stack axis xs

/-- The tensors that operands are. The host compares their element types on the way. -/
def tensorsOf (device : Device) (operation : String) (os : List Operand) : Outcome (List Tensor) := do
  match device with
  | .torch => os.mapM tensorOf
  | .host =>
    let known := os.takeWhile (·.tensor?.isSome)
    Host.requireSameDType operation (known.filterMap Operand.tensor?)
    os.mapM tensorOf

/-- The parts of a stand-in: none where no sizes are given. The host adds the sizes up before it asks for elements. -/
def splitNone (device : Device) (sizes : Value) : Outcome (List Tensor) := do
  let vs ← match device with
    | .torch => sizes.items
    | .host => Host.members sizes
  if vs.isEmpty then return []
  match device with
  | .torch => throw .missingMember
  | .host => do
    let _ ← Host.totals vs
    throw .missingMember

/-- What a kernel makes of the operands that it was selected for. -/
def run (device : Device) : OperatorKind → List Operand → Outcome (List Tensor)
  | .constant, [.placed (.operator (.constant value dtype)) _] => do return [← constant device value dtype]
  | .empty, [.placed (.operator (.empty shape dtype)) _] => do return [← empty device shape dtype]
  | .index, [.operator (.index axis position), o] => do return [← index device (← tensorOf o) axis position]
  | .split, [.operator (.split axis sizes), o] => match o.tensor? with
    | some x => split device x axis sizes
    | none => splitNone device sizes
  | .tie, .operator (.tie axis) :: os => do return [← tie device axis (← tensorsOf device "tie" os)]
  | .stack, .operator (.stack axis) :: os => do return [← stack device axis (← tensorsOf device "stack" os)]
  | .tie, _ :: os => do let _ ← tensorsOf device "tie" os; throw .missingMember
  | .stack, _ :: os => do let _ ← tensorsOf device "stack" os; throw .missingMember
  | _, _ => .error .missingMember

end Kernel

end Dataflow
