import Dataflow.Arguments
import Dataflow.TensorArray.Batch

/-! Tensor arrays under dynamic calls: an operation is named, and its arguments are values. -/

namespace Dataflow.TensorArray

inductive Method where
  | size
  | read
  | readMany
  | write
  | writeMany
  | gather
  | scatter
  | concat
  | split
  | clearAndClose
  | text
deriving DecidableEq

def Method.parameters : Method → List Arguments.Parameter
  | .size | .clearAndClose | .text => []
  | .read => [("index", none)]
  | .readMany => [("indices", none)]
  | .write => [("index", none), ("tensor", none)]
  | .writeMany => [("indices", none), ("tensors", none)]
  | .gather => [("indices", none), ("dtype", some .nothing)]
  | .scatter => [("indices", none), ("tensor", none)]
  | .concat => [("dtype", some .nothing)]
  | .split => [("lengths", none), ("tensor", none)]

def invoke : Method → List Value → Action (Session × TensorArray) Value
  | .size, _ => do return .int (← openSize.onSecond)
  | .text, _ => do return .text (← get).2.text
  | .clearAndClose, _ => do clearAndClose; return .nothing
  | .read, [i] => do return .tensor (← (read i).onSecond)
  | .readMany, [is] => do return .list ((← (readMany is).onSecond).map .tensor)
  | .write, [i, x] => do (write i x).onSecond; return .nothing
  | .writeMany, [is, xs] => do (writeMany is xs).onSecond; return .nothing
  | .gather, [is, d] => do return .tensor (← gather is d)
  | .scatter, [is, x] => do (scatter is x).onSecond; return .nothing
  | .concat, [d] => do return .tensor (← concat d)
  | .split, [ns, x] => do (split ns x).onSecond; return .nothing
  | _, _ => throw .wrongType

def call (m : Method) (args : List Value) : Action (Session × TensorArray) Value := do
  invoke m (← Arguments.bind m.parameters args [])

def parameters : List Arguments.Parameter :=
  [("name", none), ("dtype", none), ("size", none), ("element_shape", some .nothing),
    ("identical_element_shapes", some (.flag false)), ("dynamic_size", some (.flag false)),
    ("clear_after_read", some (.flag true))]

def ofArguments (s : Session) (byPosition : List Value) (byName : List (String × Value)) : Outcome TensorArray := do
  match ← Arguments.bind parameters byPosition byName with
  | [name, dtype, size, elementShape, identical, dynamicSize, clearAfterRead] =>
    make s { name, dtype, size, elementShape, identical, dynamicSize, clearAfterRead }
  | _ => throw .wrongType

end Dataflow.TensorArray
