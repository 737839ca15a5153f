import Dataflow.Arguments
import Dataflow.Graph.ControlOp
import Dataflow.Graph.Edge
import Dataflow.Session.Creation
import Dataflow.Dispatch.Structure
import Dataflow.Value.Dimensions

/-! The operations of the library under dynamic calls: an operation is named, and its arguments and its answer are
    values. -/

namespace Dataflow

inductive Operation where
  | edgeOfName | keyInContext | integer | integers
  | partialShape | isDefined | compatibleShapes | checkShape | immediateShape | formatShape
  | dtypeInfo | checkDType | registerDTypes
  | constant | empty | flag | indexScalar
  | index | split | tie | stack
  | indexOf | splitOf | tieWith
  | contextId
  | fromElement | fromTensor | element | clone | data | className
  | abstract | controlOps
deriving DecidableEq

def NumberClass.name : NumberClass → String
  | .real => "float"
  | .int => "int"
  | .bool => "bool"

def NumberClass.ofName? (s : String) : Option NumberClass :=
  [NumberClass.real, .int, .bool].find? fun c => c.name = s

def DTypeInfo.toValue (i : DTypeInfo) : Value :=
  .list [i.name, (i.numbers.map fun c => Value.text c.name).getD .nothing, i.size]

/-- What is to be registered of an element type, from a sequence of name, class of numbers and size. -/
def DTypeInfo.ofValue (v : Value) : Outcome DTypeInfo := do
  match ← v.items with
  | [name, .nothing, size] => return ⟨name, none, size⟩
  | [name, .text numbers, size] => return ⟨name, NumberClass.ofName? numbers, size⟩
  | [_, _, _] => throw .wrongType
  | _ => throw .badValue

namespace Operation

def parameters : Operation → List Arguments.Parameter
  | .edgeOfName => [("name", none)]
  | .keyInContext => [("name", none), ("context_id", none)]
  | .integer => [("value", none), ("what", none)]
  | .integers => [("values", none), ("what", none)]
  | .partialShape | .isDefined | .immediateShape | .formatShape => [("shape", none)]
  | .compatibleShapes => [("expected", none), ("actual", none)]
  | .checkShape | .checkDType => [("expected", none), ("actual", none), ("what", none)]
  | .dtypeInfo => [("name", none)]
  | .registerDTypes => [("entries", none)]
  | .constant => [("value", none), ("dtype", none), ("device", some Session.auto)]
  | .empty => [("shape", none), ("dtype", none), ("device", some Session.auto)]
  | .flag => [("device", some Session.auto)]
  | .indexScalar => [("value", none), ("dtype", some .nothing), ("device", some Session.auto)]
  | .index => [("x", none), ("index", none), ("axis", none)]
  | .split => [("x", none), ("axis", none), ("sizes", none)]
  | .tie | .stack => [("xs", none), ("axis", none)]
  | .indexOf => [("self", none), ("index", none), ("axis", none)]
  | .splitOf => [("self", none), ("axis", none), ("sizes", none)]
  | .tieWith => [("self", none), ("others", none), ("axis", none)]
  | .contextId => [("frames", none)]
  | .fromElement => [("item", none), ("dtype", none)]
  | .fromTensor => [("array", none)]
  | .element | .clone | .data | .className => [("self", none)]
  | .abstract => [("name", none)]
  | .controlOps => []

/-- The tensors of a nonempty sequence. -/
def someTensors (xs : Value) : Outcome (List Tensor) := do
  let xs ← xs.items
  if xs.isEmpty then throw (.premise .tacit)
  Value.toTensors xs

/-- Parts of a tensor, whose sizes are checked before anything is asked of the tensor. A scalar has no axes. -/
def parts (x axis sizes : Value) : Outcome Value := do
  let ns ← sizes.wholeParts
  Tensor.requireSizes ns
  match x with
  | .scalar _ _ =>
    let _ ← axis.position
    throw .indexOutOfRange
  | x => return .tuple ((← (← x.toTensor).split axis ns).map .tensor)

def evaluate : Operation → List Value → Outcome Value
  | .edgeOfName, [.text name] => do
    let e ← Edge.ofName name
    return .tuple [.text e.node, .int e.slot]
  | .edgeOfName, [.bytes _] => .error .wrongType
  | .edgeOfName, _ => .error .missingMember
  | .keyInContext, [name, id] =>
    .ok (if id.truth then .text (Edge.key name.plain id.plain) else name)
  | .integer, [v, what] => do return .int (← v.integer what.plain)
  | .integers, [v, what] => do return .list ((← v.integers what.plain).map .int)
  | .partialShape, [s] => do return (← Dataflow.partialShape s).toValue
  | .isDefined, [s] => do return .flag (← givenShape s).isDefined
  | .compatibleShapes, [e, a] => do return .flag (← Dataflow.compatibleShapes e a)
  | .checkShape, [e, a, what] => do checkGivenShape e a what.plain; return .nothing
  | .immediateShape, [s] => do return .tuple ((← givenShape s).collapse (.int 0))
  | .formatShape, [s] => do return .text ((← givenShape s).format Value.shown)
  | .checkDType, [e, a, what] => do Dataflow.checkDType e a what.plain; return .nothing
  | .index, [x, i, axis] | .indexOf, [x, i, axis] => do return .tensor (← (← x.toTensor).index i axis)
  | .split, [x, axis, sizes] => parts x axis sizes
  | .splitOf, [x, axis, sizes] => do parts (.tensor (← x.toTensor)) axis sizes
  | .tie, [xs, axis] => do return .tensor (← Tensor.tie (← someTensors xs) axis)
  | .stack, [xs, axis] => do return .tensor (← Tensor.stack (← someTensors xs) axis)
  | .tieWith, [x, others, axis] => do
    let t ← x.toTensor
    return .tensor (← Tensor.tie (t :: (← Value.toTensors (← others.items))) axis)
  | .contextId, [frames] => do return .text (← Frame.contextId (← Frame.stackOfValue frames))
  | .fromTensor, [x] | .clone, [x] => do return .tensor (← x.toTensor)
  | .data, [x] => do return .list ((← x.read).data.map Value.ofElement)
  | .className, [x] => do return .text (Value.tensorClass (← x.toTensor).device)
  | .abstract, [.text member] =>
    if member = "type" then .ok (.text Class.tensor.name) else .error .abstractMember
  | .controlOps, [] => .ok (.list [.text ControlOp.category, .list (ControlOp.all.map fun op => .text op.name)])
  | _, _ => .error .wrongType

/-- Registers element types one after the other, and answers with the last one, which there has to be. -/
def registerEach (last : Option DTypeInfo) : List Value → Action Session Value
  | [] => match last with
    | some i => return i.toValue
    | none => throw .indexOutOfRange
  | v :: vs => do
    let i ← DTypeInfo.ofValue v
    Session.registerDType i
    registerEach (some i) vs

/-- The only element of a tensor, as a number of the class that the session reads its type as. -/
def soleValue (x : Tensor) : Action Session Value := do
  let i ← Session.requireDType (.text x.dtype.name)
  i.valueOf (← x.soleElement)

/-- An operation on the values of its parameters. -/
def run : Operation → List Value → Action Session Value
  | .dtypeInfo, [name] => do return (← Session.requireDType name).toValue
  | .registerDTypes, [entries] => do registerEach none (← entries.items)
  | .fromElement, [v, dtype] => do
    let x ← (Kernel.constant .host v dtype : Outcome Tensor)
    Session.requireKnown [x]
    return .tensor x
  | .element, [.scalar _ e] => return .ofElement e
  | .element, [x] => do soleValue (← x.toTensor)
  | .constant, [v, dtype, device] => do return .tensor (← Session.constant v dtype device)
  | .empty, [shape, dtype, device] => do return .tensor (← Session.empty shape dtype device)
  | .flag, [device] => do return .tensor (← Session.flag device)
  | .indexScalar, [v, dtype, device] => do return .tensor (← Session.indexScalar v dtype device)
  | op, vs => do return ← evaluate op vs

def call (op : Operation) (byPosition : List Value) (byName : List (String × Value)) : Action Session Value := do
  op.run (← Arguments.bind op.parameters byPosition byName)

end Operation

end Dataflow
