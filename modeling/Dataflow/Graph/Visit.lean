import Dataflow.Graph.Context
import Dataflow.Graph.ControlOp
import Dataflow.Graph.Node

/-! Visits: one execution of a node in a context. A visit reads values and answers with the node's outputs; a merge
    none of whose inputs is there yet answers with none and has to be visited again. -/

namespace Dataflow

/-- A visit of a node, given the values that are there. -/
abbrev Visit := Node → Values → Action (Session × Context) (Option Outputs)

namespace Visit

def visible : Action (Session × Context) (List String) := do return (← get).2.ids

/-- A parameter of a node, read in the current context. -/
def reading {α : Type} (read : Node → Values → List String → String → Outcome α)
    (n : Node) (values : Values) (name : String) : Action (Session × Context) α := do
  read n values (← visible) name

def tensorOutputs (xs : List Tensor) : Option Outputs := some (xs.map some)

/-! ### Loops and branches -/

def loopCond : Visit := fun n values => do
  let pred ← reading Node.required n values "pred"
  return tensorOutputs [← pred.toTensor]

/-- Hands the data to one of two outputs: to the second one if the first element of the predicate counts as true. -/
def switch : Visit := fun n values => do
  let pred ← reading Node.required n values "pred"
  let data ← reading Node.required n values "data"
  let pred ← pred.read
  let data ← data.toTensor
  return some (if (pred.data.head?.map Element.truth).getD false then [none, some data] else [some data, none])

/-- The first value on several edges. -/
def firstValue (values : Values) (ids : List String) : List String → Outcome (Option Tensor)
  | [] => .ok none
  | e :: es => do
    match ← values.get ids e with
    | some x => return some x
    | none => firstValue values ids es

def merge : Visit := fun n values => do
  match ← firstValue values (← visible) n.inputs with
  | some x => return tensorOutputs [x]
  | none =>
    (Session.record .control (.ok ("merge " ++ Text.quote n.name ++ " has no ready input"))).onFirst
    return none

def enter : Visit := fun n values => do
  let frameName ← reading Node.param n values "frameName"
  let x ← reading Node.required n values "tensor"
  Context.enterFrame frameName
  return tensorOutputs [← x.toTensor]

def exit : Visit := fun n values => do
  let x ← reading Node.required n values "tensor"
  Context.exitFrame
  return tensorOutputs [← x.toTensor]

def nextIteration : Visit := fun n values => do
  let x ← reading Node.required n values "tensor"
  Context.nextIteration.onSecond
  return tensorOutputs [← x.toTensor]

/-! ### Tensor arrays -/

/-- The number under which an object was registered, and the flag that it was. -/
def handle (k : Nat) : Action (Session × Context) (Option Outputs) := do
  let id ← (Session.indexScalar (.int k) .nothing Session.auto).onFirst
  let flag ← (Session.flag Session.auto).onFirst
  return tensorOutputs [id, flag]

/-- The flag alone. -/
def done : Action (Session × Context) (Option Outputs) := do
  return tensorOutputs [← (Session.flag Session.auto).onFirst]

def tensorArray : Visit := fun n values => do
  let name ← reading (Node.paramOr (.text n.name)) n values "name"
  let dtype ← reading Node.param n values "dtype"
  let size ← reading (Node.intParamOr 0) n values "size"
  let elementShape ← reading Node.param n values "elementShape"
  let identical ← reading (Node.boolParamOr false) n values "identicalElementShapes"
  let dynamicSize ← reading (Node.boolParamOr false) n values "dynamicSize"
  let clearAfterRead ← reading (Node.boolParamOr true) n values "clearAfterRead"
  let a ← TensorArray.make (← get).1 {
    name
    dtype
    size := .int size
    elementShape
    identical := .flag identical
    dynamicSize := .flag dynamicSize
    clearAfterRead := .flag clearAfterRead }
  handle (← Context.addArray a)

/-- The number of the tensor array that a node acts on. -/
def arrayOf (n : Node) (values : Values) : Action (Session × Context) Nat := do
  let id ← reading Node.intParam n values "tensorArrayId"
  (← get).2.arrayNumber (.int id)

def positions (is : List Int) : Value := .list (is.map .int)

def tensorArrayWrite : Visit := fun n values => do
  let k ← arrayOf n values
  let i ← reading Node.intParam n values "index"
  let x ← reading Node.required n values "tensor"
  Context.onArray k (TensorArray.write (.int i) x).onSecond
  done

def tensorArrayRead : Visit := fun n values => do
  let k ← arrayOf n values
  let i ← reading Node.intParam n values "index"
  return tensorOutputs [← Context.onArray k (TensorArray.read (.int i)).onSecond]

def tensorArrayGather : Visit := fun n values => do
  let k ← arrayOf n values
  let is ← reading Node.intsParam n values "indices"
  let dtype ← reading Node.param n values "dtype"
  return tensorOutputs [← Context.onArray k (TensorArray.gather (positions is) dtype)]

def tensorArrayScatter : Visit := fun n values => do
  let k ← arrayOf n values
  let is ← reading Node.intsParam n values "indices"
  let x ← reading Node.required n values "tensor"
  Context.onArray k (TensorArray.scatter (positions is) x).onSecond
  done

def tensorArrayConcat : Visit := fun n values => do
  let k ← arrayOf n values
  let dtype ← reading Node.param n values "dtype"
  return tensorOutputs [← Context.onArray k (TensorArray.concat dtype)]

def tensorArraySplit : Visit := fun n values => do
  let k ← arrayOf n values
  let ns ← reading Node.intsParam n values "lengths"
  let x ← reading Node.required n values "tensor"
  Context.onArray k (TensorArray.split (positions ns) x).onSecond
  done

def tensorArraySize : Visit := fun n values => do
  let k ← arrayOf n values
  let size ← Context.onArray k (TensorArray.openSize).onSecond
  return tensorOutputs [← (Session.indexScalar (.int size) (.text "int32") Session.auto).onFirst]

def tensorArrayClose : Visit := fun n values => do
  let k ← arrayOf n values
  Context.onArray k TensorArray.clearAndClose
  return some []

/-! ### Queues -/

def fifoQueue : Visit := fun n values => do
  let dtypes ← reading Node.param n values "dtypes"
  let shapes ← reading Node.param n values "shapes"
  let capacity ← reading (Node.intParamOr 0) n values "capacity"
  let name ← reading (Node.paramOr (.text n.name)) n values "name"
  let container ← reading (Node.paramOr (.text "")) n values "container"
  let q ← Queue.make (← get).1 { dtypes, shapes, capacity := .int capacity, name, container }
  handle (← Context.addQueue q)

def queueDequeueUpTo : Visit := fun n values => do
  let id ← reading Node.intParam n values "fifoQueueId"
  let k ← (← get).2.queueNumber (.int id)
  let num ← reading Node.intParam n values "num"
  let dtypes ← reading Node.param n values "dtypes"
  return tensorOutputs (← Context.onQueue k (Queue.dequeueUpTo (.int num) dtypes))

/-! ### Nodes -/

def ofControlOp : ControlOp → Visit
  | .loopCond => loopCond
  | .switch => switch
  | .merge => merge
  | .enter => enter
  | .exit => exit
  | .nextIteration => nextIteration
  | .tensorArray => tensorArray
  | .tensorArrayWrite => tensorArrayWrite
  | .tensorArrayRead => tensorArrayRead
  | .tensorArrayGather => tensorArrayGather
  | .tensorArrayScatter => tensorArrayScatter
  | .tensorArrayConcat => tensorArrayConcat
  | .tensorArraySplit => tensorArraySplit
  | .tensorArraySize => tensorArraySize
  | .tensorArrayClose => tensorArrayClose
  | .fifoQueue => fifoQueue
  | .queueDequeueUpTo => queueDequeueUpTo

end Visit

def Node.controlOp? (n : Node) : Option ControlOp :=
  match n.op with
  | .text s => ControlOp.ofName? s
  | _ => none

def Node.visit (n : Node) (values : Values) : Action (Session × Context) (Option Outputs) :=
  match n.controlOp? with
  | some op => Visit.ofControlOp op n values
  | none => throw (.unsupported n.op)

end Dataflow
