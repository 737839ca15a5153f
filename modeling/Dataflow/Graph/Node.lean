import Dataflow.Graph.Edge
import Dataflow.Position
import Dataflow.Value.Dimensions

/-! Nodes of a graph and the values of their parameters. A parameter is read from the node's input edges, as a tensor
    or as what is in it, or it is an attribute. -/

namespace Dataflow

/-- What an input parameter is read as. -/
inductive ParamType where
  | tensor
  | tensors
  /-- The first element of a tensor. -/
  | number
  /-- Whether the first element of a tensor counts as true. -/
  | bool
  /-- All elements of a tensor, as nested lists. -/
  | elements
deriving DecidableEq

structure InputParam where
  start : Int
  /-- `none` reads one input, zero reads through the last one. -/
  stop : Option Int
  type : ParamType

structure Node where
  name : String
  op : Value
  inputs : List String
  params : List (String × InputParam)
  attrs : List (String × Value)

namespace Node

/-- The start of a parameter; a negative one is counted from the end. -/
def shiftedStart (n : Node) (p : InputParam) : Int :=
  if p.start < 0 then n.inputs.length + p.start else p.start

/-- The input edges of a parameter that takes several. -/
def edges (n : Node) (p : InputParam) : List String :=
  let start := n.shiftedStart p
  match p.stop with
  | none => segment n.inputs start (start + 1)
  | some e => if e = 0 then segment n.inputs start n.inputs.length else segment n.inputs start e

/-- The input edge of a parameter that takes one. -/
def edge (n : Node) (p : InputParam) : Outcome String :=
  match (position? n.inputs.length (n.shiftedStart p)).bind (n.inputs[·]?) with
  | some e => .ok e
  | none => .error .indexOutOfRange

/-- A tensor, or nothing, as a value. -/
def optional : Option Tensor → Value
  | none => .nothing
  | some t => .tensor t

/-- The first element of a tensor, which has to have one. -/
def firstElement (n : Node) (name : String) (x : Tensor) : Outcome Element := do
  x.readable
  match x.data with
  | e :: _ => return e
  | [] => throw (.refused (.emptyParam n.op n.name name))

/-- What a tensor is read as. -/
def readAs (n : Node) (name : String) (x : Tensor) : ParamType → Outcome Value
  | .tensor | .tensors => .ok (.tensor x)
  | .number => do return Value.ofElement (← n.firstElement name x)
  | .bool => do return .flag (← n.firstElement name x).truth
  | .elements => do
    x.readable
    return Value.nested x.shape x.data

/-- The value of a parameter, which is `nothing` where there is none. -/
def param (n : Node) (values : Values) (ids : List String) (name : String) : Outcome Value :=
  match n.params.lookup name with
  | none => .ok ((n.attrs.lookup name).getD .nothing)
  | some p => match p.type with
    | .tensors => do return .list ((← (n.edges p).mapM (values.get ids)).map optional)
    | type => do
      match ← values.get ids (← n.edge p) with
      | none => return .nothing
      | some x => n.readAs name x type

/-! ### Parameters of a kind -/

/-- A parameter that has to have a value. -/
def required (n : Node) (values : Values) (ids : List String) (name : String) : Outcome Value := do
  match ← n.param values ids name with
  | .nothing => throw (.refused (.missingParam n.op n.name name))
  | v => return v

def label (n : Node) (name : String) : String :=
  n.op.plain ++ " node " ++ Text.quote n.name ++ " param " ++ Text.quote name

def intParam (n : Node) (values : Values) (ids : List String) (name : String) : Outcome Int := do
  Value.integer (n.label name) (← n.required values ids name)

def intParamOr (default : Int) (n : Node) (values : Values) (ids : List String) (name : String) : Outcome Int := do
  match ← n.param values ids name with
  | .nothing => return default
  | v => Value.integer (n.label name) v

def intsParam (n : Node) (values : Values) (ids : List String) (name : String) : Outcome (List Int) := do
  Value.integers (n.label name) (← n.required values ids name)

def boolParamOr (default : Bool) (n : Node) (values : Values) (ids : List String) (name : String) :
    Outcome Bool := do
  match ← n.param values ids name with
  | .nothing => return default
  | v => return v.truth

/-- A parameter that stands in for itself only if it counts as true. -/
def paramOr (default : Value) (n : Node) (values : Values) (ids : List String) (name : String) : Outcome Value := do
  let v ← n.param values ids name
  return if v.truth then v else default

end Node

end Dataflow
