import Dataflow.Arguments
import Dataflow.Queue.Basic

/-! Queues under dynamic calls: an operation is named, and its arguments are values. -/

namespace Dataflow.Queue

inductive Method where
  | enqueue
  | dequeueUpTo
  | size
  | bounded
  | dtypes
  | shapes
  | capacity
  | name
  | container
  | text
deriving DecidableEq

def call (m : Method) (args : List Value) : Action (Session × Queue) Value := do
  let q := (← get).2
  match m with
  | .enqueue => (enqueue args).onSecond; return .nothing
  | .dequeueUpTo =>
    match ← Arguments.bind [("num", none), ("dtypes", some .nothing)] args [] with
    | [num, dtypes] => return .list ((← dequeueUpTo num dtypes).map .tensor)
    | _ => throw .wrongType
  | .size => return .int q.size
  | .bounded => return .flag (← q.bounded)
  | .dtypes => return .tuple q.dtypes
  | .shapes => return .tuple (q.shapes.map PartialShape.toValue)
  | .capacity => return q.capacity
  | .name => return q.name
  | .container => return q.container
  | .text => return .text q.text

def parameters : List Arguments.Parameter :=
  [("dtypes", none), ("shapes", some .nothing), ("capacity", some (.int 0)), ("name", some (.text "")),
    ("container", some (.text ""))]

def ofArguments (s : Session) (byPosition : List Value) (byName : List (String × Value)) : Outcome Queue := do
  match ← Arguments.bind parameters byPosition byName with
  | [dtypes, shapes, capacity, name, container] => make s { dtypes, shapes, capacity, name, container }
  | _ => throw .wrongType

end Dataflow.Queue
