import Dataflow.Dispatch.Structure
import Dataflow.Session.Creation
import Dataflow.Value.Dimensions

/-! Queues: first in, first out, of tuples of tensors with a column for each component. A column has an element type
    and a partial shape; a capacity that is not positive bounds nothing. -/

namespace Dataflow

structure Queue where
  /-- The number under which a context knows the queue. -/
  id : Option Nat
  dtypes : List Value
  shapes : List (PartialShape Nat)
  capacity : Value
  name : Value
  container : Value
  tuples : List (List Tensor)

namespace Queue

/-- How a queue is to be made. -/
structure Spec where
  dtypes : Value
  shapes : Value
  capacity : Value
  name : Value
  container : Value

/-- The shapes of the columns as they are given; nothing given leaves them all open. -/
def columnShapes (given : Value) (columns : Nat) : Outcome (List Value) :=
  let allOpen := List.replicate columns .nothing
  match given with
  | .nothing => .ok allOpen
  | v => do
    let ss ← v.items
    return if ss.isEmpty then allOpen else ss

/-- A new queue without tuples. -/
def make (s : Session) (q : Spec) : Outcome Queue := do
  let dtypes ← q.dtypes.items
  dtypes.forM fun d => do let _ ← s.dtypeInfo d
  let shapes ← columnShapes q.shapes dtypes.length
  if shapes.length ≠ dtypes.length then throw (.refused (.queue q.name (.shapeCount shapes.length dtypes.length)))
  return {
    id := none
    dtypes := dtypes
    shapes := ← shapes.mapM partialShape
    capacity := q.capacity
    name := q.name
    container := q.container
    tuples := [] }

def size (q : Queue) : Nat := q.tuples.length

/-- The queue as messages show it. -/
def text (q : Queue) : String :=
  "FIFOQueue(id=" ++ ((q.id.map toString).getD "None") ++ ", name=" ++ q.name.written ++
    ", dtypes=" ++ (Value.list q.dtypes).written ++ ", capacity=" ++ q.capacity.plain ++ ")"

/-- The capacity is a bound. -/
def bounded (q : Queue) : Outcome Bool := (Value.int 0).less q.capacity

/-- The columns, each with its element type and its shape. -/
def columns (q : Queue) : List (Value × PartialShape Nat) := q.dtypes.zip q.shapes

def refuse {α : Type} (cause : QueueRefusal) : Action Queue α := do
  throw (.refused (.queue (← get).name cause))

def label (column : Nat) (q : Queue) : String :=
  "FIFOQueue " ++ q.name.plain ++ " component " ++ toString column

/-- Every component has the element type of its column and a shape that the column admits. -/
def checkComponents (q : Queue) : Nat → List (Value × Value × PartialShape Nat) → Outcome Unit
  | _, [] => .ok ()
  | k, (x, dtype, shape) :: rest => do
    checkShape shape (← checkElementType dtype x (q.label k)) (q.label k)
    checkComponents q (k + 1) rest

def push (xs : List Tensor) (q : Queue) : Queue := { q with tuples := q.tuples ++ [xs] }

def drop (n : Nat) (q : Queue) : Queue := { q with tuples := q.tuples.drop n }

def enqueue (xs : List Value) : Action Queue Unit := do
  let q ← get
  if xs.length ≠ q.dtypes.length then refuse (.componentCount q.dtypes.length xs.length)
  if ← q.bounded then
    if ← (Value.int q.size).atLeast q.capacity then refuse (.full q.capacity)
  q.checkComponents 0 (xs.zip q.columns)
  let ts ← Value.toTensors xs
  modify (push ts)

/-- The element types that are asked for are those of the columns. -/
def checkAsked (q : Queue) : Nat → List (Value × Value) → Outcome Unit
  | _, [] => .ok ()
  | k, (asked, dtype) :: rest => do
    checkDType asked dtype (q.label k)
    checkAsked q (k + 1) rest

/-- How many tuples are taken for a number that is asked for: that number, or what there is if it is less. -/
def takenFor (num : Value) (available : Nat) : Outcome Nat := do
  if ← (Value.int available).less num then return available
  return (← num.position).toNat

/-- The entry of the log for a number of tuples taken. What was asked for is written in plain decimal form. -/
def takenLine (taken : Nat) (asked : Value) (q : Queue) : Outcome String := do
  let asked ← (Value.int (← asked.wholePart)).formatted
  return "dequeued " ++ toString taken ++ " of " ++ asked ++ " requested from " ++ q.text

/-- Takes tuples off the front: at most the number that is asked for. -/
def takeUpTo (num dtypes : Value) : Action (Session × Queue) (List (List Tensor)) := do
  if ← num.isNegative then (refuse (.negativeCount num)).onSecond
  let q := (← get).2
  match dtypes with
  | .nothing => pure ()
  | ds =>
    let ds ← ds.items
    if !ds.isEmpty then
      if ds.length ≠ q.dtypes.length then (refuse (.dtypeCount q.dtypes.length ds.length)).onSecond
      q.checkAsked 0 (ds.zip q.dtypes)
  let n ← takenFor num q.size
  modify fun (s, q) => (s, q.drop n)
  (Session.record .queue (takenLine n num (q.drop n))).onFirst
  return q.tuples.take n

/-- A column of tuples along a new outermost axis. -/
def column (tuples : List (List Tensor)) (k : Nat) : Outcome Tensor :=
  Tensor.stack (tuples.filterMap (·[k]?)) (.int 0)

/-- Takes tuples off the front and gives back every column of them as one tensor. -/
def dequeueUpTo (num dtypes : Value) : Action (Session × Queue) (List Tensor) := do
  let tuples ← takeUpTo num dtypes
  let q := (← get).2
  if tuples.isEmpty then
    q.columns.mapM fun (dtype, shape) =>
      (Session.empty (Shape.toValue (0 :: shape.collapse 0)) dtype Session.auto).onFirst
  else (List.range q.dtypes.length).mapM fun k => (column tuples k : Outcome Tensor)

end Queue

end Dataflow
