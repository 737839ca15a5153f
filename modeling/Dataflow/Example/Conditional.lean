import Dataflow.Graph.Run
import Dataflow.Number.Numeral

/-! A conditional as a graph: `y` is twice `x` where `x` is positive, and `-x` otherwise. A switch hands `x` to one of
    two branches, a merge takes what comes out of them, and the result passes through a queue. -/

namespace Dataflow.Conditional

def switchNode : Node where
  name := "switch"
  op := .text ControlOp.switch.name
  inputs := ["x", "positive"]
  params := [("data", ⟨0, none, .tensor⟩), ("pred", ⟨1, none, .tensor⟩)]
  attrs := []

def mergeNode : Node where
  name := "merge"
  op := .text ControlOp.merge.name
  inputs := ["negate", "double"]
  params := []
  attrs := []

def queueNode : Node where
  name := "queue"
  op := .text ControlOp.fifoQueue.name
  inputs := []
  params := []
  attrs := [("dtypes", .list [.text DType.float32.name]), ("shapes", .list [.list []])]

def dequeueNode : Node where
  name := "dequeue"
  op := .text ControlOp.queueDequeueUpTo.name
  inputs := ["queue"]
  params := [("fifoQueueId", ⟨0, none, .number⟩)]
  attrs := [("num", .int 4)]

/-- A tensor whose elements are changed in single precision. -/
def mapSingle (f : Floating → Floating) (x : Tensor) : Tensor :=
  x.mapAs .float32 fun e => .real ((f e.toFloating).round .single)

/-- The outputs of a visit that answers with some. -/
def outputsOf (n : Node) : Action Run Outputs := do
  match ← Run.visit n with
  | some o => return o
  | none => throw .wrongType

/-- The single value of a visit. -/
def outputOf (n : Node) : Action Run Tensor := do
  match ← outputsOf n with
  | [some x] => return x
  | _ => throw .badValue

/-- A branch, if its input has a value. -/
def branch (name : String) (f : Floating → Floating) : Option Tensor → Action Run Unit
  | some x => Run.store name [some (mapSingle f x)]
  | none => pure ()

/-- The graph run on one number: the result, and the column that the queue gives back. -/
def evaluate (x : Floating) : Action Run (Tensor × Tensor) := do
  Run.put "x" [some (.scalar .host .float32 (.real (x.round .single)))]
  Run.put "positive" [some (.scalar .host .bool (.flag x.isPositive))]
  match ← outputsOf switchNode with
  | [whenFalse, whenTrue] =>
    branch "double" Floating.double whenTrue
    branch "negate" Floating.negate whenFalse
    let y ← outputOf mergeNode
    let _ ← outputsOf queueNode
    let k ← (← get).context.queueNumber (.int 0)
    Run.inContext (Context.onQueue k (Queue.enqueue [.tensor y]).onSecond)
    return (y, ← outputOf dequeueNode)
  | _ => throw .badValue

def line (s : Session) (arg : String) : Outcome String × Session :=
  match Numeral.real? arg with
  | none => (.error .badValue, s)
  | some x =>
    let (r, run) := evaluate x (.initial s)
    let text := fun (y, column) => do
      let y ← Tensor.elementValue y
      return "x=" ++ arg ++ "\ty=" ++ y.written ++ "\tdequeued=" ++
        (Value.nested column.shape column.data).written ++ "\n"
    (r.bind text, run.session)

def defaultArguments : List String := ["3", "-1.5"]

/-- The lines for the arguments, up to the first that fails. -/
def lines (s : Session) : List String → List String × Option Failure
  | [] => ([], none)
  | arg :: rest => match line s arg with
    | (.error e, _) => ([], some e)
    | (.ok l, s) =>
      let (ls, e) := lines s rest
      (l :: ls, e)

/-- What the program prints for its arguments, and why it ends before the last of them. -/
def output (s : Session) (args : List String) : String × Option Failure :=
  let (ls, e) := lines s (if args.isEmpty then defaultArguments else args)
  (String.join ls, e)

end Dataflow.Conditional
