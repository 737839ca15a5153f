/-! The operations of control flow that a node of a graph can have. -/

namespace Dataflow

inductive ControlOp where
  | loopCond | switch | merge | enter | exit | nextIteration
  | tensorArray | tensorArrayWrite | tensorArrayRead | tensorArrayGather | tensorArrayScatter
  | tensorArrayConcat | tensorArraySplit | tensorArraySize | tensorArrayClose
  | fifoQueue | queueDequeueUpTo
deriving DecidableEq

namespace ControlOp

/-- The category that the operations belong to. -/
def category : String := "control"

def all : List ControlOp :=
  [.loopCond, .switch, .merge, .enter, .exit, .nextIteration, .tensorArray, .tensorArrayWrite, .tensorArrayRead,
    .tensorArrayGather, .tensorArrayScatter, .tensorArrayConcat, .tensorArraySplit, .tensorArraySize,
    .tensorArrayClose, .fifoQueue, .queueDequeueUpTo]

def name : ControlOp → String
  | .loopCond => "loopCond"
  | .switch => "switch"
  | .merge => "merge"
  | .enter => "enter"
  | .exit => "exit"
  | .nextIteration => "nextIteration"
  | .tensorArray => "tensorArray"
  | .tensorArrayWrite => "tensorArrayWrite"
  | .tensorArrayRead => "tensorArrayRead"
  | .tensorArrayGather => "tensorArrayGather"
  | .tensorArrayScatter => "tensorArrayScatter"
  | .tensorArrayConcat => "tensorArrayConcat"
  | .tensorArraySplit => "tensorArraySplit"
  | .tensorArraySize => "tensorArraySize"
  | .tensorArrayClose => "tensorArrayClose"
  | .fifoQueue => "fifoQueue"
  | .queueDequeueUpTo => "queueDequeueUpTo"

def ofName? (s : String) : Option ControlOp := all.find? fun op => op.name = s

end ControlOp

end Dataflow
