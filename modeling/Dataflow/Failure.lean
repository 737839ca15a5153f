import Dataflow.Typing.Basic

/-! Why an operation fails. Causes carry what the message names; the wording is in one place. A refusal is the
    library's own answer to an operation that its state cannot accept; the remaining causes say what kind of fault
    the arguments had. -/

namespace Dataflow

/-- Why a tensor array refuses an operation. -/
inductive ArrayRefusal where
  | negativeSize (size : Value)
  | closed
  | negativeIndex (index : Value)
  | readPastEnd (index : Value) (size : Nat)
  | writePastEnd (index : Value) (size : Nat)
  | alreadyRead (index : Value)
  | neverWritten (index : Value)
  | pairing (indices tensors : Nat)
  | rowCount (rows : Nat) (shape : Shape)
  | scatterPastEnd (last : Value) (size : Nat)
  | scalarConcat
  | scalarSplit
  | lengthTotal (total : Int) (shape : Shape)
  | chunkCount (chunks size : Nat)

/-- Why a queue refuses an operation. -/
inductive QueueRefusal where
  | shapeCount (shapes dtypes : Nat)
  | componentCount (expected got : Nat)
  | full (capacity : Value)
  | negativeCount (count : Value)
  | dtypeCount (expected got : Nat)

/-- An operation that the current state cannot accept. -/
inductive Refusal where
  | unknownDType (name : Value)
  | dtypeMismatch (what : String) (expected actual : Value)
  | shapeMismatch (what expected actual : String)
  | notInteger (what : String) (value : Value)
  | notIntegers (what : String) (value : Value)
  | missingParam (op : Value) (node param : String)
  | emptyParam (op : Value) (node param : String)
  | rootMissing
  | exitFromRoot
  | iterationOfRoot
  | noSuchArray (id : Value)
  | noSuchQueue (id : Value)
  | negativeSplit (sizes : List Int)
  | splitTotal (sizes : List Int) (length : Nat)
  | array (name : Value) (cause : ArrayRefusal)
  | queue (name : Value) (cause : QueueRefusal)

/-- A condition that the library takes for granted. -/
inductive Premise where
  /-- Something that is required in silence. -/
  | tacit
  | sameDType (operation : String) (found first : DType)
  | arrayUnregistered
  | queueUnregistered

inductive Failure where
  | unsupported (op : Value)
  | refused (cause : Refusal)
  /-- No single implementation takes the types: how many do. -/
  | undispatched (types : List TypeExpr) (candidates : Nat)
  | premise (broken : Premise)
  | wrongType
  | badValue
  | indexOutOfRange
  | axisOutOfRange
  | missingMember
  | tooLarge
  | endlessRedirect
  | abstractMember
  /-- A backend has no kernel for what is asked of it. -/
  | unimplemented
  | backendFault
  /-- A scalar beside a text, in an operation that takes no such pair. -/
  | mixedKinds
  /-- Bytes that spell no text. -/
  | undecodable
  /-- A text that no bytes spell. -/
  | unencodable
  /-- A number or a tuple that is not written as one. -/
  | malformedLiteral
  /-- A name that the environment does not take. -/
  | refusedName

/-- The outcome of an operation without state. -/
abbrev Outcome := Except Failure

namespace ArrayRefusal

def message (name : String) : ArrayRefusal → String
  | .negativeSize size => "TensorArray " ++ name ++ ": size must be non-negative, got " ++ size.plain
  | .closed => "TensorArray " ++ name ++ " has already been closed"
  | .negativeIndex i => "TensorArray " ++ name ++ ": index " ++ i.plain ++ " must be non-negative"
  | .readPastEnd i n =>
    "TensorArray " ++ name ++ ": tried to read from index " ++ i.plain ++ ", but array size is " ++ toString n
  | .writePastEnd i n =>
    "TensorArray " ++ name ++ ": tried to write to index " ++ i.plain ++
      ", but array is not resizeable and size is " ++ toString n
  | .alreadyRead i =>
    "TensorArray " ++ name ++ ": could not read index " ++ i.plain ++
      " twice because it was cleared after a previous read (perhaps try setting clear_after_read = false?)"
  | .neverWritten i =>
    "TensorArray " ++ name ++ ": could not read from index " ++ i.plain ++ " because it has not been written"
  | .pairing i t => "TensorArray " ++ name ++ ": got " ++ toString i ++ " indices for " ++ toString t ++ " tensors"
  | .rowCount rows s =>
    "TensorArray " ++ name ++ ": expected a tensor with " ++ toString rows ++
      " rows to scatter, got shape " ++ s.format
  | .scatterPastEnd last n =>
    "TensorArray " ++ name ++ ": max index " ++ last.plain ++ " must be < array size " ++ toString n
  | .scalarConcat => "TensorArray " ++ name ++ ": cannot concat scalar elements"
  | .scalarSplit => "TensorArray " ++ name ++ ": cannot split a scalar"
  | .lengthTotal total s =>
    "TensorArray " ++ name ++ ": expected sum of lengths to be equal to tensor.shape[0], but sum of lengths is " ++
      toString total ++ ", and tensor's shape is " ++ s.format
  | .chunkCount chunks n =>
    "TensorArray " ++ name ++ ": got " ++ toString chunks ++ " chunks for an array of size " ++ toString n

end ArrayRefusal

namespace QueueRefusal

def message (name : String) : QueueRefusal → String
  | .shapeCount s d => "FIFOQueue " ++ name ++ ": got " ++ toString s ++ " shapes for " ++ toString d ++ " dtypes"
  | .componentCount e g =>
    "FIFOQueue " ++ name ++ ": expected " ++ toString e ++ " components, got " ++ toString g
  | .full capacity => "FIFOQueue " ++ name ++ " is full (capacity " ++ capacity.plain ++ ")"
  | .negativeCount n => "FIFOQueue " ++ name ++ ": cannot dequeue " ++ n.plain ++ " elements"
  | .dtypeCount e g => "FIFOQueue " ++ name ++ ": expected " ++ toString e ++ " dtypes, got " ++ toString g

end QueueRefusal

namespace Refusal

def sizesText (sizes : List Int) : String := "[" ++ ", ".intercalate (sizes.map toString) ++ "]"

def message : Refusal → String
  | .unknownDType name => "unknown dtype " ++ name.written
  | .dtypeMismatch what e a => what ++ ": expected dtype " ++ e.plain ++ ", got " ++ a.plain
  | .shapeMismatch what e a => what ++ ": expected shape " ++ e ++ ", got " ++ a
  | .notInteger what v => what ++ " must be an integer, got " ++ v.written
  | .notIntegers what v => what ++ " must be a list of integers, got " ++ v.written
  | .missingParam op node param =>
    op.plain ++ " node " ++ Text.quote node ++ " has no value for " ++ Text.quote param
  | .emptyParam op node param =>
    op.plain ++ " node " ++ Text.quote node ++ ": " ++ Text.quote param ++ " is an empty tensor"
  | .rootMissing => "frame stack must start with the root frame"
  | .exitFromRoot => "Cannot exit frame, the context is empty"
  | .iterationOfRoot => "Cannot increase frame iteration, the context is empty"
  | .noSuchArray id => "TensorArray " ++ id.plain ++ " does not exist"
  | .noSuchQueue id => "FIFOQueue " ++ id.plain ++ " does not exist"
  | .negativeSplit sizes => "split sizes must be non-negative, got " ++ sizesText sizes
  | .splitTotal sizes n =>
    "split sizes " ++ sizesText sizes ++ " do not add up to dimension " ++ toString n
  | .array name cause => cause.message name.plain
  | .queue name cause => cause.message name.plain

end Refusal

namespace Premise

def message : Premise → String
  | .tacit => ""
  | .sameDType operation found first => operation ++ ": " ++ found.name ++ " vs " ++ first.name
  | .arrayUnregistered => "tensor array is already registered"
  | .queueUnregistered => "queue is already registered"

end Premise

namespace Failure

/-- The message of a failure that has one. -/
def message? : Failure → Option String
  | .unsupported op => some ("Node type " ++ op.plain ++ " is not implemented")
  | .refused cause => some cause.message
  | .undispatched types 0 => some ("no matching implementation for " ++ TypeExpr.names types)
  | .undispatched types n => some (toString n ++ " implementations match for " ++ TypeExpr.names types)
  | .premise broken => some broken.message
  | _ => none

end Failure

end Dataflow
