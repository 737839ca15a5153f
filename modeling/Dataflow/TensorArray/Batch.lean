import Dataflow.Dispatch.Structure
import Dataflow.Session.Creation
import Dataflow.TensorArray.Basic

/-! Operations of tensor arrays on several slots. Each is a sequence of reads or writes, and stops at the first that
    fails. -/

namespace Dataflow.TensorArray

def readEach : List Value → Action TensorArray (List Tensor)
  | [] => return []
  | i :: is => do
    let x ← read i
    return x :: (← readEach is)

def writeEach : List (Value × Value) → Action TensorArray Unit
  | [] => return ()
  | (i, x) :: rest => do
    write i x
    writeEach rest

def readMany (indices : Value) : Action TensorArray (List Tensor) := do
  readEach (← indices.items)

/-- Writes tensors to the slots of as many indices. -/
def writeMany (indices tensors : Value) : Action TensorArray Unit := do
  let is ← indices.items
  let xs ← tensors.items
  if is.length ≠ xs.length then refuse (.pairing is.length xs.length)
  writeEach (is.zip xs)

/-- Positions as values. -/
def indices (ks : List Nat) : List Value := ks.map fun (k : Nat) => .int k

/-- The tensor in row `k` goes to the slot of the `k`-th index. -/
def scatter (indices x : Value) : Action TensorArray Unit := do
  requireOpen
  let shape ← requireElementType "scatter" x
  let is ← indices.items
  if shape.head? ≠ some is.length then refuse (.rowCount is.length shape)
  match is with
  | [] => return ()
  | i :: rest =>
    let last ← Value.greatest i rest
    let a ← get
    if !a.dynamicSize.truth then
      if ← last.atLeast (.int a.size) then refuse (.scatterPastEnd last a.size)
    let t ← x.toTensor
    let rows ← t.rowsUpTo is.length
    writeEach (is.zip (rows.map .tensor))

/-- Consecutive parts of a tensor go to the first slots. -/
def split (lengths x : Value) : Action TensorArray Unit := do
  requireOpen
  let shape ← requireElementType "split" x
  match shape with
  | [] => refuse .scalarSplit
  | d :: _ =>
    let ns ← lengths.wholeParts
    let total := sumOf ns
    if total ≠ d then
      let _ ← (Value.int total).formatted
      refuse (.lengthTotal total shape)
    let a ← get
    if !a.dynamicSize.truth && a.size < ns.length then refuse (.chunkCount ns.length a.size)
    let t ← x.toTensor
    let parts ← t.split (.int 0) ns
    writeEach ((indices (List.range ns.length)).zip (parts.map .tensor))

/-! ### Operations that may create a tensor -/

/-- A tensor of the array's element type with nothing in it, for an operation that finds no element. -/
def nothingOf (dropFirst : Bool) : Action (Session × TensorArray) Tensor := do
  let a := (← get).2
  let dims := a.elementShape.collapse 0
  let dims := if dropFirst then dims.drop 1 else dims
  (Session.empty (Shape.toValue (0 :: dims)) a.dtype Session.auto).onFirst

/-- The element type that is asked for is that of the array. -/
def checkAsked (operation : String) (dtype : Value) : Action TensorArray Unit := do
  let a ← get
  checkDType dtype a.dtype (a.label operation)

/-- The elements at the given indices along a new outermost axis. -/
def gather (indices dtype : Value) : Action (Session × TensorArray) Tensor := do
  requireOpen.onSecond
  (checkAsked "gather" dtype).onSecond
  let is ← indices.items
  if is.isEmpty then nothingOf false
  else
    let xs ← (readEach is).onSecond
    Tensor.stack xs (.int 0)

/-- The indices of the slots that hold a tensor. -/
def held (a : TensorArray) : List Nat :=
  (List.range a.size).filter fun k => (a.slots[k]?.bind Slot.tensor).isSome

/-- The elements of all slots that hold one, in the order of the slots, along the outermost axis. -/
def concat (dtype : Value) : Action (Session × TensorArray) Tensor := do
  requireOpen.onSecond
  (checkAsked "concat" dtype).onSecond
  let is := (← get).2.held
  if is.isEmpty then nothingOf true
  else
    let xs ← (readEach (indices is)).onSecond
    if xs.any (·.rank = 0) then (refuse .scalarConcat).onSecond
    Tensor.tie xs (.int 0)

/-- The entry of the log for an array that is closed. -/
def closedLine (name : Value) : Outcome String := do
  let _ ← name.formatted
  return "closed TensorArray " ++ name.shown

/-- Gives up all slots and closes the array for good. -/
def clearAndClose : Action (Session × TensorArray) Unit := do
  modify fun (s, a) => (s, { a with slots := [], closed := true })
  (Session.record .tensorArray (closedLine (← get).2.name)).onFirst

end Dataflow.TensorArray
