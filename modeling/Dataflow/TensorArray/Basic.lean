import Dataflow.Action
import Dataflow.Session.Basic
import Dataflow.Value.Dimensions

/-! Tensor arrays: slots for tensors of one element type, addressed by index. A write fills a slot, and past the end
    it makes an array grow that is allowed to; a read gives a copy and may clear the slot. Where all elements are to
    have one shape, the first write fixes what was left open of it. -/

namespace Dataflow

structure Slot where
  tensor : Option Tensor
  /-- Emptied by a read. -/
  cleared : Bool

namespace Slot

def empty : Slot := ⟨none, false⟩

def store (x : Tensor) (s : Slot) : Slot := { s with tensor := some x, cleared := false }

def release (s : Slot) : Slot := { s with tensor := none, cleared := true }

end Slot

structure TensorArray where
  /-- The number under which a context knows the array. -/
  id : Option Nat
  name : Value
  dtype : Value
  elementShape : PartialShape Nat
  /-- All elements have one shape. -/
  identical : Bool
  /-- The array may grow, if this counts as true. -/
  dynamicSize : Value
  clearAfterRead : Bool
  closed : Bool
  slots : List Slot

namespace TensorArray

/-- How an array is to be made. -/
structure Spec where
  name : Value
  dtype : Value
  size : Value
  elementShape : Value
  identical : Value
  dynamicSize : Value
  clearAfterRead : Value

/-- A new array of empty slots. -/
def make (s : Session) (a : Spec) : Outcome TensorArray := do
  let _ ← s.dtypeInfo a.dtype
  if ← a.size.isNegative then throw (.refused (.array a.name (.negativeSize a.size)))
  let shape ← partialShape a.elementShape
  let size ← a.size.position
  return {
    id := none
    name := a.name
    dtype := a.dtype
    elementShape := shape
    identical := a.identical.truth
    dynamicSize := a.dynamicSize
    clearAfterRead := a.clearAfterRead.truth
    closed := false
    slots := List.replicate size.toNat .empty }

def size (a : TensorArray) : Nat := a.slots.length

/-- The array as messages show it. -/
def text (a : TensorArray) : String :=
  "TensorArray(id=" ++ ((a.id.map toString).getD "None") ++ ", name=" ++ a.name.written ++ ", dtype=" ++ a.dtype.plain ++
    ", size=" ++ toString a.size ++ ", element_shape=" ++ a.elementShape.text ++
    ", dynamic_size=" ++ a.dynamicSize.plain ++ ")"

/-! ### Elementary updates -/

def onSlot (i : Nat) (f : Slot → Slot) (a : TensorArray) : TensorArray := { a with slots := a.slots.modify i f }

def growBy (n : Nat) (a : TensorArray) : TensorArray :=
  { a with slots := a.slots ++ List.replicate n .empty }

/-- The element shape as it is after a write of a tensor: fixed by it where all elements have one shape and some of it
    was left open. -/
def pin (s : Shape) (a : TensorArray) : TensorArray :=
  if a.identical && !a.elementShape.isDefined then { a with elementShape := .ofShape s } else a

/-! ### Reading and writing one slot -/

def refuse {α : Type} (cause : ArrayRefusal) : Action TensorArray α := do
  throw (.refused (.array (← get).name cause))

def requireOpen : Action TensorArray Unit := do
  if (← get).closed then refuse .closed

def openSize : Action TensorArray Nat := do
  requireOpen
  return (← get).size

def label (operation : String) (a : TensorArray) : String := "TensorArray " ++ a.name.plain ++ " " ++ operation

/-- A value that is to be written has the element type of the array. -/
def requireElementType (operation : String) (x : Value) : Action TensorArray Shape := do
  let a ← get
  checkElementType a.dtype x (a.label operation)

/-- An index for reading lies within the array. -/
def checkReadIndex (i : Value) : Action TensorArray Unit := do
  if ← i.isNegative then refuse (.negativeIndex i)
  let n := (← get).size
  if !(← i.less (.int n)) then refuse (.readPastEnd i n)

/-- An index for writing lies within the array, which grows for it where it may. -/
def checkWriteIndex (i : Value) : Action TensorArray Unit := do
  if ← i.isNegative then refuse (.negativeIndex i)
  let a ← get
  if !(← i.less (.int a.size)) then
    if !a.dynamicSize.truth then refuse (.writePastEnd i a.size)
    modify (growBy (← i.missing a.size).toNat)

/-- The place of a slot that the array has. -/
def placeOf (i : Value) : Action TensorArray Nat := do
  let k := (← i.position).toNat
  if (← get).size ≤ k then throw .indexOutOfRange
  return k

/-- The tensor in a slot; the slot is cleared where reading does so. -/
def read (i : Value) : Action TensorArray Tensor := do
  requireOpen
  checkReadIndex i
  let k := (← i.position).toNat
  match (← get).slots[k]? with
  | none => throw .indexOutOfRange
  | some slot =>
    if slot.cleared then refuse (.alreadyRead i)
    match slot.tensor with
    | none => refuse (.neverWritten i)
    | some x =>
      modify fun a => if a.clearAfterRead then a.onSlot k .release else a
      return x

def write (i x : Value) : Action TensorArray Unit := do
  requireOpen
  let shape ← requireElementType "write" x
  let a ← get
  checkShape a.elementShape shape (a.label "write at index " ++ i.plain)
  checkWriteIndex i
  modify (pin shape)
  let k ← placeOf i
  let t ← x.toTensor
  modify (onSlot k (.store t))

end TensorArray

end Dataflow
