import Dataflow.Backend.Torch.Type
import Dataflow.Value.Coercion

/-! The kernels of the torch backend that create tensors. They check numbers against the range of the element type,
    and nested sequences become a tensor of their shape. -/

namespace Dataflow.Torch

open Value

/-! ### Elements -/

/-- An integer as an element of an integer type. It has to fit into a register of 64 bits; an unsigned type also takes
    the negatives of its numbers, modulo its range. The widest unsigned type takes just its own numbers. -/
def integerElement (signed : Bool) (bits : Nat) (n : Int) : Outcome Element :=
  if !signed ∧ bits = 64 then
    if Storage.holds false 64 n then .ok (.whole n) else .error .tooLarge
  else if !Storage.holds true 64 n then .error .badValue
  else if Storage.holds signed bits n || (!signed && -(Storage.highest signed bits) ≤ n && n ≤ 0) then
    .ok (.whole (Storage.wrap signed bits n))
  else .error .backendFault

/-- A number with a fraction as an element of an integer type. It has to lie between the least number of the type and
    one past the greatest. -/
def truncatedElement (signed : Bool) (bits : Nat) (x : Floating) : Outcome Element :=
  let low := Floating.ofInt (Storage.lowest signed bits)
  let high := Floating.ofInt (Storage.highest signed bits + 1)
  if !signed ∧ bits = 64 then .error .wrongType
  else if x.lt low || !x.lt high then .error .backendFault
  else match x.truncate? with
    | some n => .ok (.whole n)
    | none => .error .backendFault

/-- A number rounded to a type; half precision is reached by way of single precision. -/
def floatingElement (f : Format) (x : Floating) : Element :=
  .real (if f = .half then (x.round .single).round .half else x.round f)

def ofInteger (d : DType) (n : Int) : Outcome Element :=
  match d.storage with
  | .boolean => .ok (.flag (n != 0))
  | .integer signed bits => integerElement signed bits n
  | .floating f => if isHuge n then .error .tooLarge else .ok (floatingElement f (.roundInt .double n))
  | _ => if isHuge n then .error .tooLarge else .ok (Element.cast d (.real (.roundInt .double n)))

def ofReal (d : DType) (x : Floating) : Outcome Element :=
  match d.storage with
  | .boolean => .ok (.flag x.isNonzero)
  | .integer signed bits => truncatedElement signed bits x
  | .floating f => .ok (floatingElement f x)
  | _ => .ok (Element.cast d (.real x))

/-- A scalar as an element of a type. Only integers stand for an integer, those of double precision for a number with
    a fraction, and truth values for one another. -/
def ofScalar (d c : DType) (e : Element) : Outcome Element :=
  match d.storage, e with
  | .floating f, e => .ok (floatingElement f (e.toFloating.round .double))
  | .complex _, e => .ok (Element.cast d (.real (e.toFloating.round .double)))
  | .integer false 64, _ => .error .wrongType
  | _, .whole n => ofInteger d n
  | _, .real x => if c = .float64 then ofReal d x else .error .wrongType
  | .boolean, .flag b => .ok (.flag b)
  | _, _ => .error .wrongType

def element (d : DType) : Value → Outcome Element
  | .int n => ofInteger d n
  | .flag b => ofInteger d (if b then 1 else 0)
  | .real x => ofReal d x
  | .scalar c e => ofScalar d c e
  | _ => .error .wrongType

def stored (t : ElementType) (v : Value) : Outcome Element :=
  match t.content with
  | .numbersOf d => do return (← element d v).cast t.dtype
  | _ => .error .backendFault

/-! ### Tensors -/

def depthBound : Nat := 128

/-- The shape that nested sequences announce by their first members. A text never ends, as its first member is a text
    again. -/
def announcedShape : Value → Outcome Shape
  | .list [] | .tuple [] | .bytes [] | .text "" => .ok [0]
  | .list (v :: vs) | .tuple (v :: vs) => do
    let s ← announcedShape v
    if depthBound ≤ s.length then throw .badValue
    return (vs.length + 1) :: s
  | .bytes bs => .ok [bs.length]
  | .text _ => .error .badValue
  | _ => .ok []

/-- The elements of nested sequences that have to be of a shape. -/
def elementsOf (t : ElementType) : Shape → Value → Outcome (List Element)
  | [], v => do return [← stored t v]
  | n :: s, v => do
    let vs ← v.items
    if vs.length ≠ n then throw .badValue
    return (← vs.mapM (elementsOf t s)).flatten

/-- A tensor of the values in nested sequences. -/
def nestedTensor (t : ElementType) (v : Value) : Outcome Tensor := do
  let s ← announcedShape v
  let es ← if s.size = 0 then pure [] else elementsOf t s v
  match Tensor.ofList? .torch t.dtype s es with
  | some x => return x
  | none => throw .badValue

/-- A tensor of a value, of the element type that is asked for. -/
def constant (value dtype : Value) : Outcome Tensor := do
  let type ← typeFor dtype
  match value with
  | .text _ | .bytes _ => throw .wrongType
  | v => nestedTensor type v

/-- A dimension of a new tensor; truth values are none. -/
def dimension : Value → Outcome Int
  | .int n | .scalar _ (.whole n) => if Storage.holds true 64 n then .ok n else .error .wrongType
  | _ => .error .wrongType

/-- A dimension behind another one. Here truth values count as zero and one. -/
def laterDimension : Value → Outcome Int
  | .flag b => .ok (if b then 1 else 0)
  | v => dimension v

/-- The dimensions of a new tensor. -/
def dimensions : Value → Outcome (List Int)
  | .list (v :: vs) | .tuple (v :: vs) => do return (← dimension v) :: (← vs.mapM laterDimension)
  | .list [] | .tuple [] => .ok []
  | v => do return [← dimension v]

/-- The steps between the elements along the axes of a shape fit into a word; a dimension of zero steps like one of
    one. -/
def hasSteps (s : Shape) (size : Nat) : Bool :=
  Shape.size ((s.drop 1).map (max 1 ·)) < 2 ^ 63 && s.size * size < 2 ^ 63

def empty (shape dtype : Value) : Outcome Tensor := do
  let type ← typeFor dtype
  let dims ← dimensions shape
  let s := dims.map Int.toNat
  if dims.any (· < 0) ∨ !hasSteps s type.dtype.size then throw .backendFault
  if type.content = .nothing then throw .unimplemented
  return .zeros .torch type.dtype s

end Dataflow.Torch
