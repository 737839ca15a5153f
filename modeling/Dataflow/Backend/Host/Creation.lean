import Dataflow.Backend.Host.Storing
import Dataflow.Backend.Host.TypeOf

/-! The host's kernels that create tensors. They take their parameters as they come: an element type may bring axes of
    its own, and the values of nested sequences are spread over them. -/

namespace Dataflow.Host

open Value

/-! ### Values under a shape -/

/-- The values of a nest as an array holds them, all of one kind. -/
def unified (leaves : List Value) : List Value :=
  let isText : Value → Bool
    | .text _ => true
    | _ => false
  match ArrayKind.ofLeaves leaves with
  | .element d => leaves.map fun v => match v.element? with
    | some e => .scalar d (e.cast d)
    | none => v
  | .text => if leaves.any isText then leaves.map texted else leaves
  | .object => leaves
where
  /-- A value as the text that it is written with. -/
  texted : Value → Value
    | .bytes bs => .text ((Text.ascii? bs).getD "")
    | v => .text v.shown

/-- A shape of a rank, with axes of length one in front or without those that it has there. -/
def ofRank? (rank : Nat) (s : Shape) : Option Shape :=
  let excess := s.length - rank
  if (s.take excess).all (· = 1) then some (List.replicate (rank - s.length) 1 ++ s.drop excess) else none

/-- Values under one shape spread over another of the same rank: an axis of length one is repeated. -/
def spread? {α : Type} : Shape → Shape → List α → Option (List α)
  | [], [], l => some l
  | d :: ds, e :: es, l => do
    let rows ← (Blocks.blocks e (Shape.size es) l).mapM (spread? ds es)
    if e = d then return rows.flatten
    else if e = 1 then return (List.replicate d rows.flatten).flatten
    else none
  | _, _, _ => none

/-- The values of nested sequences spread over a shape. -/
def valuesUnder (s : Shape) (v : Value) : Outcome (List Value) := do
  let n ← Nest.ofArray v
  match (ofRank? s.length n.shape).bind fun r => spread? s r (unified n.leaves) with
  | some vs => return vs
  | none => throw .badValue

/-- The elements of a type under a shape that a value gives. -/
def elements (t : CodedType) (s : Shape) (v : Value) : Outcome (List Element) := do
  match v with
  | .int n => return List.replicate s.size (← storedInteger t n)
  | v => (← valuesUnder s v).mapM (stored t)

/-! ### Tensors -/

/-- The type that a value has of its own accord. -/
def typeOfLeaf (v : Value) : CodedType :=
  match ArrayKind.ofLeaf v, v with
  | .element d, _ => .known d
  | .text, .text s => .text (CodedType.characterSize * s.length)
  | .text, .bytes bs => .bytes bs.length
  | _, _ => .object

/-- The type that the single value in nested sequences has of its own accord. -/
def typeOfSole (v : Value) : Outcome CodedType := do
  match ← valuesUnder [] v with
  | [w] => return typeOfLeaf w
  | _ => throw .badValue

/-- A tensor of one value, of the element type that is asked for or of the value's own. -/
def constant (value dtype : Value) : Outcome Tensor := do
  let type ← match ← typeFor dtype with
    | some t => pure t
    | none => typeOfSole value
  let (t, s) := type.inArray
  match Tensor.ofList? .host t.toDType s (← elements t s value) with
  | some x => return x
  | none => throw .badValue

/-- A dimension of a new tensor; truth values are none. -/
def dimension : Value → Outcome Int
  | .int n | .scalar _ (.whole n) => if Storage.holds true 64 n then .ok n else .error .badValue
  | _ => .error .wrongType

/-- The dimensions of a new tensor. A single dimension need not stand in a sequence. -/
def dimensions : Value → Outcome (List Int)
  | .list vs | .tuple vs =>
    if Shape.axisLimit < vs.length then .error .badValue else vs.mapM dimension
  | .bytes bs => if Shape.axisLimit < bs.length then .error .badValue else .ok (bs.map fun b => b.toNat)
  | .text "" => .ok []
  | v => do return [← dimension v]

/-- The shape of a new tensor, which has to fit into memory even where a dimension is zero. -/
def newShape (elementSize : Nat) (dims : List Int) : Outcome Shape :=
  let s := dims.map Int.toNat
  if dims.any (· < 0) ∨ Shape.axisLimit < s.length ∨ !Shape.fits s elementSize then .error .badValue
  else .ok s

/-- A tensor of zeros, of double precision unless another type is asked for. -/
def empty (shape dtype : Value) : Outcome Tensor := do
  let dims ← dimensions shape
  let (t, inner) := ((← typeFor dtype).getD (.known .float64)).inArray
  return .zeros .host t.toDType (← newShape t.size (dims ++ inner.map fun (n : Nat) => (n : Int)))

end Dataflow.Host
