import Dataflow.DType.Join
import Dataflow.Value.Basic
import Dataflow.Failure

/-! Nested sequences as arrays: the shape that they have, and what stands in them in row-major order. Sequences of
    different lengths side by side have no shape. -/

namespace Dataflow

/-- A shape and the values under it. -/
structure Nest where
  shape : Shape
  leaves : List Value

namespace Nest

/-- The greatest depth of nested sequences. -/
def depthBound : Nat := 64

/-- Several nests of one shape as one, with an axis more. -/
def gather : List Nest → Outcome Nest
  | [] => .ok ⟨[0], []⟩
  | n :: ns =>
    if ns.any (·.shape ≠ n.shape) ∨ depthBound ≤ n.shape.length then .error .badValue
    else .ok ⟨(ns.length + 1) :: n.shape, (n :: ns).flatMap Nest.leaves⟩

mutual

/-- A value as a nest: lists and tuples are sequences, and every other value stands alone. -/
def ofValue : Value → Outcome Nest
  | .list vs | .tuple vs => do gather (← ofValues vs)
  | v => .ok ⟨[], [v]⟩

def ofValues : List Value → Outcome (List Nest)
  | [] => .ok []
  | v :: vs => do
    let n ← ofValue v
    let ns ← ofValues vs
    return n :: ns

end

end Nest

/-- What an array holds: elements of one type, texts, or any objects. -/
inductive ArrayKind where
  | element (d : DType)
  | text
  | object
deriving DecidableEq

namespace ArrayKind

/-- What an array holds for the sake of one value. An integer is taken as one of 64 bits if it can. -/
def ofLeaf : Value → ArrayKind
  | .flag _ => .element .bool
  | .int n =>
    if Storage.holds true 64 n then .element .int64
    else if Storage.holds false 64 n then .element .uint64
    else .object
  | .real _ => .element .float64
  | .text _ | .bytes _ => .text
  | .scalar d _ => .element d
  | _ => .object

/-- What an array holds for the sake of two values. -/
def join : ArrayKind → ArrayKind → ArrayKind
  | .object, _ | _, .object => .object
  | .text, _ | _, .text => .text
  | .element a, .element b => .element (a.join b)

/-- What an array of several values holds; one of none is of double precision. -/
def ofLeaves : List Value → ArrayKind
  | [] => .element .float64
  | v :: vs => vs.foldl (fun k w => k.join (ofLeaf w)) (ofLeaf v)

end ArrayKind

/-- Texts and bytes side by side are all texts, so that the bytes have to spell one. -/
def checkTexts (leaves : List Value) : Outcome Unit :=
  let isText : Value → Bool
    | .text _ => true
    | _ => false
  let isForeign : Value → Bool
    | .bytes bs => bs.any (128 ≤ ·)
    | _ => false
  if ArrayKind.ofLeaves leaves = .text && leaves.any isText && leaves.any isForeign then .error .undecodable
  else .ok ()

/-- A value as an array: the nest of its sequences. -/
def Nest.ofArray (v : Value) : Outcome Nest := do
  let n ← Nest.ofValue v
  checkTexts n.leaves
  return n

/-- A number as an element of its own type. -/
def Value.element? : Value → Option Element
  | .flag b => some (.flag b)
  | .int n => some (.whole n)
  | .real x => some (.real x)
  | .scalar _ e => some e
  | _ => none

end Dataflow
