import Dataflow.Position
import Dataflow.Value.Coercion

/-! The kernels of the torch backend on the structure of tensors. They bring the tensors of one operation to a common
    element type. -/

namespace Dataflow.Torch

open Value

/-! ### Parts -/

/-- A position in a sequence of some length. -/
def positionOf (length : Nat) (i : Int) : Outcome Nat :=
  match position? length i with
  | some k => .ok k
  | none => .error .indexOutOfRange

/-- An integer parameter; truth values are none. -/
def number : Value → Outcome Int
  | .int n => .ok n
  | .scalar _ (.whole n) => .ok n
  | _ => .error .wrongType

/-- An integer that fits into a word; `failure` says what is wrong with one that does not. -/
def word (failure : Failure) (n : Int) : Outcome Int :=
  if Storage.holds true 64 n then .ok n else .error failure

/-- The part of a tensor at one position of an axis. Both have to fit into a word before they are looked at. -/
def index (x : Tensor) (axis i : Value) : Outcome Tensor := do
  let a ← number axis
  let i ← word .badValue (← number i)
  let k ← positionOf x.rank (← word .badValue a)
  let i ← positionOf (x.shape.getD k 0) i
  match x.select? k i with
  | some y => return y
  | none => throw .indexOutOfRange

/-- Consecutive parts of the given sizes from a position on. -/
def parts (x : Tensor) (axis : Nat) : Nat → List Nat → Option (List Tensor)
  | _, [] => some []
  | start, n :: ns => do return (← x.slice? axis start (start + n)) :: (← parts x axis (start + n) ns)

/-- A size behind another one. Here truth values count as zero and one. -/
def laterSize : Value → Outcome Int
  | .flag b => .ok (if b then 1 else 0)
  | v => number v

/-- The least size that is taken for a number at all. -/
def leastSize : Int := -2 ^ 62

/-- Consecutive parts along an axis, whose sizes add up to its length. No sizes make no parts. -/
def split (x : Tensor) (axis sizes : Value) : Outcome (List Tensor) := do
  let v :: vs ← items sizes | return []
  let n ← number v
  let a ← word .badValue (← number axis)
  let ns ← (return n :: (← vs.mapM laterSize) : Outcome (List Int))
  let ns ← ns.mapM (word .wrongType)
  if ns.any (· < leastSize) ∨ x.rank = 0 then throw .backendFault
  let k ← positionOf x.rank a
  if ns.any (· < 0) ∨ sumOf ns ≠ (x.shape.getD k 0 : Nat) then throw .backendFault
  match parts x k 0 (ns.map Int.toNat) with
  | some ys => return ys
  | none => throw .backendFault

/-! ### Joining -/

/-- The element type that holds the elements of two real types; there is none for an unsigned type of more than eight
    bits beside another type without a fraction. -/
def commonReal? (a b : DType) : Option DType :=
  let isWide (d : DType) : Bool := d = .uint16 || d = .uint32 || d = .uint64
  if a = b then some a
  else match a.storage, b.storage with
    | .floating f, .floating g => some (if f.precision < g.precision then b else a)
    | .floating _, _ => some a
    | _, .floating _ => some b
    | .boolean, _ => if isWide b then none else some b
    | _, .boolean => if isWide a then none else some a
    | .integer s m, .integer t n =>
      if isWide a || isWide b then none
      else if s = t then some (if m < n then b else a)
      else if m = 8 ∧ n = 8 then some .int16
      else some (if s then a else b)
    | _, _ => none

/-- The element type that holds the elements of two types. Beside a complex type, only a number with a fraction asks
    for more digits. -/
def common? (a b : DType) : Option DType :=
  let parts (d other : DType) : DType := match d.parts.storage with
    | .floating _ => d.parts
    | _ => other.parts
  if a.isComplex || b.isComplex then (commonReal? (parts a b) (parts b a)).map DType.complexOver
  else commonReal? a b

/-- The common element type of several tensors. -/
def commonDType : List Tensor → Outcome DType
  | [] => .error .backendFault
  | x :: xs => match xs.foldlM (fun d (y : Tensor) => common? d y.dtype) x.dtype with
    | some d => .ok d
    | none => .error .backendFault

def joined (join : List Tensor → Option Tensor) (xs : List Tensor) : Outcome Tensor := do
  let d ← commonDType xs
  match join (xs.map fun x => x.cast d) with
  | some y => return y
  | none => throw .backendFault

/-- A row without elements, which an operation that joins tensors passes over. -/
def isVoid (x : Tensor) : Bool := x.shape = [0]

/-- Tensors one after the other along an axis, which nothing names where all of them are void. -/
def tie (axis : Value) (xs : List Tensor) : Outcome Tensor := do
  let a ← word .badValue (← number axis)
  if xs.isEmpty ∨ xs.any (·.rank = 0) then throw .backendFault
  match xs.filter fun x => !isVoid x with
  | [] => joined List.head? xs
  | x :: rest =>
    let k ← positionOf x.rank a
    let d ← commonDType xs
    let y ← joined (Tensor.concat? k) (x :: rest)
    return y.cast d

def stack (axis : Value) (xs : List Tensor) : Outcome Tensor := do
  let a ← word .badValue (← number axis)
  let x :: rest := xs | throw .backendFault
  let k ← positionOf (x.rank + 1) a
  if rest.any (·.shape ≠ x.shape) then throw .backendFault
  joined (Tensor.stack? k) xs

end Dataflow.Torch
