import Dataflow.Position
import Dataflow.Value.Coercion

/-! The host's kernels on the structure of tensors. A tensor of rank zero can be indexed like a row of one element,
    positions may come in nested sequences, and parts of a tensor are given by the running totals of their sizes. -/

namespace Dataflow.Host

open Value

/-- An integer that fits into a word; `failure` says what is wrong with one that does not. -/
def word (bits : Nat) (failure : Failure) (n : Int) : Outcome Int :=
  if Storage.holds true bits n then .ok n else .error failure

/-! ### Axes -/

/-- A parameter that names an axis; truth values do not. The least number of 32 bits and nothing name no axis, and all
    elements stand in a row. -/
def axisNumber : Value → Outcome (Option Int)
  | .nothing => .ok none
  | .int n | .scalar _ (.whole n) => do
    let n ← word 32 .badValue (← word 64 .tooLarge n)
    return if n = Storage.lowest true 32 then none else some n
  | _ => .error .wrongType

/-- An axis of a tensor of some rank, counted from the end where it is negative. -/
def axisOf (rank : Nat) (a : Int) : Outcome Nat :=
  match position? rank a with
  | some k => .ok k
  | none => .error .axisOutOfRange

/-! ### Parts at positions -/

/-- A value that names a position. Numbers lose their fraction. -/
def place (v : Value) : Outcome Int := do word 64 .tooLarge (← wholePart v)

/-- The positions that a value names, and the shape that they stand under. A scalar on its own is converted without a
    check. -/
def places (v : Value) : Outcome (Shape × List Int) := do
  match v with
  | .scalar _ e => match e.cast .int64 with
    | .whole n => return ([], [n])
    | _ => throw .wrongType
  | v =>
    let nest ← Nest.ofValue v
    return (nest.shape, ← nest.leaves.mapM place)

/-- A position on an axis, counted from the end where it is negative. -/
def placeOn (length : Nat) (i : Int) : Outcome Nat :=
  match position? length i with
  | some k => .ok k
  | none => .error .indexOutOfRange

/-- The parts of a tensor at positions of an axis, or of all its elements in a row where no axis is named. The
    positions may be nested, and their shape takes the place of the axis. Where nothing is to be taken they go
    unchecked. -/
def index (x : Tensor) (axis i : Value) : Outcome Tensor := do
  let a ← axisNumber axis
  let x := if x.rank = 0 ∨ a.isNone then x.flat else x
  let k ← axisOf x.rank (a.getD 0)
  let (s, is) ← places i
  if Shape.axisLimit < x.rank - 1 + s.length then throw .badValue
  match Tensor.cut? x.shape k with
  | none => throw .axisOutOfRange
  | some c =>
    if c.outer.size = 0 then return .zeros x.device x.dtype (c.outer ++ s ++ c.inner)
    let ks ← is.mapM (placeOn c.length)
    match x.take? k s ks with
    | some y => return y
    | none => throw .indexOutOfRange

/-! ### Consecutive parts -/

/-- The members of a sequence that can be counted. -/
def members : Value → Outcome (List Value)
  | .list vs | .tuple vs => .ok vs
  | .text "" | .bytes [] => .ok []
  | _ => .error .wrongType

/-- The running totals of values, from one of them on. -/
def runningTotals : Value → List Value → Outcome (List Value)
  | t, [] => .ok [t]
  | t, v :: vs => do return t :: (← runningTotals (← t.plus v) vs)

/-- The type in which elements of a type are added up: integers in words of 64 bits. -/
def totalType (d : DType) : DType :=
  match d.storage with
  | .boolean => .int64
  | .integer signed _ => if signed then .int64 else .uint64
  | _ => d

/-- The running totals of sizes, which may be nested. Objects are added as they are. -/
def totals (sizes : List Value) : Outcome (List Value) := do
  let vs := (← Nest.ofArray (.list sizes)).leaves
  let summands ← match ArrayKind.ofLeaves vs with
    | .text => throw .wrongType
    | .object => pure vs
    | .element d =>
      let t := totalType d
      pure (vs.filterMap fun v => v.element?.map fun e => .scalar t ((e.cast d).cast t))
  match summands with
  | [] => return []
  | v :: rest => runningTotals v rest

def neighbours {α : Type} : List α → List (α × α)
  | a :: b :: rest => (a, b) :: neighbours (b :: rest)
  | _ => []

/-- Consecutive parts along an axis. No sizes make no parts, whatever the axis; the last part reaches to the end. -/
def split (x : Tensor) (axis sizes : Value) : Outcome (List Tensor) := do
  let sizes ← members sizes
  if sizes.isEmpty then return []
  let totals ← totals sizes
  let some k := position? x.rank (← position axis) | throw .indexOutOfRange
  let some length := x.shape[k]? | throw .indexOutOfRange
  let between ← totals.dropLast.mapM position
  let parts := (neighbours (0 :: between ++ [(length : Int)])).mapM fun (a, b) =>
    x.slice? k (rangeEnd length a) (rangeEnd length b)
  match parts with
  | some ys => return ys
  | none => throw .indexOutOfRange

/-! ### Joining -/

/-- Every tensor has the element type of the first one. -/
def requireSameDType (operation : String) : List Tensor → Outcome Unit
  | [] => .ok ()
  | x :: xs => match xs.find? (·.dtype ≠ x.dtype) with
    | some y => .error (.premise (.sameDType operation y.dtype x.dtype))
    | none => .ok ()

/-- What tensors are joined to, if there is such a tensor and room for it. -/
def joined (y : Option Tensor) : Outcome Tensor :=
  match y with
  | some y => if y.shape.fits y.dtype.size then .ok y else .error .badValue
  | none => .error .badValue

/-- Tensors one after the other along an axis, or all their elements in a row where no axis is named. -/
def tie (axis : Value) (xs : List Tensor) : Outcome Tensor := do
  requireSameDType "tie" xs
  let (k, xs) ← match ← axisNumber axis, xs with
    | none, xs => pure (0, xs.map Tensor.flat)
    | some a, xs => do
      let x :: _ := xs | throw .badValue
      if x.rank = 0 then throw .badValue
      pure (← axisOf x.rank a, xs)
  joined (Tensor.concat? k xs)

def stack (axis : Value) (xs : List Tensor) : Outcome Tensor := do
  requireSameDType "stack" xs
  let x :: rest := xs | throw .badValue
  if rest.any (·.shape ≠ x.shape) then throw .badValue
  let k ← axisOf (x.rank + 1) (← word 32 .tooLarge (← position axis))
  if Shape.axisLimit ≤ x.rank then throw .indexOutOfRange
  joined (Tensor.stack? k xs)

end Dataflow.Host
