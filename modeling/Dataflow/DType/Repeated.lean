import Dataflow.DType.Code
import Dataflow.Value.Basic

/-! Element types in pairs. A type beside a shape holds as many values in one, a type of an open length beside a
    number has that length, and a type beside another takes over its bytes and fields. -/

namespace Dataflow.CodedType

/-- An integer that can be a dimension; truth values are none. -/
def dimension? : Value → Option Int
  | .int n | .scalar _ (.whole n) => some n
  | _ => none

/-- The dimensions that a value gives. A single one need not stand in a sequence. -/
def dimensions? : Value → Option (List Int)
  | .list vs | .tuple vs => vs.mapM dimension?
  | .bytes bs => some (bs.map fun b => b.toNat)
  | .text "" => some []
  | v => (dimension? v).map ([·])

/-- A type for values under a shape. Where no values are left, only a block without bytes remains. -/
def under (t : CodedType) (dims : List Int) : Outcome CodedType :=
  let fits (n : Int) : Bool := 0 ≤ n && n.toNat ≤ sizeLimit
  let s : Shape := dims.map Int.toNat
  if Shape.axisLimit < dims.length || !dims.all fits || sizeLimit < s.size || sizeLimit < s.size * t.size then
    .error .badValue
  else .ok (if s.size * t.size = 0 then .block 0 else .several t s)

/-- A type beside a shape or a length. Under no shape at all it stays as it is, and so it does beside a plain one. -/
def beside (t : CodedType) (v : Value) : Outcome CodedType :=
  if t.isUnsized then
    match dimension? v with
    | some n =>
      if 0 ≤ n && (t.ofLength n.toNat).size ≤ sizeLimit then .ok (t.ofLength n.toNat) else .error .badValue
    | none => .error .badValue
  else match dimensions? v with
    | none => .error .badValue
    | some [] => .ok t
    | some dims => if (dimension? v).isSome && dims = [1] then .ok t else t.under dims

/-- A type that takes over the bytes of another, which have to be as many unless its own length is open. -/
def takingOver (t u : CodedType) : Outcome CodedType :=
  if t.isUnsized then .ok (fielded (t.ofSize u.size) u)
  else if t.size ≠ u.size || t.holdsObjects || u.holdsObjects then .error .badValue
  else .ok (fielded t u)
where
  /-- A block with the fields of a record is one. -/
  fielded (t u : CodedType) : CodedType :=
    match t, u with
    | .block _, .record _ _ => u
    | t, _ => t

/-- The value is a shape in any case, and not the code of a type. -/
def isShape : Value → Bool
  | .scalar _ (.whole _) => true
  | .tuple vs => vs.all fun v => match v with
    | .flag _ => true
    | v => (dimension? v).isSome
  | _ => false

/-- A type beside a value that may itself be the code of a type. -/
def paired (t : CodedType) (v : Value) (asType : Outcome CodedType) : Outcome CodedType :=
  if isShape v then t.beside v
  else match asType with
    | .ok u => t.takingOver u
    | .error _ => t.beside v

end Dataflow.CodedType
