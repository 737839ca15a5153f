import Dataflow.DType

/-! The element type that elements of two types are brought to. Integers of different signs go to a wider signed
    type, integers beside floating-point numbers to a format that has enough digits for them; double precision
    stands in where nothing is wide enough. -/

namespace Dataflow.DType

/-- The signed integer type of a width, and double precision beyond the widest. -/
def signedOf (bits : Nat) : DType :=
  if bits ≤ 8 then .int8 else if bits ≤ 16 then .int16 else if bits ≤ 32 then .int32
  else if bits ≤ 64 then .int64 else .float64

/-- The least floating-point type for integers of a width. -/
def floatingFor (bits : Nat) : DType :=
  if bits ≤ 8 then .float16 else if bits ≤ 16 then .float32 else .float64

def finer (a b : DType) : DType :=
  match a.storage, b.storage with
  | .floating f, .floating g => if f.precision < g.precision then b else a
  | .floating _, _ => a
  | _, _ => b

/-- The complex type over a floating-point type. -/
def complexOver : DType → DType
  | .float64 => .complex128
  | _ => .complex64

/-- The parts of a complex type as a type of their own. -/
def parts : DType → DType
  | .complex128 => .float64
  | .complex64 => .float32
  | d => d

/-- The least real type for the elements of two real types. -/
def joinReal (a b : DType) : DType :=
  match a.storage, b.storage with
  | .boolean, _ => b
  | _, .boolean => a
  | .floating _, .floating _ => finer a b
  | .floating _, .integer _ n => finer a (floatingFor n)
  | .integer _ m, .floating _ => finer b (floatingFor m)
  | .integer s m, .integer t n =>
    if s = t then (if m < n then b else a)
    else if s then signedOf (max m (2 * n))
    else signedOf (max n (2 * m))
  | _, _ => a

def isComplex (d : DType) : Bool := d.parts ≠ d

/-- The least type for the elements of two types. -/
def join (a b : DType) : DType :=
  if a.isComplex || b.isComplex then complexOver (joinReal a.parts b.parts) else joinReal a b

end Dataflow.DType
