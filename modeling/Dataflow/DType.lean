import Dataflow.Number.Rounding

/-! Element types of tensors and the elements themselves: truth values, integers of a fixed width, and real and
    complex numbers of a fixed floating-point format. A backend may know types beyond these; of such a type the
    library has the name and the bytes of an element, and of its elements nothing. -/

namespace Dataflow

/-- The names of the types of the library. -/
def DType.ownNames : List String :=
  ["float64", "float32", "float16", "int64", "int32", "int16", "int8", "uint64", "uint32", "uint16", "uint8", "bool",
    "complex128", "complex64"]

inductive DType where
  | float64 | float32 | float16
  | int64 | int32 | int16 | int8
  | uint64 | uint32 | uint16 | uint8
  | bool
  | complex128 | complex64
  /-- A type that a backend knows beyond these, by a name of its own. -/
  | other (name : String) (size : Nat) (h : name ∉ DType.ownNames)
deriving DecidableEq

/-- What the elements of a type are. -/
inductive Storage where
  | boolean
  | integer (signed : Bool) (bits : Nat)
  | floating (format : Format)
  /-- Pairs of a real and an imaginary part. -/
  | complex (format : Format)
  | hidden
deriving DecidableEq

namespace DType

/-- The types that are there without being asked for. -/
def standard : List DType :=
  [.float64, .float32, .float16, .int64, .int32, .int16, .int8, .uint64, .uint32, .uint16, .uint8, .bool]

def name : DType → String
  | .float64 => "float64" | .float32 => "float32" | .float16 => "float16"
  | .int64 => "int64" | .int32 => "int32" | .int16 => "int16" | .int8 => "int8"
  | .uint64 => "uint64" | .uint32 => "uint32" | .uint16 => "uint16" | .uint8 => "uint8"
  | .bool => "bool"
  | .complex128 => "complex128" | .complex64 => "complex64"
  | .other n _ _ => n

/-- A type that is there without being asked for is the only one of its name. -/
theorem eq_of_name {d e : DType} (hd : d ∈ standard) (h : d.name = e.name) : d = e := by
  have hown : ∀ d ∈ standard, d.name ∈ ownNames := by decide
  cases e with
  | other n size hn =>
    rw [name] at h
    exact absurd (h ▸ hown d hd) hn
  | _ =>
    revert d
    decide

def ofName? (s : String) : Option DType := standard.find? fun d => d.name = s

def storage : DType → Storage
  | .float64 => .floating .double
  | .float32 => .floating .single
  | .float16 => .floating .half
  | .int64 => .integer true 64
  | .int32 => .integer true 32
  | .int16 => .integer true 16
  | .int8 => .integer true 8
  | .uint64 => .integer false 64
  | .uint32 => .integer false 32
  | .uint16 => .integer false 16
  | .uint8 => .integer false 8
  | .bool => .boolean
  | .complex128 => .complex .double
  | .complex64 => .complex .single
  | .other _ _ _ => .hidden

/-- The bytes of one element. -/
def size : DType → Nat
  | .float64 | .int64 | .uint64 => 8
  | .float32 | .int32 | .uint32 => 4
  | .float16 | .int16 | .uint16 => 2
  | .int8 | .uint8 | .bool => 1
  | .complex128 => 16
  | .complex64 => 8
  | .other _ n _ => n

end DType

namespace Storage

/-- The least integer of an integer type. -/
def lowest (signed : Bool) (bits : Nat) : Int := if signed then -2 ^ (bits - 1) else 0

/-- The greatest integer of an integer type. -/
def highest (signed : Bool) (bits : Nat) : Int := if signed then 2 ^ (bits - 1) - 1 else 2 ^ bits - 1

/-- An integer within the range of an integer type. -/
def holds (signed : Bool) (bits : Nat) (n : Int) : Bool :=
  lowest signed bits ≤ n && n ≤ highest signed bits

/-- The integer of a type that agrees with `n` in the low bits. -/
def wrap (signed : Bool) (bits : Nat) (n : Int) : Int :=
  if signed then n.bmod (2 ^ bits) else n.emod (2 ^ bits)

end Storage

inductive Element where
  | flag (b : Bool)
  | whole (n : Int)
  | real (x : Floating)
  | complex (re im : Floating)
  | hidden
deriving DecidableEq

namespace Element

/-- The element that a tensor is filled with before anything is written. -/
def zero (d : DType) : Element :=
  match d.storage with
  | .boolean => .flag false
  | .integer _ _ => .whole 0
  | .floating _ => .real (.finite .zero)
  | .complex _ => .complex (.finite .zero) (.finite .zero)
  | .hidden => .hidden

/-- Nonzero elements count as true. -/
def truth : Element → Bool
  | .flag b => b
  | .whole n => n != 0
  | .real x => x.isNonzero
  | .complex re im => re.isNonzero || im.isNonzero
  | .hidden => true

/-- The value of an element as a floating-point datum, before rounding; of a complex number its real part. -/
def toFloating : Element → Floating
  | .flag b => .ofInt (if b then 1 else 0)
  | .whole n => .ofInt n
  | .real x => x
  | .complex re _ => re
  | .hidden => .nan

/-- The imaginary part of an element. -/
def imaginary : Element → Floating
  | .complex _ im => im
  | _ => .finite .zero

/-- The integer part as a register of a width holds it: out of its range, and for what is no number, the least
    integer of the width stands. -/
def register (bits : Nat) (x : Floating) : Int :=
  match x.truncate? with
  | some n => if Storage.holds true bits n then n else Storage.lowest true bits
  | none => Storage.lowest true bits

/-- A floating-point datum converted to an integer type. Narrow types go through a 32-bit register and 32-bit
    unsigned ones through a 64-bit register; 64-bit unsigned ones shift the upper half of their range down. -/
def integerOf (signed : Bool) (bits : Nat) (x : Floating) : Int :=
  if bits = 64 then
    if signed then register 64 x
    else if x.lt (.ofInt (2 ^ 63)) || x = .nan then Storage.wrap false 64 (register 64 x)
    else match x.truncate? with
      | some n => Storage.wrap false 64 (register 64 (.ofInt (n - 2 ^ 63)) + 2 ^ 63)
      | none => 0
  else if signed || bits < 32 then Storage.wrap signed bits (register 32 x)
  else Storage.wrap signed bits (register 64 x)

/-- An element converted to a type without a check: integers keep their low bits, floating-point numbers are
    rounded or lose their fraction. -/
def cast (d : DType) (e : Element) : Element :=
  match d.storage with
  | .boolean => .flag e.truth
  | .floating f => .real (e.toFloating.round f)
  | .complex f => .complex (e.toFloating.round f) (e.imaginary.round f)
  | .hidden => .hidden
  | .integer signed bits =>
    match e with
    | .flag b => .whole (if b then 1 else 0)
    | .whole n => .whole (Storage.wrap signed bits n)
    | e => .whole (integerOf signed bits e.toFloating)

end Element

end Dataflow
