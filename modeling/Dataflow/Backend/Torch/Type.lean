import Dataflow.Backend.Torch.Name
import Dataflow.Failure

/-! The element types that the torch backend knows by name. Some of them take numbers, some can only be left empty, and
    some have no zeros either. -/

namespace Dataflow.Torch

/-- What the backend can put into the elements of a type. -/
inductive Content where
  /-- Numbers, as far as a type of the library takes them. -/
  | numbersOf (d : DType)
  /-- Nothing but zeros. -/
  | zeros
  | nothing
deriving DecidableEq

/-- An element type of the backend. -/
structure ElementType where
  dtype : DType
  content : Content
deriving DecidableEq

namespace ElementType

/-- A type of the library. -/
def known (d : DType) : ElementType := ⟨d, .numbersOf d⟩

/-- Real numbers of a format that the library does not know. -/
def reals (name : String) (size : Nat) (h : name ∉ DType.ownNames := by decide) : ElementType :=
  ⟨.other name size h, .numbersOf .float64⟩

/-- Complex numbers of a format that the library does not know. -/
def pairs (name : String) (size : Nat) (h : name ∉ DType.ownNames := by decide) : ElementType :=
  ⟨.other name size h, .numbersOf .complex128⟩

def bits (name : String) (size : Nat) (h : name ∉ DType.ownNames := by decide) : ElementType :=
  ⟨.other name size h, .zeros⟩

def quantized (name : String) (size : Nat) (h : name ∉ DType.ownNames := by decide) : ElementType :=
  ⟨.other name size h, .nothing⟩

/-- Integers of fewer bits than a byte has. -/
def narrow : List ElementType :=
  [bits "int1" 1, bits "int2" 1, bits "int3" 1, bits "int4" 1, bits "int5" 1, bits "int6" 1, bits "int7" 1,
    bits "uint1" 1, bits "uint2" 1, bits "uint3" 1, bits "uint4" 1, bits "uint5" 1, bits "uint6" 1, bits "uint7" 1]

def all : List ElementType :=
  (.complex64 :: .complex128 :: DType.standard).map known ++
  [reals "bfloat16" 2, reals "float8_e4m3fn" 1, reals "float8_e5m2" 1, reals "float8_e4m3fnuz" 1,
    reals "float8_e5m2fnuz" 1, reals "float8_e8m0fnu" 1, pairs "complex32" 4, pairs "bcomplex32" 4] ++
  narrow ++
  [bits "bits8" 1, bits "bits16" 2, bits "bits1x8" 1, bits "bits2x4" 1, bits "bits4x2" 1,
    bits "float4_e2m1fn_x2" 1, quantized "qint8" 1, quantized "quint8" 1, quantized "qint32" 4,
    quantized "quint4x2" 1, quantized "quint2x4" 1]

/-- Other names of types. -/
def aliases : List (String × String) :=
  [("float", "float32"), ("double", "float64"), ("half", "float16"), ("short", "int16"), ("int", "int32"),
    ("long", "int64"), ("chalf", "complex32"), ("cfloat", "complex64"), ("cdouble", "complex128"), ("bit", "uint1")]

def ofName? (s : String) : Option ElementType :=
  let name := (aliases.lookup s).getD s
  all.find? fun t => t.dtype.name = name

end ElementType

/-- The element type that a parameter names. -/
def typeFor : Value → Outcome ElementType
  | .text s => match ElementType.ofName? s with
    | some t => .ok t
    | none => .error (if isOtherName s then .wrongType else .missingMember)
  | _ => .error .wrongType

end Dataflow.Torch
