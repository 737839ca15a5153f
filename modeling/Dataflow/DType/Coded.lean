import Dataflow.Time.Unit

/-! Element types as the host knows them: those of the library, types of a length, records, several values in one, and
    some that no tensor of the library has. An array of a type has elements of a single value each; where the type
    holds several, they become axes of the array. -/

namespace Dataflow

inductive CodedType where
  /-- A type of the library, perhaps with the bytes of its elements in reverse. -/
  | element (d : DType) (isReversed : Bool)
  | longReal
  | longComplex
  | object
  /-- Texts of any length. -/
  | anyText
  /-- Bytes of a length; a length of zero is still open. -/
  | bytes (length : Nat)
  /-- A text, by the bytes that it takes; none leave its length open. -/
  | text (size : Nat)
  /-- Bytes without meaning. -/
  | block (size : Nat)
  | record (names : List String) (types : List CodedType)
  | several (item : CodedType) (dims : Shape)
  | moment (unit : TimeUnit)
  | duration (unit : TimeUnit)

namespace CodedType

def known (d : DType) : CodedType := .element d false

/-- The bytes of a character of a text. -/
def characterSize : Nat := 4

mutual

def size : CodedType → Nat
  | .element d _ => d.size
  | .longReal | .anyText => 16
  | .longComplex => 32
  | .object | .moment _ | .duration _ => 8
  | .bytes n | .text n | .block n => n
  | .record _ ts => totalSize ts
  | .several t s => t.size * s.size

def totalSize : List CodedType → Nat
  | [] => 0
  | t :: ts => t.size + totalSize ts

end

mutual

/-- Some of an element is an object. -/
def holdsObjects : CodedType → Bool
  | .object => true
  | .record _ ts => anyHoldsObjects ts
  | .several t _ => t.holdsObjects
  | _ => false

def anyHoldsObjects : List CodedType → Bool
  | [] => false
  | t :: ts => t.holdsObjects || anyHoldsObjects ts

end

/-- The name of a type; a record goes by its bytes. -/
def name : CodedType → String
  | .element d _ => d.name
  | .longReal => "float128"
  | .longComplex => "complex256"
  | .object => "object"
  | .anyText => "StringDType128"
  | .bytes n => "bytes" ++ toString (8 * n)
  | .text n => "str" ++ toString (8 * n)
  | .moment u => "datetime64" ++ u.suffix
  | .duration u => "timedelta64" ++ u.suffix
  | t => if t.size = 0 then "void" else "void" ++ toString (8 * t.size)

/-- The type with the bytes of its elements in reverse, where it has several. -/
def reversed : CodedType → CodedType
  | .element d _ => .element d (1 < d.size)
  | t => t

/-! ### Lengths -/

/-- The length of the type is still open. -/
def isUnsized : CodedType → Bool
  | .bytes 0 | .text 0 | .block 0 => true
  | _ => false

/-- A type of an open length, at the bytes of an element. -/
def ofSize (size : Nat) : CodedType → CodedType
  | .bytes _ => .bytes size
  | .text _ => .text size
  | .block _ => .block size
  | t => t

/-- A type of an open length, at a length. -/
def ofLength (n : Nat) : CodedType → CodedType
  | .text _ => .text (characterSize * n)
  | t => t.ofSize n

/-! ### Arrays -/

/-- The type of the elements of an array, and the axes that the type adds to it. A length that is still open is that
    of one character. -/
def inArray : CodedType → CodedType × Shape
  | .bytes 0 => (.bytes 1, [])
  | .text 0 => (.text characterSize, [])
  | .several t s =>
    let (u, inner) := inArray t
    (u, s ++ inner)
  | t => (t, [])

theorem not_own_of_start {start : String} (h : ∀ name ∈ DType.ownNames, ¬start.toList <+: name.toList) (s : String) :
    start ++ s ∉ DType.ownNames := by
  intro hmem
  refine h _ hmem ?_
  rw [String.toList_append]
  exact List.prefix_append _ _

/-- The type of the library that a type is. -/
def own? : CodedType → Option DType
  | .element d _ => some d
  | _ => none

theorem name_not_own {t : CodedType} (h : t.own? = none) : t.name ∉ DType.ownNames := by
  have hblock : ∀ n : Nat, (if n = 0 then "void" else "void" ++ toString (8 * n)) ∉ DType.ownNames := by
    intro n
    split
    · decide
    · exact not_own_of_start (by decide) _
  cases t with
  | element => cases h
  | longReal | longComplex | object | anyText =>
    rw [name]
    decide
  | bytes | text | moment | duration => exact not_own_of_start (by decide) _
  | block | record | several => exact hblock _

/-- The element type of tensors. -/
def toDType (t : CodedType) : DType :=
  match h : t.own? with
  | some d => d
  | none => .other t.name t.size (name_not_own h)

end CodedType

end Dataflow
