import Dataflow.DType.Coded

/-! Codes of single element types: letters, numbers, letters with a size, units of time and names. A mark for the
    order of bytes may stand in front. -/

namespace Dataflow.CodedType

def ofLetter? : Char → Option CodedType
  | '?' => some (known .bool)
  | 'b' => some (known .int8)
  | 'B' => some (known .uint8)
  | 'h' => some (known .int16)
  | 'H' => some (known .uint16)
  | 'i' => some (known .int32)
  | 'I' => some (known .uint32)
  | 'l' | 'q' | 'p' | 'n' => some (known .int64)
  | 'L' | 'Q' | 'P' | 'N' => some (known .uint64)
  | 'e' => some (known .float16)
  | 'f' => some (known .float32)
  | 'd' => some (known .float64)
  | 'g' => some .longReal
  | 'F' => some (known .complex64)
  | 'D' => some (known .complex128)
  | 'G' => some .longComplex
  | 'O' => some .object
  | 'S' => some (.bytes 0)
  | 'c' => some (.bytes 1)
  | 'U' => some (.text 0)
  | 'V' => some (.block 0)
  | 'M' => some (.moment .generic)
  | 'm' => some (.duration .generic)
  | 'T' => some .anyText
  | _ => none

/-- The types by number. -/
def byNumber : List CodedType :=
  [known .bool, known .int8, known .uint8, known .int16, known .uint16, known .int32, known .uint32, known .int64,
    known .uint64, known .int64, known .uint64, known .float32, known .float64, .longReal, known .complex64,
    known .complex128, .longComplex, .object, .bytes 0, .text 0, .block 0, .moment .generic, .duration .generic,
    known .float16]

/-- The number of single characters, which stands apart from the others. -/
def characterNumber : Nat := 26

def ofNumber? (n : Nat) : Option CodedType :=
  if n = characterNumber then some (.bytes 1) else byNumber[n]?

def ofSized? (kind : Char) (n : Nat) : Option CodedType :=
  match kind, n with
  | 'S', n | 'a', n => some (.bytes n)
  | 'U', n => some (.text (characterSize * n))
  | 'V', n => some (.block n)
  | 'b', 1 => some (known .bool)
  | 'i', 1 => some (known .int8)
  | 'i', 2 => some (known .int16)
  | 'i', 4 => some (known .int32)
  | 'i', 8 => some (known .int64)
  | 'u', 1 => some (known .uint8)
  | 'u', 2 => some (known .uint16)
  | 'u', 4 => some (known .uint32)
  | 'u', 8 => some (known .uint64)
  | 'f', 2 => some (known .float16)
  | 'f', 4 => some (known .float32)
  | 'f', 8 => some (known .float64)
  | 'f', 16 => some .longReal
  | 'c', 8 => some (known .complex64)
  | 'c', 16 => some (known .complex128)
  | 'c', 32 => some .longComplex
  | 'O', 4 | 'O', 8 => some .object
  | 'M', 8 => some (.moment .generic)
  | 'm', 8 => some (.duration .generic)
  | _, _ => none

/-- The names that the host knows types by, besides those of the standard types. -/
def named : List (String × CodedType) :=
  [("byte", known .int8), ("ubyte", known .uint8), ("short", known .int16), ("ushort", known .uint16),
    ("intc", known .int32), ("uintc", known .uint32), ("int", known .int64), ("int_", known .int64),
    ("uint", known .uint64), ("long", known .int64), ("ulong", known .uint64), ("longlong", known .int64),
    ("ulonglong", known .uint64), ("intp", known .int64), ("uintp", known .uint64), ("half", known .float16),
    ("single", known .float32), ("double", known .float64), ("float", known .float64), ("bool_", known .bool),
    ("longdouble", .longReal), ("float128", .longReal), ("complex64", known .complex64),
    ("csingle", known .complex64), ("complex128", known .complex128), ("cdouble", known .complex128),
    ("complex", known .complex128), ("complex256", .longComplex), ("clongdouble", .longComplex),
    ("object", .object), ("object_", .object), ("bytes", .bytes 0), ("bytes_", .bytes 0), ("a", .bytes 0),
    ("str", .text 0), ("str_", .text 0), ("unicode", .text 0), ("void", .block 0)]

def ofName? (s : String) : Option CodedType :=
  match DType.ofName? s with
  | some d => some (known d)
  | none => named.lookup s

/-! ### Marks and sizes -/

/-- A mark for the order of bytes. -/
def isOrderMark (c : Char) : Bool := c = '>' || c = '<' || c = '=' || c = '|'

/-- A code without its order mark. -/
def body (cs : List Char) : List Char :=
  match cs with
  | c :: rest => if isOrderMark c then rest else cs
  | [] => []

/-- The order mark puts the bytes in reverse. -/
def isReversing (cs : List Char) : Bool := cs.head? = some '>'

def sizeLimit : Nat := 2 ^ 31 - 1

/-- The greatest size in a code of a kind; the characters of a text count by their bytes. -/
def limitOf (kind : Char) : Nat := if kind = 'U' then sizeLimit / characterSize else sizeLimit

/-- The type of a letter and what follows it. -/
def ofKind? (kind : Char) (rest : List Char) : Option CodedType :=
  match TimeUnit.integerAt? rest with
  | some (n, []) => if 0 ≤ n && n.toNat ≤ limitOf kind then ofSized? kind n.toNat else none
  | _ => none

/-- The unit of a code of moments, and whether it is one of durations. -/
def timeCode? (cs : List Char) : Option (Bool × List Char) :=
  match cs with
  | 'M' :: '8' :: rest => some (false, rest)
  | 'm' :: '8' :: rest => some (true, rest)
  | cs =>
    let moment := "datetime64".toList
    let duration := "timedelta64".toList
    if moment.isPrefixOf cs then some (false, cs.drop moment.length)
    else if duration.isPrefixOf cs then some (true, cs.drop duration.length)
    else none

/-- The type of a code that is no name. -/
def ofBody? (cs : List Char) : Option CodedType :=
  match cs with
  | [] => none
  | [c] => (ofNumber? c.toNat).or (ofLetter? c)
  | c :: rest => ofKind? c rest

/-- The type of a code that names a single one. -/
def ofSingle (s : String) : Outcome CodedType :=
  let cs := body s.toList
  match timeCode? cs, ofBody? cs with
  | some (isDuration, suffix), _ => do
    let unit ← TimeUnit.ofSuffix suffix
    return if isDuration then .duration unit else .moment unit
  | none, some t => .ok (if isReversing s.toList then t.reversed else t)
  | none, none => match (if cs.isEmpty then none else ofName? s) with
    | some t => .ok t
    | none => .error .wrongType

end Dataflow.CodedType
