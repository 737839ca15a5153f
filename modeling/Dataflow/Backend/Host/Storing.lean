import Dataflow.DType.Coded
import Dataflow.Number.Extended
import Dataflow.Time.Moment
import Dataflow.Value.Coercion

/-! What the host makes of a value that it stores in an element. Numbers are converted freely, texts are read, and an
    integer on its own is checked against the range of the type. Of a type that the library does not know only the
    attempt matters: whether the host would take the value. -/

namespace Dataflow.Host

open Value

/-! ### Texts -/

/-- The value that a text writes, as an element of a type. As a truth value every text but the empty one is true. -/
def writtenElement (d : DType) (s : String) : Outcome Element :=
  match d.storage with
  | .floating f => match Numeral.real? s with
    | some x => .ok (.real (x.round f))
    | none => .error .badValue
  | .complex f => match Numeral.complex? s with
    | some (x, y) => .ok (.complex (x.round f) (y.round f))
    | none => .error .badValue
  | .integer signed bits => match Numeral.integer? s with
    | some n => if Storage.holds signed bits n then .ok (.whole n) else .error .tooLarge
    | none => .error .badValue
  | .boolean => .ok (.flag (!s.isEmpty))
  | .hidden => .ok .hidden

/-- The text that bytes spell in the code of all scripts. -/
def decoded (bs : List UInt8) : Outcome String :=
  match String.fromUTF8? ⟨bs.toArray⟩ with
  | some s => .ok s
  | none => .error .undecodable

/-- The value that bytes write, as an element of a type. -/
def writtenBytes (d : DType) (bs : List UInt8) : Outcome Element :=
  match d.storage, Text.ascii? bs with
  | .boolean, _ => .ok (.flag (!bs.isEmpty))
  | _, some s => writtenElement d s
  | .complex _, none => do writtenElement d (← decoded bs)
  | _, none => .error .badValue

/-! ### Numbers -/

def integerElement (d : DType) (n : Int) : Outcome Element :=
  match d.storage with
  | .integer signed bits => if Storage.holds signed bits n then .ok (.whole n) else .error .tooLarge
  | .boolean => if Storage.holds true 64 n then .ok (.flag (n != 0)) else .error .tooLarge
  | .floating _ | .complex _ =>
    if isHuge n then .error .tooLarge else .ok (Element.cast d (.real (.roundInt .double n)))
  | .hidden => .ok .hidden

/-- An object that is no number of the host, as an element of a type. Nothing is no number. -/
def objectElement (d : DType) (v : Value) : Outcome Element :=
  match d.storage, v with
  | .boolean, v => .ok (.flag v.truth)
  | .floating _, .nothing => .ok (.real .nan)
  | .complex _, .nothing => .ok (.complex .nan .nan)
  | _, .int n => integerElement d n
  | _, _ => .error .wrongType

/-- A value in an array as an element of a type. Numbers are converted without a check. -/
def arrayElement (d : DType) : Value → Outcome Element
  | .text s => writtenElement d (Text.withoutNulls s)
  | .bytes bs => writtenBytes d (Text.dropNulls (· = 0) bs)
  | v => match ArrayKind.ofLeaf v, v.element? with
    | .element _, some e => .ok (e.cast d)
    | _, _ => objectElement d v

/-! ### Other types -/

/-- An attempt that succeeds under a condition. -/
def require (holds : Bool) (failure : Failure) : Outcome Unit := if holds then .ok () else .error failure

/-- The text that an object has; that of an integer can be too long. -/
def requireText : Value → Outcome Unit
  | .int n => require (n.natAbs < 10 ^ Text.longestNumeral) .badValue
  | _ => .ok ()

/-- An integer of a duration. -/
def requireDuration (read : Option Int) : Outcome Unit :=
  match read with
  | some n => require (Storage.holds true 64 n) .tooLarge
  | none => .error .badValue

/-- The attempt to store a text in a type that the library does not know. -/
def attemptText (t : CodedType) (s : String) : Outcome Unit :=
  let isBasic := s.toList.all (·.toNat < 128)
  match t with
  | .longReal => require (Numeral.isExtended s) .badValue
  | .longComplex => require (Numeral.complex? s).isSome .badValue
  | .bytes _ => require isBasic .unencodable
  | .moment u => do
    require isBasic .unencodable
    require (Moment.isMoment u s) .badValue
  | .duration _ => requireDuration (Numeral.integer? s)
  | _ => .ok ()

def attemptBytes (t : CodedType) (bs : List UInt8) : Outcome Unit :=
  match t, Text.ascii? bs with
  | .text _, none => .error .undecodable
  | .longComplex, none => do attemptText t (← decoded bs)
  | .longReal, none | .moment _, none | .duration _, none => .error .badValue
  | t, some s => attemptText t s
  | _, none => .ok ()

def attemptObject (t : CodedType) (v : Value) : Outcome Unit :=
  match t, v with
  | .longReal, .int _ | .bytes _, _ | .text _, _ | .anyText, _ => requireText v
  | .longComplex, .int n => require (!isHuge n) .tooLarge
  | .longReal, .nothing | .longComplex, .nothing | .moment _, .nothing | .duration _, .nothing => .ok ()
  | .longReal, _ | .longComplex, _ | .block _, _ => .error .wrongType
  | .moment .generic, .int _ => .error .badValue
  | .moment _, .int _ | .duration _, .int _ => .error .tooLarge
  | .moment _, _ | .duration _, _ => .error .badValue
  | _, _ => .ok ()

def attemptSingle (t : CodedType) (v : Value) : Outcome Unit :=
  match v with
  | .text s => attemptText t (Text.withoutNulls s)
  | .bytes bs => attemptBytes t (Text.dropNulls (· = 0) bs)
  | v => match ArrayKind.ofLeaf v with
    | .element _ => .ok ()
    | _ => attemptObject t v

mutual

/-- The attempt to store a value from an array. A record takes it into every field. -/
def attempt : CodedType → Value → Outcome Unit
  | .element d _, v => do let _ ← arrayElement d v
  | .record _ ts, v => attemptEach ts v
  | .several t _, v => attempt t v
  | t, v => attemptSingle t v

def attemptEach : List CodedType → Value → Outcome Unit
  | [], _ => .ok ()
  | t :: ts, v => do
    attempt t v
    attemptEach ts v

end

/-- A value from an array as an element of a type. -/
def stored (t : CodedType) (v : Value) : Outcome Element :=
  match t with
  | .element d _ => arrayElement d v
  | t => do
    attempt t v
    return .hidden

/-- An integer on its own as an element of a type. -/
def storedInteger (t : CodedType) (n : Int) : Outcome Element :=
  match t with
  | .element d _ => integerElement d n
  | .duration _ => do
    require (Storage.holds true 64 n) .tooLarge
    return .hidden
  | t => stored t (.int n)

end Dataflow.Host
