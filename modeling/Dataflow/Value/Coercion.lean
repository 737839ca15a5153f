import Dataflow.Text.Ascii
import Dataflow.Value.Compare

/-! Values where an operation needs something definite: a sequence, an integer, an order. -/

namespace Dataflow.Value

/-- The members of a sequence: of a list or tuple its items, of a text its characters, of bytes their numbers. -/
def items : Value → Outcome (List Value)
  | .list vs | .tuple vs => .ok vs
  | .text s => .ok (s.toList.map fun c => .text (String.singleton c))
  | .bytes bs => .ok (bs.map fun b => .int b.toNat)
  | _ => .error .wrongType

mutual

/-- A value that can be written: no integer in it has too many digits. -/
def isWritable : Value → Bool
  | .int n => n.natAbs < 10 ^ Text.longestNumeral
  | .list vs => areWritable vs
  | .tuple vs => areWritable vs
  | _ => true

def areWritable : List Value → Bool
  | [] => true
  | v :: vs => isWritable v && areWritable vs

end

/-- The form of a value inside a message. -/
def formatted (v : Value) : Outcome String := if v.isWritable then .ok v.plain else .error .badValue

theorem formatted_int {n : Int} (h : n.natAbs < 10 ^ Text.longestNumeral) :
    (int n).formatted = .ok (toString n) := by
  rw [formatted, isWritable, decide_eq_true h, if_pos rfl]
  rfl

theorem formatted_int_of_not {n : Int} (h : ¬n.natAbs < 10 ^ Text.longestNumeral) :
    (int n).formatted = .error .badValue := by
  rw [formatted, isWritable, decide_eq_false h]
  rfl

/-- A value that counts positions: an integer, a truth value, or a scalar of an integer type. -/
def position : Value → Outcome Int
  | .int n => .ok n
  | .flag b => .ok (if b then 1 else 0)
  | .scalar _ (.whole n) => .ok n
  | _ => .error .wrongType

/-- How many positions are missing up to a position in a sequence that is not as long. A scalar counts within its own
    type, and one past its greatest number is its least. -/
def missing (length : Nat) : Value → Outcome Int
  | .int n => .ok (n + 1 - length)
  | .flag b => .ok ((if b then 2 else 1) - length)
  | .scalar d e => match e, d.storage with
    | .flag b, _ => .ok ((if b then 2 else 1) - length)
    | .whole n, .integer signed bits =>
      if Storage.holds signed bits length then
        .ok (Storage.wrap signed bits (Storage.wrap signed bits (n + 1) - length))
      else .error .tooLarge
    | _, _ => .error .wrongType
  | _ => .error .wrongType

/-- The integer part of a number. -/
def integerPart : Floating → Outcome Int
  | .nan => .error .badValue
  | .infinite _ => .error .tooLarge
  | x => match x.truncate? with
    | some n => .ok n
    | none => .error .badValue

/-- A number without its fraction, or the integer that a text writes. -/
def wholePart : Value → Outcome Int
  | .int n => .ok n
  | .flag b => .ok (if b then 1 else 0)
  | .real x => integerPart x
  | .scalar _ (.flag b) => .ok (if b then 1 else 0)
  | .scalar _ (.whole n) => .ok n
  | .scalar _ (.real x) => integerPart x
  | .text s => match Numeral.integer? s with
    | some n => .ok n
    | none => .error .badValue
  | .bytes bs => match (Text.ascii? bs).bind Numeral.integer? with
    | some n => .ok n
    | none => .error .badValue
  | _ => .error .wrongType

/-- The members of a sequence of numbers, each without its fraction. -/
def wholeParts (v : Value) : Outcome (List Int) := do (← v.items).mapM wholePart

/-! ### Integers -/

/-- A refusal whose message writes a value, which has to be one that can be written. -/
def refuse {α : Type} (cause : Value → Refusal) (v : Value) : Outcome α :=
  if v.isWritable then .error (.refused (cause v)) else .error .badValue

/-- A real number in double precision, for which an integer may be too large. Truth values are no numbers here. -/
def asDouble : Value → Outcome (Option Floating)
  | .int n | .scalar _ (.whole n) => if isHuge n then .error .tooLarge else .ok (some (.roundInt .double n))
  | .real x | .scalar _ (.real x) => .ok (some x)
  | _ => .ok none

/-- A value that stands for an integer: a number that is without a fraction in double precision, but no truth value. -/
def integer (what : String) (v : Value) : Outcome Int := do
  if (← v.asDouble).any Floating.isIntegral then v.wholePart else v.refuse (.notInteger what)

/-- A list or tuple of values that stand for integers. -/
def integers (what : String) (v : Value) : Outcome (List Int) :=
  match v with
  | .list vs | .tuple vs => vs.mapM (integer what)
  | _ => v.refuse (.notIntegers what)

/-! ### Sums -/

def addElements (d : DType) (x y : Element) : Outcome Value :=
  match d.storage, x, y with
  | .boolean, .flag a, .flag b => .ok (.scalar d (.flag (a || b)))
  | .integer signed bits, .whole m, .whole n => .ok (.scalar d (.whole (Storage.wrap signed bits (m + n))))
  | .floating f, .real a, .real b => .ok (.scalar d (.real (a.plus f b)))
  | _, _, _ => .error .wrongType

/-- The sum of two scalars, in the type for both. -/
def addScalars (c d : DType) (x y : Element) : Outcome Value :=
  addElements (c.join d) (x.cast (c.join d)) (y.cast (c.join d))

/-- A number beside a scalar: an integer has to be one of the scalar's type, and beside a truth value one of 64
    bits; a fraction takes integers to double precision. -/
def addToScalar (d : DType) (e : Element) : Value → Outcome Value
  | .scalar c x => addScalars d c e x
  | .flag b => addScalars d .bool e (.flag b)
  | .int n => match d.storage with
    | .boolean =>
      if Storage.holds true 64 n then addScalars d .int64 e (.whole n) else .error .tooLarge
    | .integer signed bits => if Storage.holds signed bits n then addScalars d d e (.whole n) else .error .tooLarge
    | _ => if isHuge n then .error .tooLarge else addScalars d d e (.real (.roundInt .double n))
  | .real x => match d.storage with
    | .floating _ => addScalars d d e (.real x)
    | _ => addScalars d .float64 e (.real x)
  | .text _ | .bytes _ => .error .mixedKinds
  | _ => .error .wrongType

/-- A truth value as the integer that it counts as. -/
def counted : Value → Value
  | .flag b => .int (if b then 1 else 0)
  | v => v

/-- The sum of two numbers, or two texts one after the other. -/
def plus (a b : Value) : Outcome Value :=
  match a, b with
  | .scalar d e, v | v, .scalar d e => addToScalar d e v
  | .text s, .text t => .ok (.text (s ++ t))
  | .bytes s, .bytes t => .ok (.bytes (s ++ t))
  | a, b => match counted a, counted b with
    | .int m, .int n => .ok (.int (m + n))
    | .int n, .real x | .real x, .int n =>
      if isHuge n then .error .tooLarge else .ok (.real (x.plus .double (.roundInt .double n)))
    | .real x, .real y => .ok (.real (x.plus .double y))
    | _, _ => .error .wrongType

def successor (v : Value) : Outcome Value := v.plus (.int 1)

/-- The values of a tensor's elements as nested lists, one level for every axis. -/
def nested : Shape → List Element → Value
  | [], es => match es with
    | e :: _ => ofElement e
    | [] => .nothing
  | d :: s, es => .list ((Blocks.blocks d (Shape.size s) es).map (nested s))

end Dataflow.Value
