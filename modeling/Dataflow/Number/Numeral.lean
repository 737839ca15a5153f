import Dataflow.Number.Rounding
import Dataflow.Text.Blank
import Dataflow.Text.Digit

/-! Numerals in text: integers and real numbers with blanks around them, digits of any script and single
    underscores between digits. -/

namespace Dataflow.Numeral

open Text

/-- Digits with at most one underscore between two of them. -/
def digits? : List Char → Option (List Nat)
  | [] => none
  | [c] => (decimalValue? c).map ([·])
  | c :: '_' :: rest => do return (← decimalValue? c) :: (← digits? rest)
  | c :: rest => do return (← decimalValue? c) :: (← digits? rest)

/-- A sign, where there is one, and what follows it. -/
def sign : List Char → Bool × List Char
  | '-' :: rest => (true, rest)
  | '+' :: rest => (false, rest)
  | rest => (false, rest)

def signed (negative : Bool) (n : Nat) : Int :=
  if negative then -(n : Int) else n

/-- The integer that a text writes. -/
def integer? (s : String) : Option Int := do
  let (negative, rest) := sign (trimBlanks s.toList)
  let ds ← digits? rest
  if longestNumeral < ds.length then none
  else return signed negative (valueOfDigits ds)

/-- Digits that may be missing. -/
def optionalDigits? : List Char → Option (List Nat)
  | [] => some []
  | cs => digits? cs

/-- The exponent after its letter. -/
def exponent? (cs : List Char) : Option Int := do
  let (negative, rest) := sign cs
  return signed negative (valueOfDigits (← digits? rest))

/-- What stands before the first character of a kind, and what stands after it if there is one. -/
def breakAt (p : Char → Bool) : List Char → List Char × Option (List Char)
  | [] => ([], none)
  | c :: cs => if p c then ([], some cs) else let (a, b) := breakAt p cs; (c :: a, b)

/-- A number with a point or an exponent, without its sign. -/
def unsigned? (negative : Bool) (cs : List Char) : Option Floating := do
  let (mantissa, power) := breakAt (fun c => c = 'e' ∨ c = 'E') cs
  let (whole, fraction) := breakAt (· = '.') mantissa
  let ws ← optionalDigits? whole
  let fs ← optionalDigits? (fraction.getD [])
  if ws.isEmpty && fs.isEmpty then none
  let e ← match power with
    | none => some 0
    | some p => exponent? p
  return .ofDecimal .double negative (valueOfDigits (ws ++ fs)) (e - fs.length)

/-- The double-precision number that a text writes. -/
def real? (s : String) : Option Floating :=
  let (negative, rest) := sign (trimBlanks s.toList)
  let word := String.ofList (rest.map Char.toLower)
  if word = "nan" then some .nan
  else if word = "inf" ∨ word = "infinity" then some (.infinite negative)
  else unsigned? negative rest

end Dataflow.Numeral
