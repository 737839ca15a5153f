import Dataflow.Number.Numeral

/-! Complex numerals: a real part, an imaginary part with the letter j behind it, or both with the sign of the second
    between them, perhaps in brackets. -/

namespace Dataflow.Numeral

open Text

/-- A character among the basic ones: digits of every script stand for the plain ones and blanks for the space. -/
def basic (c : Char) : Char :=
  if c.toNat < 128 then c
  else match decimalValue? c with
    | some d => Char.ofNat ('0'.toNat + d)
    | none => if isBlank c then ' ' else '?'

/-- A text without its underscores, each of which has to stand between two digits. -/
def withoutUnderscores? (previous : Char) : List Char → Option (List Char)
  | [] => if previous = '_' then none else some []
  | c :: cs =>
    if c = '_' then
      if previous.isDigit then withoutUnderscores? c cs else none
    else if previous = '_' && !c.isDigit then none
    else (withoutUnderscores? c cs).map (c :: ·)

/-! ### A number at the start of a text -/

/-- What follows a word at the start of a text, in letters of either case. -/
def afterWord? : List Char → List Char → Option (List Char)
  | [], cs => some cs
  | _ :: _, [] => none
  | w :: ws, c :: cs => if c.toLower = w then afterWord? ws cs else none

/-- The plain digits at the start of a text, and what follows them. -/
def digitsAt (cs : List Char) : List Nat × List Char :=
  ((cs.takeWhile Char.isDigit).map fun c => c.toNat - '0'.toNat, cs.dropWhile Char.isDigit)

/-- The exponent at the start of a text; where there is none it is zero. -/
def exponentAt (cs : List Char) : Int × List Char :=
  match cs with
  | 'e' :: rest | 'E' :: rest =>
    let (negative, digits) := sign rest
    match digitsAt digits with
    | ([], _) => (0, cs)
    | (ds, rest) => (signed negative (valueOfDigits ds), rest)
  | cs => (0, cs)

/-- The digits after a point at the start of a text. -/
def fractionAt (cs : List Char) : List Nat × List Char :=
  match cs with
  | '.' :: rest => digitsAt rest
  | cs => ([], cs)

/-- The digits of a number at the start of a text, without its sign. -/
def decimalAt? (negative : Bool) (cs : List Char) : Option (Floating × List Char) :=
  let (ws, rest) := digitsAt cs
  let (fs, rest) := fractionAt rest
  if ws.isEmpty && fs.isEmpty then none
  else
    let (e, rest) := exponentAt rest
    some (.ofDecimal .double negative (valueOfDigits (ws ++ fs)) (e - fs.length), rest)

/-- The longest number at the start of a text, and what follows it. -/
def numberAt? (cs : List Char) : Option (Floating × List Char) :=
  let (negative, rest) := sign cs
  match afterWord? "infinity".toList rest, afterWord? "inf".toList rest, afterWord? "nan".toList rest with
  | some rest, _, _ | none, some rest, _ => some (.infinite negative, rest)
  | _, _, some rest => some (.nan, rest)
  | _, _, _ => decimalAt? negative rest

/-! ### Complex numbers -/

/-- The two parts of a complex number. -/
abbrev Parts := Floating × Floating

/-- A sign on its own stands for one in its direction. -/
def unitAt? (cs : List Char) : Option (Floating × List Char) :=
  match cs with
  | '+' :: rest => some (.ofInt 1, rest)
  | '-' :: rest => some (.ofInt (-1), rest)
  | _ => none

/-- What follows the letter of the imaginary part. -/
def afterLetter? (cs : List Char) : Option (List Char) :=
  match cs with
  | 'j' :: rest | 'J' :: rest => some rest
  | _ => none

def zero : Floating := .finite .zero

/-- The complex number at the start of a text, and what follows it. -/
def partsAt? (cs : List Char) : Option (Parts × List Char) :=
  match numberAt? cs with
  | none => do
    let (y, rest) := (unitAt? cs).getD (.ofInt 1, cs)
    return ((zero, y), ← afterLetter? rest)
  | some (x, rest) => match unitAt? rest, afterLetter? rest with
    | some unit, _ => do
      let (y, rest) := (numberAt? rest).getD unit
      return ((x, y), ← afterLetter? rest)
    | none, some rest => some ((zero, x), rest)
    | none, none => some ((x, zero), rest)

/-- Blanks between the parts of a numeral in basic characters. -/
def isGap (c : Char) : Bool := c = ' ' || ('\t'.toNat ≤ c.toNat && c.toNat ≤ '\r'.toNat)

/-- The complex number that a text writes. -/
def complex? (s : String) : Option Parts := do
  let cs ← withoutUnderscores? ' ' (s.toList.map basic)
  let cs := cs.dropWhile isGap
  let (bracketed, cs) := match cs with
    | '(' :: rest => (true, rest.dropWhile isGap)
    | cs => (false, cs)
  let (z, rest) ← partsAt? cs
  match bracketed, rest.dropWhile isGap with
  | false, [] => some z
  | true, ')' :: rest => if rest.all isGap then some z else none
  | _, _ => none

end Dataflow.Numeral
