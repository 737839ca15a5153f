import Dataflow.Number.Complex

/-! Numerals of extended precision. They are decimal or of base sixteen and know words for what is no number; blanks
    may stand before them, but nothing behind. -/

namespace Dataflow.Numeral

/-- What follows a bracket behind the word for what is no number. -/
def afterPayload (cs : List Char) : List Char :=
  match cs with
  | '(' :: rest => match rest.dropWhile fun c => c.isAlphanum || c = '_' with
    | ')' :: rest => rest
    | rest => rest
  | cs => cs

def isHexDigit (c : Char) : Bool := c.isDigit || ('a' ≤ c.toLower && c.toLower ≤ 'f')

/-- What follows an exponent of two. -/
def afterBinaryExponent (cs : List Char) : List Char :=
  match cs with
  | 'p' :: rest | 'P' :: rest =>
    let (_, digits) := sign rest
    match digitsAt digits with
    | ([], _) => cs
    | (_, rest) => rest
  | cs => cs

/-- What follows a number of base sixteen, behind its mark. -/
def afterHex? (cs : List Char) : Option (List Char) :=
  let whole := cs.takeWhile isHexDigit
  let rest := cs.dropWhile isHexDigit
  let (fraction, rest) := match rest with
    | '.' :: more => (more.takeWhile isHexDigit, more.dropWhile isHexDigit)
    | rest => ([], rest)
  if whole.isEmpty && fraction.isEmpty then none else some (afterBinaryExponent rest)

/-- What follows a number without its sign. -/
def afterMagnitude? (cs : List Char) : Option (List Char) :=
  let decimal := (decimalAt? false cs).map (·.2)
  match cs with
  | '0' :: 'x' :: rest | '0' :: 'X' :: rest => (afterHex? rest).or decimal
  | _ => decimal

/-- What follows the longest number at the start of a text. -/
def afterExtended? (cs : List Char) : Option (List Char) :=
  let (_, rest) := sign cs
  match afterWord? "nan".toList rest, afterWord? "infinity".toList rest, afterWord? "inf".toList rest with
  | some rest, _, _ => some (afterPayload rest)
  | none, some rest, _ | none, none, some rest => some rest
  | none, none, none => afterMagnitude? rest

/-- A text that writes a number of extended precision. It ends at a null character, and blanks alone write zero. -/
def isExtended (s : String) : Bool :=
  let cs := s.toList.takeWhile (·.toNat ≠ 0)
  let rest := cs.dropWhile isGap
  match afterExtended? rest with
  | some rest => rest.isEmpty
  | none => rest.isEmpty && !cs.isEmpty

end Dataflow.Numeral
