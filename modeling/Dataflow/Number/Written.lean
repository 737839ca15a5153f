import Dataflow.Number.Shortest

/-! Numbers as they are written: the shortest digits, laid out positionally in the middle of the range and with
    an exponent outside it. A complex number is written as the sum of its parts. -/

namespace Dataflow

/-- How a floating-point number is laid out. -/
structure Layout where
  /-- The first power of ten that is written with an exponent. -/
  firstLarge : Int
  /-- The last negative power of ten that is written without one. -/
  lastSmall : Int
  /-- The fewest digits of an exponent. -/
  exponentWidth : Nat
  nan : String
  infinity : String
deriving DecidableEq

/-- Double-precision numbers from `1e-4` up to `1e16` are positional and keep one place, numbers of shorter formats
    up to `1e6` and `1e3`; exponents have a sign and two digits. -/
def Layout.ofFormat (f : Format) : Layout :=
  let firstLarge := if f = .half then 3 else if f = .single then 6 else 16
  ⟨firstLarge, -4, 2, "nan", "inf"⟩

namespace Layout

def zeros (n : Nat) : List Char := List.replicate n '0'

/-- Digits without the zeros at their end, and how many there were. -/
def stripZeros (n : Nat) : Nat × Nat :=
  if h : n ≠ 0 ∧ n % 10 = 0 then
    let r := stripZeros (n / 10)
    (r.1, r.2 + 1)
  else (n, 0)
termination_by n
decreasing_by omega

/-- Digits with the point behind the digit of ten to the power `top`. -/
def positional (digits : List Char) (top : Int) : List Char :=
  let places := top.natAbs + 1
  if top < 0 then '0' :: '.' :: zeros (top.natAbs - 1) ++ digits
  else if digits.length ≤ places then digits ++ zeros (places - digits.length) ++ ['.', '0']
  else digits.take places ++ '.' :: digits.drop places

/-- Digits with the point behind the first, and an exponent. -/
def scientific (l : Layout) (digits : List Char) (top : Int) : List Char :=
  let power := Nat.toDigits 10 top.natAbs
  let fraction := if digits.length ≤ 1 then [] else '.' :: digits.drop 1
  let sign := if top < 0 then '-' else '+'
  digits.take 1 ++ fraction ++ 'e' :: sign :: zeros (l.exponentWidth - power.length) ++ power

/-- A positive decimal written by a layout. Which form it has is decided by the number that it stands for, of which
    the largest power of ten is given. -/
def decimal (l : Layout) (decade : Int) (d : Shortest.Decimal) : String :=
  let (significant, dropped) := stripZeros d.digits
  let digits := Nat.toDigits 10 significant
  let top : Int := d.exponent + dropped + digits.length - 1
  String.ofList <|
    if l.lastSmall ≤ decade ∧ decade < l.firstLarge then positional digits top else l.scientific digits top

/-- A number of a format written by a layout. -/
def floating (l : Layout) (f : Format) : Floating → String
  | .nan => l.nan
  | .infinite s => (if s then "-" else "") ++ l.infinity
  | .negativeZero => "-0.0"
  | .finite .zero => "0.0"
  | .finite (.ofOdd n k h) =>
    let b := Shortest.Binary.ofDyadic f (.ofOdd n k h)
    (if n < 0 then "-" else "") ++ l.decimal (b.decade f) (Shortest.shortest f b)

end Layout

def Floating.textAs (f : Format) (x : Floating) : String := (Layout.ofFormat f).floating f x

def Floating.text (x : Floating) : String := x.textAs .double

/-- A part of a complex number: a whole one is written without places. -/
def Floating.partText (x : Floating) : String :=
  let cs := x.text.toList
  String.ofList (if cs.drop (cs.length - 2) = ['.', '0'] then cs.take (cs.length - 2) else cs)

/-- A complex number as it is written. A real part of zero is left out, unless it has a sign. -/
def complexText (re im : Floating) : String :=
  let t := im.partText
  if re = .finite .zero then t ++ "j"
  else "(" ++ re.partText ++ (if t.toList.head? = some '-' then t else "+" ++ t) ++ "j)"

end Dataflow
