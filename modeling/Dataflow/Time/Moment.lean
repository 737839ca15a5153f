import Dataflow.Number.Complex
import Dataflow.Time.Unit

/-! Moments as they are written: a year, then month and day, then the time of day and an offset from universal time,
    each of which may be missing from some point on. Words stand for the present and for no moment. -/

namespace Dataflow.Moment

/-- A number of digits at the start of a text, and what follows it. -/
def digits? (count : Nat) (cs : List Char) : Option (Nat × List Char) :=
  if count ≤ cs.length && (cs.take count).all Char.isDigit then
    some (Text.valueOfDigits ((cs.take count).map fun c => c.toNat - '0'.toNat), cs.drop count)
  else none

/-- Two digits that are less than a bound. -/
def below? (bound : Nat) (cs : List Char) : Option (List Char) :=
  match digits? 2 cs with
  | some (n, rest) => if n < bound then some rest else none
  | none => none

/-- One digit or two that are less than a bound. -/
def shortBelow? (bound : Nat) (cs : List Char) : Option (List Char) :=
  match digits? 2 cs with
  | some (n, rest) => if n < bound then some rest else none
  | none => (digits? 1 cs).map (·.2)

/-! ### The offset -/

/-- An offset from universal time, without its sign: hours, and perhaps minutes. -/
def isOffset (cs : List Char) : Bool :=
  match shortBelow? 24 cs with
  | none => false
  | some [] => true
  | some rest =>
    let minutes := match rest with
      | ':' :: more => more
      | rest => rest
    match shortBelow? 60 minutes with
    | some rest => rest.all Numeral.isGap
    | none => false

/-- What follows the time of day. -/
def isZone (cs : List Char) : Bool :=
  match cs.dropWhile Numeral.isGap with
  | [] => true
  | 'Z' :: rest => rest.all Numeral.isGap
  | '+' :: rest | '-' :: rest => isOffset rest
  | _ => false

/-! ### The time of day -/

/-- The most places of a fraction of a second. -/
def mostPlaces : Nat := 18

/-- A fraction of a second, and what follows the time of day. -/
def isFraction (cs : List Char) : Bool :=
  let places := (cs.takeWhile Char.isDigit).length
  isZone (cs.drop (min places mostPlaces))

def isSeconds (cs : List Char) : Bool :=
  match below? 60 cs with
  | some ('.' :: rest) => isFraction rest
  | some rest => isZone rest
  | none => false

def isMinutes (cs : List Char) : Bool :=
  match below? 60 cs with
  | some (':' :: rest) => isSeconds rest
  | some rest => isZone rest
  | none => false

/-- The time of day from its hours on. -/
def isTime (cs : List Char) : Bool :=
  match below? 24 cs with
  | some (':' :: rest) => isMinutes rest
  | some rest => isZone rest
  | none => false

/-! ### The date -/

def isLeap (year : Nat) : Bool := year % 4 = 0 && (year % 100 ≠ 0 || year % 400 = 0)

def daysOf (year month : Nat) : Nat :=
  if month = 2 then (if isLeap year then 29 else 28)
  else if month = 4 || month = 6 || month = 9 || month = 11 then 30 else 31

/-- A date from its day on. -/
def isDay (year month : Nat) (cs : List Char) : Bool :=
  match digits? 2 cs with
  | none => false
  | some (day, rest) =>
    1 ≤ day && day ≤ daysOf year month && match rest with
      | [] => true
      | 'T' :: rest | ' ' :: rest => isTime rest
      | _ => false

/-- A date from its month on. -/
def isMonth (year : Nat) (cs : List Char) : Bool :=
  match digits? 2 cs with
  | none => false
  | some (month, rest) =>
    1 ≤ month && month ≤ 12 && match rest with
      | [] => true
      | '-' :: rest => isDay year month rest
      | _ => false

/-- A date from its year on. -/
def isDate (cs : List Char) : Bool :=
  let cs := cs.dropWhile Numeral.isGap
  let cs := match cs with
    | '-' :: rest => rest
    | cs => cs
  let (ds, rest) := Numeral.digitsAt cs
  !cs.isEmpty && match rest with
    | [] => true
    | '-' :: rest => isMonth (Text.valueOfDigits ds) rest
    | _ => false

/-- The words for the present day and the present moment. -/
def presentWords : List String := ["today", "now"]

/-- A text that stands for a moment in a unit. Without a unit there is only the one that stands for none. -/
def isMoment (unit : TimeUnit) (s : String) : Bool :=
  let word := s.toLower
  if word = "" || word = "nat" then true
  else if unit = .generic then false
  else presentWords.contains word || isDate s.toList

end Dataflow.Moment
