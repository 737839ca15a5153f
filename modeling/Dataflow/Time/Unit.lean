import Dataflow.Failure
import Dataflow.Number.Complex

/-! Units of time: a number of years, months, weeks and so on down to a fraction of a second, or no unit at all. The
    code of a unit may divide it, which makes it a number of a finer one. -/

namespace Dataflow

/-- What time is counted in, the coarsest first. -/
inductive TimeBase where
  | year | month | week | day | hour | minute
  | second | milli | micro | nano | pico | femto | atto
deriving DecidableEq

namespace TimeBase

def all : List TimeBase :=
  [.year, .month, .week, .day, .hour, .minute, .second, .milli, .micro, .nano, .pico, .femto, .atto]

def code : TimeBase → String
  | .year => "Y" | .month => "M" | .week => "W" | .day => "D" | .hour => "h" | .minute => "m" | .second => "s"
  | .milli => "ms" | .micro => "us" | .nano => "ns" | .pico => "ps" | .femto => "fs" | .atto => "as"

/-- How many of finer bases make one, the nearest first. -/
def divisions : TimeBase → List (Int × TimeBase)
  | .year => [(12, .month), (52, .week), (365, .day)]
  | .month => [(4, .week), (30, .day), (720, .hour)]
  | .week => [(7, .day), (168, .hour), (10080, .minute)]
  | .day => [(24, .hour), (1440, .minute), (86400, .second)]
  | .hour => [(60, .minute), (3600, .second)]
  | .minute => [(60, .second), (60000, .milli)]
  | .second => [(1000, .milli), (1000000, .micro)]
  | .milli => [(1000, .micro), (1000000, .nano)]
  | .micro => [(1000, .nano), (1000000, .pico)]
  | .nano => [(1000, .pico), (1000000, .femto)]
  | .pico => [(1000, .femto), (1000000, .atto)]
  | .femto => [(1000, .atto)]
  | .atto => []

/-- The base of a code; the sign for a millionth has two spellings. -/
def ofCode? (s : String) : Option TimeBase :=
  if s = "μs" then some .micro else all.find? fun b => b.code = s

end TimeBase

/-- A number of a base, or no unit. -/
inductive TimeUnit where
  | generic
  | counted (count : Int) (base : TimeBase)
deriving DecidableEq

namespace TimeUnit

/-- A unit as it follows the name of a type. -/
def suffix : TimeUnit → String
  | .generic => ""
  | .counted n b => "[" ++ (if n = 1 then "" else toString n) ++ b.code ++ "]"

/-- The part of a unit that a divisor leaves, in the first finer base that it divides. -/
def divided (u : TimeUnit) (divisor : Int) : Outcome TimeUnit :=
  match u with
  | .generic => .error .badValue
  | .counted n b => match b.divisions.find? fun d => divisor ≠ 0 && d.1 % divisor = 0 with
    | some (k, c) => .ok (.counted (n * k.tdiv divisor) c)
    | none => .error .badValue

/-- The integer at the start of a text, and what follows it. -/
def integerAt? (cs : List Char) : Option (Int × List Char) :=
  let (negative, digits) := Numeral.sign (cs.dropWhile Numeral.isGap)
  match Numeral.digitsAt digits with
  | ([], _) => none
  | (ds, rest) => some (Numeral.signed negative (Text.valueOfDigits ds), rest)

/-- The unit of a code without a divisor. -/
def undivided (count : Int) (code : String) : Outcome TimeUnit :=
  match TimeBase.ofCode? code with
  | some b => .ok (.counted count b)
  | none => if code = "generic" then .ok .generic else .error .wrongType

/-- The unit that stands between brackets: a count, the code of a base and a divisor, of which the code has to be
    there. -/
def ofCode (cs : List Char) : Outcome TimeUnit := do
  let (count, rest) := (integerAt? cs).getD (1, cs)
  let (code, divisor) := Numeral.breakAt (· = '/') rest
  if code.isEmpty then throw .wrongType
  let unit ← undivided count (String.ofList code)
  match divisor with
  | none => return unit
  | some ds => match integerAt? ds with
    | some (1, []) => return unit
    | some (d, []) => unit.divided d
    | _ => throw .wrongType

/-- The unit that follows the name of a type: none, or one in brackets. -/
def ofSuffix : List Char → Outcome TimeUnit
  | [] => .ok .generic
  | '[' :: rest =>
    if rest.getLast? = some ']' && !rest.dropLast.contains ']' then ofCode rest.dropLast else .error .wrongType
  | _ => .error .wrongType

end TimeUnit

end Dataflow
