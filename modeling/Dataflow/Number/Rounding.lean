import Dataflow.Number.Floating

/-! Binary formats and rounding to them. A magnitude goes to the nearest multiple of the unit that its binade
    has in the format, a tie to the even multiple; beyond the largest finite number it becomes infinite. -/

namespace Dataflow

/-- A binary format: significant bits, the exponent of its least positive number, and the exponent of the first
    power of two that is too large for it. -/
structure Format where
  precision : Nat
  least : Int
  bound : Nat
deriving DecidableEq

namespace Format

def half : Format := ⟨11, -24, 16⟩

def single : Format := ⟨24, -149, 128⟩

def double : Format := ⟨53, -1074, 1024⟩

end Format

namespace Rounding

/-- The integer nearest to a quotient, a tie going to the even one. -/
def nearestEven (num den : Nat) : Nat :=
  let q := num / den
  let r := num % den
  if den < 2 * r ∨ (2 * r = den ∧ q % 2 = 1) then q + 1 else q

/-- The exponent of the largest power of two up to a positive quotient. -/
def binade (num den : Nat) : Int :=
  let e : Int := (num.log2 : Int) - (den.log2 : Int)
  let reaches := if 0 ≤ e then den * 2 ^ e.natAbs ≤ num else den ≤ num * 2 ^ e.natAbs
  if reaches then e else e - 1

/-- A quotient as a multiple of a power of two, rounded to an integer multiple. -/
def inUnits (num den : Nat) (unit : Int) : Nat :=
  if 0 ≤ unit then nearestEven num (den * 2 ^ unit.natAbs) else nearestEven (num * 2 ^ unit.natAbs) den

/-- The unit in the last place that a format has at a positive quotient. -/
def unitAt (f : Format) (num den : Nat) : Int :=
  max (binade num den - (f.precision - 1)) f.least

/-- The datum of a format nearest to a signed quotient. -/
def ofQuotient (f : Format) (negative : Bool) (num den : Nat) : Floating :=
  if num = 0 then .zero negative
  else
    let unit := unitAt f num den
    let m := inUnits num den unit
    let magnitude := Dyadic.ofIntWithPrec m (-unit)
    if m = 0 then .zero negative
    else if Dyadic.ofIntWithPrec 1 (-f.bound) ≤ magnitude then .infinite negative
    else .finite (if negative then -magnitude else magnitude)

end Rounding

namespace Floating

def round (f : Format) : Floating → Floating
  | .finite (.ofOdd n k _) =>
    if 0 ≤ k then Rounding.ofQuotient f (n < 0) n.natAbs (2 ^ k.natAbs)
    else Rounding.ofQuotient f (n < 0) (n.natAbs * 2 ^ k.natAbs) 1
  | x => x

/-- An integer rounded to a format; infinite where the format has no finite number for it. -/
def roundInt (f : Format) (n : Int) : Floating :=
  Rounding.ofQuotient f (n < 0) n.natAbs 1

def plus (f : Format) : Floating → Floating → Floating
  | .nan, _ | _, .nan => .nan
  | .infinite s, .infinite t => if s = t then .infinite s else .nan
  | .infinite s, _ | _, .infinite s => .infinite s
  | .negativeZero, y => y.round f
  | x, .negativeZero => x.round f
  | .finite a, .finite b => (finite (a + b)).round f

/-- A signed decimal `digits * 10 ^ exponent` rounded to a format. Exponents far outside the range of every
    format are settled without computing the power. -/
def ofDecimal (f : Format) (negative : Bool) (digits : Nat) (exponent : Int) : Floating :=
  let size : Int := (Nat.log2 digits : Int) / 3 + 1
  if digits = 0 then .zero negative
  else if 400 < exponent then .infinite negative
  else if size + exponent < -400 then .zero negative
  else if 0 ≤ exponent then Rounding.ofQuotient f negative (digits * 10 ^ exponent.natAbs) 1
  else Rounding.ofQuotient f negative digits (10 ^ exponent.natAbs)

end Floating

end Dataflow
