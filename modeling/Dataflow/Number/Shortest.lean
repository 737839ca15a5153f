import Dataflow.Number.Rounding

/-! The shortest decimal that reads back. Among the decimals that a format rounds to a given number, those with
    the fewest digits are taken, and of these the nearest; a tie goes to the even digit. -/

namespace Dataflow.Shortest

/-- A decimal `digits * 10 ^ exponent`. -/
structure Decimal where
  digits : Nat
  exponent : Int
deriving DecidableEq

/-- A positive number of a format: `significand` units of `2 ^ unit`. -/
structure Binary where
  significand : Nat
  unit : Int
deriving DecidableEq

/-- A positive dyadic in the units of its binade. -/
def Binary.ofDyadic (f : Format) : Dyadic → Binary
  | .zero => ⟨0, f.least⟩
  | .ofOdd n k _ =>
    let unit := max ((n.natAbs.log2 : Int) - k - (f.precision - 1)) f.least
    ⟨n.natAbs * 2 ^ (-k - unit).toNat, unit⟩

/-- The numbers that round to `b`, as numerators over one denominator: the lower end, the number and the upper
    end. Below a power of two the lower end is twice as near. -/
structure Interval where
  low : Nat
  mid : Nat
  high : Nat
  den : Nat
  closed : Bool
deriving DecidableEq

def Binary.interval (f : Format) (b : Binary) : Interval :=
  let narrow := b.significand = 2 ^ (f.precision - 1) ∧ f.least < b.unit
  let scale := 2 ^ (b.unit - 2).toNat
  let low := if narrow then 4 * b.significand - 1 else 4 * b.significand - 2
  ⟨low * scale, 4 * b.significand * scale, (4 * b.significand + 2) * scale, 2 ^ (2 - b.unit).toNat,
    b.significand % 2 == 0⟩

def Interval.admits (i : Interval) (n d : Nat) : Bool :=
  if i.closed then i.low * d ≤ n * i.den && n * i.den ≤ i.high * d
  else i.low * d < n * i.den && n * i.den < i.high * d

def digitCount (n : Nat) : Nat :=
  if n < 10 then 1 else digitCount (n / 10) + 1

/-- The exponent of the largest power of ten up to a positive quotient. -/
def decade (num den : Nat) : Int :=
  let e : Int := (digitCount num : Int) - digitCount den
  let reaches := if 0 ≤ e then den * 10 ^ e.natAbs ≤ num else den ≤ num * 10 ^ e.natAbs
  if reaches then e else e - 1

/-- The exponent of the largest power of ten up to a positive number. -/
def Binary.decade (f : Format) (b : Binary) : Int :=
  let i := b.interval f
  Shortest.decade i.mid i.den

/-- The two neighbours of the number on the grid of multiples of `10 ^ exponent`, so far as they read back, the
    nearer first. -/
def Interval.onGrid? (i : Interval) (exponent : Int) : Option Decimal :=
  let up := 10 ^ exponent.toNat
  let down := 10 ^ (-exponent).toNat
  let below := i.mid * down / (i.den * up)
  let rest := i.mid * down % (i.den * up)
  let lower := i.admits (below * up) down && below != 0
  let upper := i.admits ((below + 1) * up) down
  let nearer := 2 * rest < i.den * up || (2 * rest == i.den * up && below % 2 == 0)
  if lower && (nearer || !upper) then some ⟨below, exponent⟩
  else if upper then some ⟨below + 1, exponent⟩
  else none

/-- The digits of the number on the finest grid, for a format that no grid of the search satisfies. -/
def Interval.onFinest (i : Interval) (exponent : Int) : Decimal :=
  ⟨i.mid * 10 ^ (-exponent).toNat / (i.den * 10 ^ exponent.toNat), exponent⟩

/-- No format here needs more digits. -/
def mostDigits : Nat := 17

def shortest (f : Format) (b : Binary) : Decimal :=
  let i := b.interval f
  let top := decade i.mid i.den
  let grids := (List.range mostDigits).map fun (k : Nat) => top - (k : Int)
  (grids.findSome? i.onGrid?).getD (i.onFinest (top - mostDigits))

end Dataflow.Shortest
