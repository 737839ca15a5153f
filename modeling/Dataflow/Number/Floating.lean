/-! Floating-point data. A datum is exact: a dyadic rational, a zero with a sign, an infinity or the one
    not-a-number; how many digits a format keeps is a matter of rounding and not of the datum. -/

-- A theory of monoids gives the natural numbers and integers powers once more. Here a power is always their own.
attribute [instance (high), default_instance (high + 1)] instPowNat

namespace Dataflow

inductive Floating where
  | nan
  | infinite (negative : Bool)
  | negativeZero
  | finite (value : Dyadic)
deriving DecidableEq

namespace Floating

def ofInt (n : Int) : Floating := .finite (.ofInt n)

def zero (negative : Bool) : Floating :=
  if negative then .negativeZero else .finite .zero

def negate : Floating → Floating
  | .nan => .nan
  | .infinite s => .infinite !s
  | .negativeZero => .finite .zero
  | .finite .zero => .negativeZero
  | .finite d => .finite (-d)

/-- The rational value of a datum that has one; both zeros have the value zero. -/
def value? : Floating → Option Dyadic
  | .nan | .infinite _ => none
  | .negativeZero => some .zero
  | .finite d => some d

/-- Order on the extended line; not-a-number stands outside it. -/
def lt : Floating → Floating → Bool
  | .nan, _ | _, .nan => false
  | .infinite s, .infinite t => s && !t
  | .infinite s, _ => s
  | _, .infinite t => !t
  | x, y => match x.value?, y.value? with
    | some a, some b => a < b
    | _, _ => false

/-- Numeric equality: the zeros are equal, and not-a-number equals nothing. -/
def eq : Floating → Floating → Bool
  | .nan, _ | _, .nan => false
  | x, y => !x.lt y && !y.lt x

/-- A number other than zero; not-a-number is nonzero. -/
def isNonzero : Floating → Bool
  | .negativeZero | .finite .zero => false
  | _ => true

def isPositive (x : Floating) : Bool := (ofInt 0).lt x

/-- A dyadic without its fraction, toward zero. -/
def truncateDyadic : Dyadic → Int
  | .zero => 0
  | .ofOdd n k _ => if k ≤ 0 then n * 2 ^ k.natAbs else n.tdiv (2 ^ k.natAbs)

/-- The integer part of a finite datum. -/
def truncate? (x : Floating) : Option Int :=
  x.value?.map truncateDyadic

/-- Finite and without a fraction. -/
def isIntegral (x : Floating) : Bool :=
  match x.value? with
  | none => false
  | some .zero => true
  | some (.ofOdd _ k _) => k ≤ 0

def double : Floating → Floating
  | .finite d => .finite (d + d)
  | x => x

end Floating

end Dataflow
