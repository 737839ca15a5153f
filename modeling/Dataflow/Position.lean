/-! Positions in a sequence. A position may be counted from the end, where `-1` stands for the last one; the ends of
    a range do the same, and past either end of the sequence they stand for that end. Parts of a sequence have sizes
    that add up. -/

namespace Dataflow

/-- The position in a sequence of `n` members that an integer stands for. -/
def position? (n : Nat) (i : Int) : Option Nat :=
  if 0 ≤ i then (if i < n then some i.toNat else none)
  else if -n ≤ i then some (i + n).toNat else none

/-- The end of a range in a sequence of `n` members that an integer stands for. -/
def rangeEnd (n : Nat) (i : Int) : Nat :=
  if 0 ≤ i then min i.toNat n else (i + n).toNat

/-- The members from one end of a range up to the other. -/
def segment {α : Type} (l : List α) (start stop : Int) : List α :=
  (l.take (rangeEnd l.length stop)).drop (rangeEnd l.length start)

def sumOf (sizes : List Int) : Int := sizes.foldl (· + ·) 0

theorem position?_ofNat {n k : Nat} (h : k < n) : position? n k = some k := by
  simp [position?, h]

end Dataflow
