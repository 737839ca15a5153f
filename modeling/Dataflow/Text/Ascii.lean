/-! Texts over the 128 basic characters, as bytes spell them, and texts that end in null characters. -/

namespace Dataflow.Text

/-- The text that bytes spell, if they all stand for basic characters. -/
def ascii? (bs : List UInt8) : Option String :=
  if bs.all (· < 128) then some (String.ofList (bs.map fun b => Char.ofNat b.toNat)) else none

/-- A list without the null values at its end. -/
def dropNulls {α : Type} (isNull : α → Bool) (l : List α) : List α := (l.reverse.dropWhile isNull).reverse

/-- A text without the null characters at its end. -/
def withoutNulls (s : String) : String := String.ofList (dropNulls (· = Char.ofNat 0) s.toList)

end Dataflow.Text
