import Dataflow.Number.Floating
import Dataflow.Text.Printable

/-! Quoted text. A text stands between single quotes, or between double quotes when it holds a single quote and
    no double one; the backslash, the closing quote and every unprintable character are escaped. -/

namespace Dataflow.Text

def apostrophe : Char := '\x27'

def quotationMark : Char := '\x22'

/-- The quote that a text stands between. -/
def quoteFor (cs : List Char) : Char :=
  if cs.contains apostrophe && !cs.contains quotationMark then quotationMark else apostrophe

/-- The last `width` digits of a number in base sixteen. -/
def hex (width n : Nat) : List Char :=
  (List.range width).reverse.map fun k => Nat.digitChar (n / 16 ^ k % 16)

/-- A character by its number, in the shortest of the three forms that holds it. -/
def escapeCode (n : Nat) : List Char :=
  if n < 0x100 then '\\' :: 'x' :: hex 2 n
  else if n < 0x10000 then '\\' :: 'u' :: hex 4 n
  else '\\' :: 'U' :: hex 8 n

/-- The character of a short escape. -/
def shortEscape? (c : Char) : Option Char :=
  if c = '\n' then some 'n' else if c = '\r' then some 'r' else if c = '\t' then some 't' else none

def escape (quote c : Char) : List Char :=
  if c = quote ∨ c = '\\' then ['\\', c]
  else match shortEscape? c with
    | some e => ['\\', e]
    | none => if isPrintable c then [c] else escapeCode c.toNat

def quoteChars (cs : List Char) : List Char :=
  let q := quoteFor cs
  q :: cs.flatMap (escape q) ++ [q]

def quote (s : String) : String :=
  String.ofList (quoteChars s.toList)

/-- Bytes in quoted form: printable ASCII as text, every other byte by its number. -/
def quoteBytes (bs : List UInt8) : String :=
  let cs := bs.map fun b => Char.ofNat b.toNat
  let q := quoteFor cs
  let body := cs.flatMap fun c => if c.toNat < 0x7f then escape q c else escapeCode c.toNat
  String.ofList ('b' :: q :: body ++ [q])

end Dataflow.Text
