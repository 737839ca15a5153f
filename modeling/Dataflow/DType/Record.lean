import Dataflow.DType.Repeated

/-! Codes of several element types. Between commas stand a number of values and the code of a single type; one such
    part is a type for as many values, and several are the fields of a record. -/

namespace Dataflow.CodedType

/-! ### Which codes have parts -/

/-- A comma that stands in no brackets, given how many are open. -/
def hasComma : Int → List Char → Bool
  | _, [] => false
  | depth, c :: cs =>
    if c = ',' && depth = 0 then true
    else hasComma (if c = '[' then depth + 1 else if c = ']' then depth - 1 else depth) cs

/-- A code that starts with a number of values, perhaps behind an order mark. -/
def startsWithCount (cs : List Char) : Bool :=
  match cs with
  | [] => false
  | c :: rest =>
    c.isDigit || ['(', ')'].isPrefixOf cs ||
      (isOrderMark c && ((rest.head?.map Char.isDigit).getD false || (2 < rest.length && ['(', ')'].isPrefixOf rest)))

/-- A code that is read part by part. -/
def hasParts (cs : List Char) : Bool := startsWithCount cs || hasComma 0 (cs.drop 1)

/-! ### The number of values -/

/-- A whole number as it is written: without zeros in front. -/
def numeral? (cs : List Char) : Option Int :=
  let n := Text.valueOfDigits (cs.map fun c => c.toNat - '0'.toNat)
  if cs.isEmpty || !cs.all Char.isDigit || Text.longestNumeral < cs.length then none
  else if cs.head? = some '0' && n ≠ 0 then none
  else some n

def trimSpaces (cs : List Char) : List Char :=
  ((cs.dropWhile (· = ' ')).reverse.dropWhile (· = ' ')).reverse

/-- A list without an empty part at its end. -/
def dropLastEmpty (parts : List (List Char)) : List (List Char) :=
  if parts.getLast? = some [] then parts.dropLast else parts

/-- What stands between commas, without spaces around it. -/
def betweenCommas : List Char → List Char → List (List Char)
  | part, [] => [trimSpaces part.reverse]
  | part, c :: cs => if c = ',' then trimSpaces part.reverse :: betweenCommas [] cs else betweenCommas (c :: part) cs

/-- Numbers between commas: a single one without a comma stands for itself, and all else is a sequence. -/
def numbers? (cs : List Char) : Option Value := do
  let ps := betweenCommas [] cs
  let ns ← (dropLastEmpty ps).mapM numeral?
  match ps, ns with
  | [_], [n] => some (.int n)
  | _, [] => none
  | _, ns => some (.tuple (ns.map .int))

/-- The number of values, or the shape that they stand under. -/
def count (cs : List Char) : Outcome Value :=
  let cs := trimSpaces cs
  let read := match cs with
    | '(' :: rest =>
      if rest.getLast? ≠ some ')' then none
      else if (trimSpaces rest.dropLast).isEmpty then some (.tuple [])
      else numbers? rest.dropLast
    | cs => numbers? cs
  match read with
  | some v => .ok v
  | none => .error .malformedLiteral

/-! ### Parts -/

/-- A part of a code: its order marks, the number of its values and the code of their type. -/
structure Part where
  firstMark : Option Char
  count : List Char
  secondMark : Option Char
  code : List Char

/-- A character of one kind at the start of a text, if there is one. -/
def takeIf (p : Char → Bool) (cs : List Char) : List Char × List Char :=
  match cs with
  | c :: rest => if p c then ([c], rest) else ([], cs)
  | [] => ([], [])

/-- The characters of one kind at the start of a text. -/
def takeAll (p : Char → Bool) (cs : List Char) : List Char × List Char := (cs.takeWhile p, cs.dropWhile p)

/-- A number of values at the start of a text: numbers between commas, perhaps in parentheses. -/
def countAt (cs : List Char) : List Char × List Char :=
  let (a, cs) := takeAll (· = ' ') cs
  let (b, cs) := takeIf (· = '(') cs
  let (c, cs) := takeAll (fun c => c = ' ' || c = ',' || c.isDigit) cs
  let (d, cs) := takeIf (· = ')') cs
  let (e, cs) := takeAll (· = ' ') cs
  (a ++ b ++ c ++ d ++ e, cs)

/-- The code of a type at the start of a text, with what stands in brackets behind it. -/
def codeAt (cs : List Char) : List Char × List Char :=
  let (name, cs) := takeAll (fun c => c.isAlphanum || c = '.' || c = '?') cs
  match cs with
  | '[' :: rest =>
    let (inner, after) := takeAll (fun c => c.isAlphanum || c = ',' || c = '.') rest
    match after with
    | ']' :: more => (name ++ '[' :: inner ++ [']'], more)
    | _ => (name, cs)
  | cs => (name, cs)

/-- The part at the start of a text, and what follows it. -/
def partAt (cs : List Char) : Part × List Char :=
  let (m, cs) := takeIf isOrderMark cs
  let (n, cs) := countAt cs
  let (k, cs) := takeIf isOrderMark cs
  let (code, cs) := codeAt cs
  (⟨m.head?, n, k.head?, code⟩, cs)

/-- Blanks between the parts. -/
def isSpace (c : Char) : Bool := Text.isBlank c || (0x1c ≤ c.toNat && c.toNat ≤ 0x1f)

/-- What follows the comma behind a part, if there is one: nothing where the text ends there. -/
def afterPart (cs : List Char) : Outcome (Option (List Char)) :=
  match cs.dropWhile isSpace with
  | [] => .ok none
  | ',' :: rest => .ok (some (rest.dropWhile isSpace))
  | _ => .error .badValue

/-- The order mark that two of them amount to. -/
def joinMarks : Option Char → Option Char → Outcome (Option Char)
  | m, none | none, m => .ok m
  | some a, some b =>
    let plain (c : Char) : Char := if c = '=' then '<' else c
    if plain a = plain b then .ok (some (plain a)) else .error .badValue

/-- The code of a part with its order mark, which is left out where it changes nothing. -/
def Part.marked (p : Part) : Outcome String := do
  match ← joinMarks p.firstMark p.secondMark with
  | some '>' => return String.ofList ('>' :: p.code)
  | _ => return String.ofList p.code

/-- The code of a part and the number of its values, if it gives one. -/
def Part.read (p : Part) : Outcome (String × Option Value) := do
  let code ← p.marked
  if p.count.isEmpty then return (code, none)
  return (code, some (← CodedType.count p.count))

/-- The parts of a code, and whether there is a comma behind one. A part is shorter than the text that it starts, so
    that as many steps as there are characters are enough. -/
def parts : Nat → List Char → Outcome (List (String × Option Value) × Bool)
  | 0, _ | _, [] => .ok ([], false)
  | n + 1, cs => do
    let (p, rest) := partAt cs
    let after ← afterPart rest
    let q ← p.read
    match after with
    | none => return ([q], false)
    | some rest =>
      let (qs, _) ← parts n rest
      return (q :: qs, true)

/-! ### Codes -/

/-- The parts that make the fields of a record: an empty one at the end is none. -/
def fieldParts (ps : List (String × Option Value)) : List (String × Option Value) :=
  match ps.getLast? with
  | some ("", none) => ps.dropLast
  | _ => ps

/-- The names of fields that have none of their own. -/
def fieldName (k : Nat) : String := "f" ++ toString k

/-- A type as that of a field. Texts of any length are none. -/
def asField : CodedType → Outcome CodedType
  | .anyText => .error .wrongType
  | t => .ok t

/-- The type of a code, to a depth of parts within parts. -/
def ofCode : Nat → String → Outcome CodedType
  | 0, _ => .error .wrongType
  | n + 1, s =>
    if !hasParts s.toList then ofSingle s
    else do
      let ofPart (p : String × Option Value) : Outcome CodedType := do
        let t ← ofCode n p.1
        match p.2 with
        | none => return t
        | some v => t.paired v (.error .wrongType)
      let (ps, isList) ← parts (s.length + 1) s.toList
      match isList, ps with
      | false, [p] => ofPart p
      | false, _ => throw .badValue
      | true, ps =>
        let fields := fieldParts ps
        if fields.isEmpty then throw .badValue
        return .record ((List.range fields.length).map fieldName) (← fields.mapM fun p => do asField (← ofPart p))

/-- The type of a code. The codes of parts are shorter than the whole. -/
def ofText (s : String) : Outcome CodedType := ofCode (s.length + 1) s

end Dataflow.CodedType
