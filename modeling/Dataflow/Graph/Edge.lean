import Dataflow.Graph.Frame
import Dataflow.Number.Numeral

/-! Edges and the values on them. An edge names a node and one of its outputs; the outputs of a node are kept under
    its name and the identifier of the stack of frames that it was visited in. -/

namespace Dataflow

structure Edge where
  node : String
  slot : Nat
deriving DecidableEq

namespace Edge

/-- The text before the last colon and the text after it, if there is a colon. -/
def breakAtLastColon (cs : List Char) : Option (List Char × List Char) :=
  match cs with
  | [] => none
  | c :: rest => match breakAtLastColon rest with
    | some (before, after) => some (c :: before, after)
    | none => if c = ':' then some ([], rest) else none

/-- The edge that a name stands for: output `k` of a node where the name ends in a colon and digits, and the first
    output of the node of that name otherwise. -/
def ofName (name : String) : Outcome Edge :=
  match breakAtLastColon name.toList with
  | none => .ok ⟨name, 0⟩
  | some (node, index) =>
    if Text.isDigits index then
      match Numeral.integer? (String.ofList index) with
      | some k => .ok ⟨String.ofList node, k.toNat⟩
      | none => .error .badValue
    else .ok ⟨name, 0⟩

/-- The key of a node's outputs under the identifier of a stack of frames. -/
def key (node contextId : String) : String :=
  if contextId.isEmpty then node else node ++ "-" ++ contextId

end Edge

/-- The outputs of a node; an output may carry no value. -/
abbrev Outputs := List (Option Tensor)

/-- Outputs by key, without repeated keys. -/
abbrev Values := List (String × Outputs)

namespace Values

/-- Outputs stored under a key in place of those that were there. -/
def put (k : String) (o : Outputs) : Values → Values
  | [] => [(k, o)]
  | e :: es => if e.1 = k then (k, o) :: es else e :: put k o es

/-- The outputs of a node under the first of several identifiers for which there are any. -/
def find? (values : Values) (node : String) (ids : List String) : Option Outputs :=
  ids.findSome? fun i => match values.lookup (Edge.key node i) with
    | some (o :: os) => some (o :: os)
    | _ => none

/-- The value on an edge, seen from the innermost frame outwards. -/
def get (values : Values) (ids : List String) (edge : String) : Outcome (Option Tensor) := do
  let e ← Edge.ofName edge
  return (values.find? e.node ids).bind fun outputs => (outputs[e.slot]?).join

end Values

end Dataflow
