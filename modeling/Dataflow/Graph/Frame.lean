import Dataflow.Value.Coercion

/-! Frames: the activations of loops that a graph is running in, each with the number of its current iteration. A
    stack of frames, the root first, has an identifier under which values are kept. -/

namespace Dataflow

structure Frame where
  id : Value
  name : Value
  iteration : Value

namespace Frame

/-- The frame outside of every loop. -/
def root : Frame := ⟨.int 0, .text "", .int 0⟩

/-- The frame of a loop that is entered. -/
def entered (id : Nat) (name : Value) : Frame := ⟨.int id, name, .int 0⟩

/-- The frame that a sequence of number, name and iteration gives. -/
def ofValue (v : Value) : Outcome Frame := do
  match ← v.items with
  | [id, name, iteration] => return ⟨id, name, iteration⟩
  | _ => throw .wrongType

/-- The stack of frames that a sequence of frames gives. -/
def stackOfValue (v : Value) : Outcome (List Frame) := do (← v.items).mapM ofValue

def toValue (f : Frame) : Value := .tuple [f.id, f.name, f.iteration]

def same (f g : Frame) : Bool := f.id == g.id && f.name == g.name && f.iteration == g.iteration

instance : BEq Frame := ⟨same⟩

/-- The part of a context identifier that a frame contributes. -/
def segment (f : Frame) : Outcome String := do
  if f.id == .int 0 && f.iteration == .int 0 then return ""
  return (← f.name.formatted) ++ "-" ++ (← f.iteration.formatted)

def contextId (frames : List Frame) : Outcome String := do return "/".intercalate (← frames.mapM segment)

/-- The stacks that a stack of frames extends, from the whole stack down to the root alone. -/
def enclosing (frames : List Frame) : List (List Frame) :=
  (List.range frames.length).map fun k => frames.take (frames.length - k)

/-- The identifiers that are visible from a stack of frames, the innermost first. -/
def visibleIds (frames : List Frame) : Outcome (List String) := (enclosing frames).mapM contextId

def equals (f g : Frame) : Outcome Bool := Value.equals f.toValue g.toValue

/-- Equality of two stacks, frame by frame up to the first that differs, and then of the lengths. -/
def sameStack : List Frame → List Frame → Outcome Bool
  | [], [] => .ok true
  | f :: fs, g :: gs => do if ← f.equals g then sameStack fs gs else return false
  | _, _ => .ok false

end Frame

end Dataflow
