import Dataflow.Value.Coercion

/-! Shapes given as values: sequences of dimensions in which `nothing` leaves a dimension open, or `nothing` for a
    shape that is not known at all. -/

namespace Dataflow

/-- A dimension as it is given. -/
def openDimension : Value → Option Value
  | .nothing => none
  | v => some v

/-- The dimensions that a value gives, as they are. -/
def givenShape : Value → Outcome (PartialShape Value)
  | .nothing => .ok none
  | v => do return some ((← v.items).map openDimension)

/-- A dimension, open where it is negative. -/
def partialDimension : Value → Outcome (Option Nat)
  | .nothing => .ok none
  | v => do if ← v.isNegative then return none else return some (← v.wholePart).toNat

/-- The partial shape that a value gives. -/
def partialShape : Value → Outcome (PartialShape Nat)
  | .nothing => .ok none
  | v => do return some (← (← v.items).mapM partialDimension)

def Shape.toValue (s : Shape) : Value := .tuple (s.map fun (d : Nat) => .int d)

def PartialShape.toValue : PartialShape Nat → Value
  | none => .nothing
  | some dims => .tuple (dims.map fun d => match d with
    | none => .nothing
    | some n => .int n)

def PartialShape.text (s : PartialShape Nat) : String := s.format toString

/-- Dimensions admitted one by one, up to the first that is not; an open one admits every dimension. -/
def admitsItems : List (Option Value) → List Value → Outcome Bool
  | none :: ds, _ :: vs => admitsItems ds vs
  | some d :: ds, v :: vs => do if ← d.equals v then admitsItems ds vs else return false
  | _, _ => .ok true

/-- The actual dimensions are admitted by the expected ones; against an unknown shape nothing is asked of them. -/
def compatibleShapes (expected actual : Value) : Outcome Bool := do
  match ← givenShape expected with
  | none => return true
  | some dims =>
    let vs ← actual.items
    if dims.length ≠ vs.length then return false
    admitsItems dims vs

/-- A shape has to be admitted by a partial shape. -/
def checkShape (expected : PartialShape Nat) (actual : Shape) (what : String) : Outcome Unit :=
  if expected.admits actual then .ok ()
  else .error (.refused (.shapeMismatch what expected.text actual.format))

/-- Given dimensions have to be admitted by given ones. -/
def checkGivenShape (expected actual : Value) (what : String) : Outcome Unit := do
  if ← compatibleShapes expected actual then return ()
  let text := PartialShape.format Value.shown
  throw (.refused (.shapeMismatch what (text (← givenShape expected)) (text (← givenShape actual))))

/-- The only element of a tensor. -/
def Tensor.soleElement (x : Tensor) : Outcome Element :=
  match x.data, x.device with
  | [e], _ => .ok e
  | _, .host => .error .badValue
  | _, .torch => .error .backendFault

/-- The only element of a tensor, as a value. -/
def Tensor.elementValue (x : Tensor) : Outcome Value := Value.ofElement <$> x.soleElement

/-- The elements of a tensor can be read. Those of another device go through an array of the host, which has to know
    their type and to have room for them. -/
def Tensor.readable (x : Tensor) : Outcome Unit :=
  match x.device, x.dtype with
  | .host, _ => .ok ()
  | .torch, .other _ _ _ => .error .wrongType
  | .torch, d =>
    if x.shape.length ≤ Shape.axisLimit && x.shape.fits d.size then .ok () else .error .badValue

/-- The tensor that a value is. -/
def Value.toTensor : Value → Outcome Tensor
  | .tensor t => .ok t
  | _ => .error .missingMember

/-- The tensor that a value is, where its elements are to be read. A scalar has elements, but none that are read
    this way. -/
def Value.read : Value → Outcome Tensor
  | .scalar _ _ => .error .wrongType
  | v => do
    let x ← v.toTensor
    x.readable
    return x

def Value.toTensors (vs : List Value) : Outcome (List Tensor) := vs.mapM Value.toTensor

end Dataflow
