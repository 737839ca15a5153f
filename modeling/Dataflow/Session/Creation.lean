import Dataflow.Dispatch.Basic

/-! Creation of tensors. The element type has to be registered; without a device the settings choose one. -/

namespace Dataflow.Session

/-- The implementation for the types of operands. They are keys of the cache, which is as good as a fresh lookup. -/
def select (types : List TypeExpr) : Action Session Implementation := do
  if !TypeExpr.areKeys types then throw .wrongType
  (Table.builtin (← get).devices).lookup types

def means : Dispatch.Means Session := ⟨select, setting .device, requireKnown⟩

/-- What an operator placed on a device creates. -/
def create (op : Operator) (device : Value) : Action Session Tensor := do
  match ← Dispatch.run means Dispatch.redirectLimit [.placed (.operator op) device] with
  | .tensors [x] => return x
  | _ => throw .badValue

/-- The device argument that leaves the choice to the settings. -/
def auto : Value := .text Table.autoDevice

def constant (value dtype device : Value) : Action Session Tensor := do
  let _ ← requireDType dtype
  create (.constant value dtype) device

def empty (shape dtype device : Value) : Action Session Tensor := do
  let _ ← requireDType dtype
  create (.empty (.tuple (← shape.items)) dtype) device

/-- The flag that an operation answers with when it has nothing else to say. -/
def flag (device : Value) : Action Session Tensor := do
  let dtype ← setting .flagDType
  constant (.real (.ofInt 1)) (.text dtype) device

/-- An integer as a tensor, of the element type that the settings choose unless one is given. -/
def indexScalar (value dtype device : Value) : Action Session Tensor := do
  let dtype ← if dtype.truth then pure dtype else .text <$> setting .indexDType
  constant value dtype device

end Dataflow.Session
