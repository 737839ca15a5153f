import Dataflow.Dispatch.Kernel
import Dataflow.Dispatch.Table
import Dataflow.Session.Basic

/-! Dispatch: the types of the operands select an implementation, which then runs on them. How the selection is made
    is a parameter, so that a fresh lookup and one with a cache run the same way. -/

namespace Dataflow

/-- What an implementation gives back: tensors, or its name where it is not one of the library's own. -/
inductive Answer where
  | tensors (xs : List Tensor)
  | name (n : String)

namespace Dispatch

variable {σ : Type}

/-- What a dispatch needs of a state. -/
structure Means (σ : Type) where
  /-- The implementation for the types of operands. -/
  select : List TypeExpr → Action σ Implementation
  /-- The device that a redirect goes to. -/
  defaultDevice : Action σ String
  /-- The tensors that a kernel made have element types that are known. -/
  requireKnown : List Tensor → Action σ Unit

/-- One dispatch, with a limit to the redirects on the way. A redirect looks up the default device and dispatches the
    same operator placed there. -/
def run (m : Means σ) : Nat → List Operand → Action σ Answer
  | redirects, operands => do
    let implementation ← m.select (operands.map Operand.type)
    if operands.isEmpty then throw .indexOutOfRange
    match implementation, operands with
    | .kernel device kind, _ =>
      let xs ← (Kernel.run device kind operands : Outcome (List Tensor))
      m.requireKnown xs
      return .tensors xs
    | .named n, _ => return .name n
    | .redirect, .placed inner _ :: rest => do
      let device ← m.defaultDevice
      match redirects with
      | 0 => throw .endlessRedirect
      | n + 1 => run m n (.placed inner (.text device) :: rest)
    | .redirect, _ => throw .missingMember

/-- The redirects that a dispatch can make without going round in circles: the first one names a device, and only
    the device that leaves the choice open is redirected again. -/
def redirectLimit : Nat := 1

end Dispatch

end Dataflow
