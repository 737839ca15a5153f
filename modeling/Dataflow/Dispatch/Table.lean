import Dataflow.Dispatch.Operator
import Dataflow.Position
import Dataflow.Typing.Signature

/-! Tables of implementations. A lookup takes the entries whose signature matches the types and whose predicate
    holds, and among these the only one of the highest priority. -/

namespace Dataflow

inductive Implementation where
  /-- Dispatches once more, on the default device. -/
  | redirect
  | kernel (device : Device) (kind : OperatorKind)
  | named (name : String)
deriving DecidableEq

namespace Implementation

def name : Implementation → String
  | .redirect => "dispatch_auto_device"
  | .kernel _ .constant => "dispatch_constant"
  | .kernel _ .empty => "dispatch_empty"
  | .kernel _ .index => "dispatch_index"
  | .kernel _ .split => "dispatch_split"
  | .kernel _ .tie => "dispatch_tie"
  | .kernel _ .stack => "dispatch_stack"
  | .named n => n

end Implementation

/-- A condition on the types of a lookup, beyond the signature. -/
inductive Predicate where
  | constant (holds : Bool)
  | argumentIs (k : Int) (type : TypeExpr)
  /-- Any other condition that depends on nothing but the types. -/
  | test (condition : List TypeExpr → Outcome Bool)

def Predicate.holds (types : List TypeExpr) : Predicate → Outcome Bool
  | .constant b => .ok b
  | .test condition => condition types
  | .argumentIs k t => match (position? types.length k).bind (types[·]?) with
    | some u => u.equal t
    | none => .error .indexOutOfRange

structure Entry where
  signature : Signature
  implementation : Implementation
  predicate : Option Predicate
  priority : Int

abbrev Table := List Entry

def Entry.accepts (types : List TypeExpr) (e : Entry) : Outcome Bool := do
  match ← e.signature.matchTypes types with
  | none => return false
  | some _ => match e.predicate with
    | none => return true
    | some p => p.holds types

namespace Table

def accepting (types : List TypeExpr) : Table → Outcome Table
  | [] => .ok []
  | e :: es => do
    let taken ← e.accepts types
    let rest ← accepting types es
    return if taken then e :: rest else rest

def top (es : Table) : Table := es.filter fun e => es.all fun d => d.priority ≤ e.priority

def lookup (table : Table) (types : List TypeExpr) : Outcome Implementation := do
  match top (← accepting types table) with
  | [e] => return e.implementation
  | es => throw (.undispatched types es.length)

/-! ### The implementations of the library -/

/-- The type of an operator placed on a device that is known by name. -/
def placedType (c : Class) (device : String) : TypeExpr := .apply .placed [.named c, .literal [.text device]]

/-- The signature of a kernel. Tensors are created on the device that the operator is placed on; any other operator
    takes tensors of the device, a single one or any number of them. -/
def kernelSignature (device : Device) (kind : OperatorKind) : Signature :=
  let operator := [TypeExpr.named kind.toClass]
  let tensor := [TypeExpr.named device.toClass]
  match kind with
  | .constant | .empty => ⟨[[placedType kind.toClass device.name]], none⟩
  | .index | .split => ⟨[operator, tensor], none⟩
  | .tie | .stack => ⟨[operator], some tensor⟩

def kernels (device : Device) : Table :=
  OperatorKind.all.map fun kind => ⟨kernelSignature device kind, .kernel device kind, none, 0⟩

/-- The device name that leaves the choice to the settings. -/
def autoDevice : String := "auto"

def redirectEntry : Entry :=
  ⟨⟨[[placedType .operator autoDevice]], some [.named .tensor]⟩, .redirect, none, -2⟩

/-- The table of a library with some backends loaded. -/
def builtin (devices : List Device) : Table := redirectEntry :: devices.flatMap kernels

end Table

end Dataflow
