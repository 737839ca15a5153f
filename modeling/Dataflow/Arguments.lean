import Dataflow.Failure

/-! Arguments of an operation, given by position or by name. -/

namespace Dataflow.Arguments

/-- A parameter and the value that it has when it is not given. -/
abbrev Parameter := String × Option Value

/-- The value of one parameter that is not given by position. -/
def named (given : List (String × Value)) (p : Parameter) : Outcome Value :=
  match given.lookup p.1, p.2 with
  | some v, _ => .ok v
  | none, some v => .ok v
  | none, none => .error .wrongType

/-- The values of the parameters in order. Every argument belongs to one parameter, and every parameter has an
    argument or a value of its own. -/
def bind (parameters : List Parameter) (byPosition : List Value) (byName : List (String × Value)) :
    Outcome (List Value) := do
  let rest := parameters.drop byPosition.length
  if parameters.length < byPosition.length then throw .wrongType
  if byName.any fun (n, _) => !rest.any (·.1 = n) then throw .wrongType
  return byPosition ++ (← rest.mapM (named byName))

end Dataflow.Arguments
