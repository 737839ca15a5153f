import Dataflow.DType.Record
import Dataflow.Text.Ascii
import Dataflow.Value.Nested

/-! The element type that a value asks for: a code, a pair of a type with a shape or with another type, a list of the
    fields of a record, or a scalar for the sake of its own type. -/

namespace Dataflow.Host

/-- The name of a field, and its title if it has one. -/
def fieldName (k : Nat) : Value → Outcome (String × Option String)
  | .text "" => .ok (CodedType.fieldName k, none)
  | .text s => .ok (s, none)
  | .tuple [.text "", .text ""] => .error .wrongType
  | .tuple [.text title, .text ""] => .ok (title, some title)
  | .tuple [_, .text ""] => .error .wrongType
  | .tuple [.text title, .text s] => .ok (s, some title)
  | .tuple [_, .text s] => .ok (s, none)
  | _ => .error .wrongType

/-- The names that a field takes up, which have to be free. -/
def taken (seen : List String) (name : String) (title : Option String) : Outcome (List String) :=
  let names := match title with
    | none => [name]
    | some t => if t = name then [name] else [name, t]
  if names.any seen.contains then .error .badValue else .ok (names ++ seen)

mutual

/-- The element type of a code. Nothing stands for double precision. -/
def codedType : Value → Outcome CodedType
  | .nothing => .ok (.known .float64)
  | .text s => CodedType.ofText s
  | .bytes bs => match Text.ascii? bs with
    | some s => CodedType.ofText s
    | none => .error .wrongType
  | .scalar d _ => .ok (.known d)
  | .tensor _ => .error .badValue
  | .list vs => do
    let fs ← fields [] 0 vs
    return .record (fs.map (·.1)) (fs.map (·.2))
  | .tuple [a, b] => do (← codedType a).paired b (codedType b)
  | _ => .error .wrongType

/-- The type of one field, from its name and its code, to which a shape may be added. -/
def field (k : Nat) : Value → Outcome (String × Option String × CodedType)
  | .tuple [name, type] => do
    let (name, title) ← fieldName k name
    return (name, title, ← (← codedType type).asField)
  | .tuple [name, type, shape] => do
    let (name, title) ← fieldName k name
    return (name, title, ← (← (← codedType type).paired shape (codedType shape)).asField)
  | _ => .error .wrongType

/-- The fields of a record, from the `k`-th on. No two have one name. -/
def fields (seen : List String) (k : Nat) : List Value → Outcome (List (String × CodedType))
  | [] => .ok []
  | v :: vs => do
    let (name, title, t) ← field k v
    let seen ← taken seen name title
    return (name, t) :: (← fields seen (k + 1) vs)

end

/-- The element type that a parameter asks for; nothing leaves the choice open. -/
def typeFor : Value → Outcome (Option CodedType)
  | .nothing => .ok none
  | v => some <$> codedType v

end Dataflow.Host
