import Dataflow.Value.Basic

/-! Types of operation arguments: classes with single or multiple bases, applications of a generic class to
    arguments, literal types and unions. A union has two spellings; only the spelling `union` is taken apart by
    the matcher, the spelling `alternatives` is a type like any other. -/

namespace Dataflow

/-- A class of objects. Users of the library declare classes of their own. -/
inductive Class where
  | object | int | bool | text | real | tuple | nothing
  | dispatchable | operator | constant | empty | index | split | tie | stack | placed
  | array | tensor | hostTensor | torchTensor
  /-- The generic alias of the class of tuples. -/
  | tupleOf
  /-- The class that an unannotated parameter stands for; nothing belongs to it. -/
  | unannotated
  | declared (name : String)
  | derived (name : String) (base : Class)
deriving DecidableEq

/-- The class of the tensors of a device. -/
def Device.toClass : Device → Class
  | .host => .hostTensor
  | .torch => .torchTensor

namespace Class

def name : Class → String
  | .object => "object" | .int => "int" | .bool => "bool" | .text => "str" | .real => "float" | .tuple => "tuple"
  | .nothing => "NoneType"
  | .dispatchable => "Object" | .operator => "Operator" | .constant => "Constant" | .empty => "Empty"
  | .index => "Index" | .split => "Split" | .tie => "Tie" | .stack => "Stack" | .placed => "DeviceOperator"
  | .array => "Array" | .tensor => "Tensor" | .hostTensor => "HostTensor" | .torchTensor => "TorchTensor"
  | .tupleOf => "Tuple"
  | .unannotated => "_empty"
  | .declared n => n
  | .derived n _ => n

/-- The name of a class with its path, as a union of alternatives writes it. -/
def path : Class → String
  | .nothing => "None"
  | .dispatchable => "flowctl.core.object.Object"
  | .operator => "flowctl.core.operator.Operator"
  | .constant => "flowctl.operator.generate.Constant"
  | .empty => "flowctl.operator.generate.Empty"
  | .index => "flowctl.operator.index.Index"
  | .split => "flowctl.operator.index.Split"
  | .tie => "flowctl.operator.index.Tie"
  | .stack => "flowctl.operator.index.Stack"
  | .placed => "flowctl.core.device_operator.DeviceOperator"
  | .array => "flowctl.core.array.Array"
  | .tensor => "flowctl.core.tensor.Tensor"
  | .hostTensor => "flowctl.host.tensor.HostTensor"
  | .torchTensor => "flowctl.core.torch.TorchTensor"
  | .tupleOf => "typing.Tuple"
  | .unannotated => "inspect._empty"
  | .declared n => "__main__." ++ n
  | .derived n _ => "__main__." ++ n
  | c => c.name

def origin : Class → Class
  | .tupleOf => .tuple
  | c => c

/-- The classes above a class. -/
def ancestors : Class → List Class
  | .object => []
  | .bool => [.int, .object]
  | .operator => [.dispatchable, .object]
  | .constant | .empty | .index | .split | .tie | .stack | .placed => [.operator, .dispatchable, .object]
  | .tensor => [.array, .dispatchable, .object]
  | .hostTensor | .torchTensor => [.tensor, .array, .dispatchable, .object]
  | .derived _ b => b :: ancestors b
  | _ => [.object]

/-- A class can be applied to a number of arguments. -/
def takes (c : Class) (arguments : Nat) : Bool :=
  match c with
  | .tuple | .tupleOf => true
  | .placed => arguments = 2
  | .array | .declared _ | .derived _ _ => arguments = 1
  | _ => false

/-- Every object of the first class is one of the second. -/
def isSubclass (a b : Class) : Bool :=
  a = b || a.ancestors.contains b

/-- The class of a value. A double-precision scalar is a number like any other; the classes of the other scalars are
    none of these. -/
def ofValue? : Value → Option Class
  | .nothing => some .nothing
  | .flag _ => some .bool
  | .int _ => some .int
  | .real _ => some .real
  | .text _ => some .text
  | .tuple _ => some .tuple
  | .scalar .float64 _ => some .real
  | .tensor x => some x.device.toClass
  | _ => none

end Class

inductive TypeExpr where
  | named (c : Class)
  | apply (head : Class) (args : List TypeExpr)
  | literal (values : List Value)
  | union (members : List TypeExpr)
  | alternatives (members : List TypeExpr)

namespace TypeExpr

/-! ### Equality -/

/-- Two values are of one class, or scalars of one element type. -/
def sameKind : Value → Value → Bool
  | .scalar d _, .scalar e _ => d = e
  | .scalar _ _, _ | _, .scalar _ _ => false
  | a, b => Class.ofValue? a = Class.ofValue? b

/-- Literal values are equal when they are equal keys of one kind. -/
def sameLiteral (a b : Value) : Bool := a.sameKey b && sameKind a b

/-- Each list holds every member of the other. -/
def sameMembers {α : Type} (eq : α → α → Bool) (xs ys : List α) : Bool :=
  xs.all (fun x => ys.any (eq x)) && ys.all fun y => xs.any (eq y)

mutual

/-- Equality of types: literals and unions are sets, and a union equals its other spelling. -/
def same : TypeExpr → TypeExpr → Bool
  | .named c, .named d => c = d
  | .apply c as, .apply d bs => c = d && sameAll as bs
  | .literal vs, .literal ws => sameMembers sameLiteral vs ws
  | .union as, .union bs | .union as, .alternatives bs | .alternatives as, .union bs
  | .alternatives as, .alternatives bs => within as bs && bs.all (anySame as)
  | _, _ => false

def sameAll : List TypeExpr → List TypeExpr → Bool
  | [], [] => true
  | a :: as, b :: bs => same a b && sameAll as bs
  | _, _ => false

/-- Every member of the first list has an equal in the second. -/
def within : List TypeExpr → List TypeExpr → Bool
  | [], _ => true
  | a :: as, bs => bs.any (same a) && within as bs

/-- Some member of a list equals a type. -/
def anySame : List TypeExpr → TypeExpr → Bool
  | [], _ => false
  | a :: as, b => same a b || anySame as b

end

instance : BEq TypeExpr := ⟨same⟩

mutual

/-- A type that can be a key: one whose literal values can. -/
def isKey : TypeExpr → Bool
  | .named _ => true
  | .literal vs => vs.all Value.isKey
  | .apply _ ts | .union ts | .alternatives ts => areKeys ts

def areKeys : List TypeExpr → Bool
  | [] => true
  | t :: ts => isKey t && areKeys ts

end

/-! ### Construction -/

/-- A list without the later ones of equal members. -/
def distinct {α : Type} (eq : α → α → Bool) (xs : List α) : List α :=
  xs.foldl (fun seen x => if seen.any (eq · x) then seen else seen ++ [x]) []

/-- A literal type. Equal values are dropped, unless one of the values cannot be a key. -/
def literalOf (vs : List Value) : TypeExpr :=
  .literal (if vs.all Value.isKey then distinct sameLiteral vs else vs)

/-- The members that a type contributes to a union. -/
def members : TypeExpr → List TypeExpr
  | .union ms => ms
  | .alternatives ms => ms
  | t => [t]

/-- The union of several types by its members: nested unions are flattened, equal members dropped, and a single
    member stands for itself. -/
def flattened (spelling : List TypeExpr → TypeExpr) (ts : List TypeExpr) : TypeExpr :=
  match distinct same (ts.flatMap members) with
  | [t] => t
  | ms => spelling ms

/-- A type that can be joined with another one to alternatives. -/
def isPlain : TypeExpr → Bool
  | .named .tupleOf => false
  | .named _ | .apply .tuple _ | .alternatives _ => true
  | _ => false

/-! ### Text -/

/-- A class as an argument of a generic class. -/
def argumentPath : Class → String
  | .nothing => "NoneType"
  | c => c.path

/-- Arguments in brackets; that there are none is written out. -/
def bracketed (args : List String) : String :=
  "[" ++ (if args.isEmpty then "()" else ", ".intercalate args) ++ "]"

mutual

/-- A type in full. -/
def written : TypeExpr → String
  | .named c => argumentPath c
  | .apply c ts => c.path ++ bracketed (writtenAll ts)
  | .literal vs => "typing.Literal" ++ bracketed (vs.map Value.written)
  | .union [.named .nothing, t] => "typing.Optional" ++ bracketed [written t]
  | .union [t, .named .nothing] => "typing.Optional" ++ bracketed [written t]
  | .union ts => "typing.Union" ++ bracketed (writtenAll ts)
  | .alternatives ts => " | ".intercalate (writtenMembers ts)

def writtenAll : List TypeExpr → List String
  | [] => []
  | t :: ts => written t :: writtenAll ts

/-- The members of alternatives; the class of nothing goes by its value. -/
def writtenMembers : List TypeExpr → List String
  | [] => []
  | .named c :: ts => c.path :: writtenMembers ts
  | t :: ts => written t :: writtenMembers ts

end

/-- The name of a type, without its arguments. -/
def name : TypeExpr → String
  | .named c => c.name
  | .apply c _ => c.name
  | .literal _ => "Literal"
  | .union ms => if ms.length = 2 && ms.any (same (.named .nothing)) then "Optional" else "Union"
  | .alternatives ms => " | ".intercalate (writtenMembers ms)

/-- Types as a list in parentheses. -/
def names (ts : List TypeExpr) : String := "(" ++ ", ".intercalate (ts.map name) ++ ")"

end TypeExpr

end Dataflow
