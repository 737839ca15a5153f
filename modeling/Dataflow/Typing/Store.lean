import Dataflow.Action
import Dataflow.Typing.Recent

/-! The types that were made lately. An expression of a type is made into the type from its inside outwards, and
    where a type was made from equal parameters before and is not forgotten, it is taken again. As a union equals its
    other spelling, which of the two a type is made with depends on what was made first. -/

namespace Dataflow

/-- How types are made of others. -/
inductive Maker where
  | generic (head : Class)
  | union
deriving DecidableEq

/-- A maker and the parameters that a type is made of. -/
abbrev Making := Maker × List TypeExpr

/-- The types made lately: tuples, other applications of classes, unions and literal types are kept apart. -/
structure TypeStore where
  tuples : Recent Making TypeExpr
  generics : Recent Making TypeExpr
  unions : Recent Making TypeExpr
  literals : Recent (List Value) TypeExpr

namespace TypeStore

def empty : TypeStore := ⟨.empty, .empty, .empty, .empty⟩

/-- What was made lately by makers like a given one. -/
def recent (m : Maker) (s : TypeStore) : Recent Making TypeExpr :=
  match m with
  | .generic .tupleOf => s.tuples
  | .generic _ => s.generics
  | .union => s.unions

def withRecent (m : Maker) (r : Recent Making TypeExpr) (s : TypeStore) : TypeStore :=
  match m with
  | .generic .tupleOf => { s with tuples := r }
  | .generic _ => { s with generics := r }
  | .union => { s with unions := r }

def withLiterals (r : Recent (List Value) TypeExpr) (s : TypeStore) : TypeStore := { s with literals := r }

/-- A value that was made lately, or a new one. -/
def remembered {κ : Type} (part : TypeStore → Recent κ TypeExpr) (set : Recent κ TypeExpr → TypeStore → TypeStore)
    (isKey : κ → Bool) (k : κ) (build : Outcome TypeExpr) : Action TypeStore TypeExpr := do
  let r := part (← get)
  match r.find? isKey with
  | some t =>
    modify (set (r.touch isKey))
    return t
  | none =>
    let t ← build
    modify (set (r.put k t))
    return t

/-- A type made of parameters, or the one that was made of equal ones. Parameters that cannot be keys are not looked
    for. -/
def make (m : Maker) (params : List TypeExpr) (build : Outcome TypeExpr) : Action TypeStore TypeExpr := do
  if !TypeExpr.areKeys params then return ← build
  remembered (recent m) (withRecent m) (fun k => k.1 = m && TypeExpr.sameAll k.2 params) (m, params) build

/-- A class applied to arguments, of which it has to take as many. -/
def apply (c : Class) (args : List TypeExpr) : Action TypeStore TypeExpr := do
  if !c.takes args.length then throw .wrongType
  if c = .tuple then return .apply c args
  make (.generic c) args (.ok (.apply c args))

def union (ts : List TypeExpr) : Action TypeStore TypeExpr :=
  make .union ts <|
    if ts.isEmpty || !TypeExpr.areKeys ts then .error .wrongType else .ok (TypeExpr.flattened .union ts)

/-- Two types joined to alternatives, or to a union where one of them is not plain. -/
def join (a b : TypeExpr) : Action TypeStore TypeExpr :=
  if a.isPlain && b.isPlain then return TypeExpr.flattened .alternatives [a, b] else union [a, b]

/-- Several types joined one after the other. -/
def alternatives : List TypeExpr → Action TypeStore TypeExpr
  | [] => throw .wrongType
  | t :: ts => ts.foldlM join t

/-- The values of two literal types are equal one by one. -/
def sameLiterals : List Value → List Value → Bool
  | [], [] => true
  | v :: vs, w :: ws => TypeExpr.sameLiteral v w && sameLiterals vs ws
  | _, _ => false

def literal (vs : List Value) : Action TypeStore TypeExpr := do
  if !vs.all Value.isKey then return .literalOf vs
  remembered literals withLiterals (sameLiterals vs) vs (.ok (.literalOf vs))

mutual

/-- The type that an expression stands for. -/
def type : TypeExpr → Action TypeStore TypeExpr
  | .named c => return .named c
  | .literal vs => literal vs
  | .apply c ts => do apply c (← types ts)
  | .union ts => do union (← types ts)
  | .alternatives ts => do alternatives (← types ts)

def types : List TypeExpr → Action TypeStore (List TypeExpr)
  | [] => return []
  | t :: ts => do
    let u ← type t
    return u :: (← types ts)

end

/-- The types of annotations, some of which may be missing. -/
def annotations : List (Option TypeExpr) → Action TypeStore (List (Option TypeExpr))
  | [] => return []
  | none :: ts => do return none :: (← annotations ts)
  | some t :: ts => do
    let u ← type t
    return some u :: (← annotations ts)

end TypeStore

end Dataflow
