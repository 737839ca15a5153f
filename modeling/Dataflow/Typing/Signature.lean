import Dataflow.Typing.Match

/-! Signatures of implementations: a list of patterns for every positional parameter and, where a function takes
    any number of further arguments, the patterns for each of these. -/

namespace Dataflow

structure Signature where
  args : List (List TypeExpr)
  rest : Option (List TypeExpr)

namespace Signature

/-- The patterns of an annotated parameter. -/
def patterns : TypeExpr → List TypeExpr
  | .union ms => ms
  | t => [t]

/-- The signature of a function from the annotations of its parameters. A parameter without an annotation matches
    nothing; one that can only be given by its name is not allowed. -/
def ofAnnotations (args : List (Option TypeExpr)) (rest : Option TypeExpr) (byName : Bool) : Outcome Signature :=
  if byName then .error (.premise .tacit)
  else .ok ⟨args.map fun a => patterns (a.getD (.named .unannotated)), rest.map patterns⟩

/-- The signature of annotations that stand for types to be made. -/
def ofMade (args : List (Option TypeExpr)) (rest : Option TypeExpr) (byName : Bool) : Action TypeStore Signature := do
  let args ← TypeStore.annotations args
  let rest ← rest.mapM TypeStore.type
  ofAnnotations args rest byName

def patternsText (ps : List TypeExpr) : String := " | ".intercalate (ps.map TypeExpr.name)

def text (s : Signature) : String :=
  let rest := match s.rest with
    | none => []
    | some ps => ["*" ++ patternsText ps]
  "(" ++ ", ".intercalate (s.args.map patternsText ++ rest) ++ ")"

/-- Every argument type against the patterns of its parameter, up to the first that fails. -/
def matchEach : List (List TypeExpr) → List TypeExpr → Outcome (Option (List TypeExpr))
  | ps :: pss, t :: ts => do
    match ← TypeExpr.matchFirst ps t with
    | none => return none
    | some m => return (← matchEach pss ts).map (m :: ·)
  | _, _ => .ok (some [])

/-- The patterns that the argument types match, in order, if the signature takes them. -/
def matchTypes (s : Signature) (types : List TypeExpr) : Outcome (Option (List TypeExpr)) :=
  let extra := types.length - s.args.length
  if types.length < s.args.length then .ok none
  else match s.rest with
    | none => if extra = 0 then matchEach s.args types else .ok none
    | some ps => matchEach (s.args ++ List.replicate extra ps) types

/-- The match of argument types that are yet to be made. -/
def matchMade (s : Signature) (types : List TypeExpr) : Action TypeStore (Option (List TypeExpr)) := do
  let ts ← TypeStore.types types
  s.matchTypes ts

end Signature

end Dataflow
