import Dataflow.Typing.Store

/-! Matching of argument types against patterns. A class matches its subclasses, a literal type its equals, a
    union what one of its members matches, and an applied generic the applications of the same class whose
    arguments match one by one. -/

namespace Dataflow

/-- What a type is an instance of, for the test of subclasses. -/
inductive Origin where
  | ofClass (c : Class)
  | ofAlternatives
  /-- Unions and literal types are not classes. -/
  | special
deriving DecidableEq

namespace TypeExpr

def origin : TypeExpr → Origin
  | .named c | .apply c _ => .ofClass c.origin
  | .alternatives _ => .ofAlternatives
  | .literal _ | .union _ => .special

/-- The arguments of a generic application, or the members of alternatives. -/
def arguments : TypeExpr → List TypeExpr
  | .apply _ as => as
  | .alternatives ms => ms
  | _ => []

/-- A literal value is an object of a class. -/
def holdsLiteral (o : Origin) (v : Value) : Bool :=
  match o, Class.ofValue? v with
  | .ofClass c, some d => d.isSubclass c
  | .ofClass c, none => c = .object
  | _, _ => false

/-- Subclasses among origins; the question makes no sense for what is not a class. -/
def isSubOrigin (arg pattern : Origin) : Outcome Bool :=
  match arg, pattern with
  | .special, _ | _, .special => .error .wrongType
  | .ofClass a, .ofClass p => .ok (a.isSubclass p)
  | .ofAlternatives, .ofAlternatives => .ok true
  | .ofAlternatives, .ofClass p => .ok (p = .object)
  | .ofClass _, .ofAlternatives => .ok false

/-- The match of a pattern that is neither a literal type nor a union, up to its arguments: `none` where it fails,
    otherwise whether the arguments still have to match. -/
def matchHead (pattern arg : TypeExpr) : Outcome (Option Bool) :=
  match arg with
  | .literal [] => .error .indexOutOfRange
  | .literal (v :: _) => .ok (if holdsLiteral pattern.origin v then some false else none)
  | _ => do
    if !(← isSubOrigin arg.origin pattern.origin) then return none
    if pattern.arguments.isEmpty then return some false
    if arg.origin ≠ pattern.origin ∨ arg.arguments.isEmpty then return none
    return some true

/-- Literal types are compared as sets, so that all of their values have to be keys. -/
def equalLiterals (vs ws : List Value) : Outcome Bool :=
  if (vs ++ ws).all Value.isKey then .ok (sameMembers sameLiteral vs ws) else .error .wrongType

mutual

/-- The question whether types are equal. The arguments of a class are compared one by one. -/
def equal (a b : TypeExpr) : Outcome Bool :=
  match a, b with
  | .literal vs, .literal ws => equalLiterals vs ws
  | .apply c as, .apply d bs => if c = d then equalAll as bs else .ok false
  | a, b => .ok (a == b)

/-- The question whether types are equal one by one, up to the first that are not. -/
def equalAll (as bs : List TypeExpr) : Outcome Bool :=
  match as, bs with
  | [], [] => .ok true
  | a :: as, b :: bs => do if ← equal a b then equalAll as bs else return false
  | _, _ => .ok false

end

mutual

/-- The pattern that an argument type matches: the pattern itself, or the first matching member of a union. -/
def matchPattern (pattern arg : TypeExpr) : Outcome (Option TypeExpr) :=
  match pattern with
  | .literal vs => match arg with
    | .literal ws => do return if ← equalLiterals vs ws then some (.literal vs) else none
    | _ => .ok none
  | .union ms => matchFirst ms arg
  | .named c => do
    return (← matchHead (.named c) arg).map fun _ => .named c
  | .apply c as => do
    match ← matchHead (.apply c as) arg with
    | none => return none
    | some false => return some (.apply c as)
    | some true => return if ← matchArguments as arg.arguments then some (.apply c as) else none
  | .alternatives ms => do
    match ← matchHead (.alternatives ms) arg with
    | none => return none
    | some false => return some (.alternatives ms)
    | some true => return if ← matchArguments ms arg.arguments then some (.alternatives ms) else none

/-- The first of several patterns that matches. -/
def matchFirst (patterns : List TypeExpr) (arg : TypeExpr) : Outcome (Option TypeExpr) :=
  match patterns with
  | [] => .ok none
  | p :: ps => do
    match ← matchPattern p arg with
    | some m => return some m
    | none => matchFirst ps arg

/-- Arguments matched one by one, up to the first that fails; running out of one list alone is a fault. -/
def matchArguments (patterns args : List TypeExpr) : Outcome Bool :=
  match patterns, args with
  | [], [] => .ok true
  | p :: ps, a :: as => do
    match ← matchPattern p a with
    | none => return false
    | some _ => matchArguments ps as
  | _, _ => .error .badValue

end

/-- The match of two expressions, after the types that they stand for are made: the pattern first. -/
def matchMade (pattern arg : TypeExpr) : Action TypeStore (Option TypeExpr) := do
  let p ← TypeStore.type pattern
  let a ← TypeStore.type arg
  matchPattern p a

end TypeExpr

end Dataflow
