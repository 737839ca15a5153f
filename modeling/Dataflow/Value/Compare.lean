import Dataflow.Number.Numeral
import Dataflow.Value.Nested

/-! Equality and order of values. Numbers compare by their numeric value; a scalar brings a number beside it to a
    type for both, and beside a sequence it is compared with every element, which settles the comparison only where
    there is a single one. -/

namespace Dataflow

namespace Value

/-- An integer that rounds to no finite double-precision number. -/
def isHuge (n : Int) : Bool :=
  match Floating.roundInt .double n with
  | .infinite _ => true
  | _ => false

/-- Two elements as numbers of the type for both of them. -/
def alignElements (a b : DType) (x y : Element) : Floating × Floating :=
  match (a.join b).storage, a.storage, b.storage with
  | .floating f, .floating _, _ | .floating f, _, .floating _ => (x.toFloating.round f, y.toFloating.round f)
  | _, _, _ => (x.toFloating, y.toFloating)

/-- A number as one beside a scalar: of the scalar's format if that has fractions, and a fraction takes the scalar
    to double precision. Beside a truth value an integer has to fit into a word. -/
def alignScalar (d : DType) (e : Element) : Value → Outcome (Option (Floating × Floating))
  | .scalar c x => .ok (some (alignElements d c e x))
  | .int n => match d.storage with
    | .floating f =>
      if isHuge n then .error .tooLarge else .ok (some (e.toFloating, (Floating.roundInt .double n).round f))
    | .boolean => if Storage.holds true 64 n then .ok (some (e.toFloating, .ofInt n)) else .error .tooLarge
    | _ => .ok (some (e.toFloating, .ofInt n))
  | .real y => match d.storage with
    | .floating f => .ok (some (e.toFloating, y.round f))
    | _ => .ok (some (e.toFloating.round .double, y))
  | .flag b => .ok (some (e.toFloating, .ofInt (if b then 1 else 0)))
  | _ => .ok none

/-- Two numbers as they are compared, if both values are numbers. -/
def align (a b : Value) : Outcome (Option (Floating × Floating)) :=
  match a, b with
  | .scalar d e, v => alignScalar d e v
  | v, .scalar d e => do return (← alignScalar d e v).map Prod.swap
  | a, b => .ok (do return (← a.number?, ← b.number?))

/-! ### Values that are no sequences -/

def equalAtoms (a b : Value) : Outcome Bool :=
  match a, b with
  | .nothing, .nothing => .ok true
  | .text s, .text t => .ok (s == t)
  | .bytes s, .bytes t => .ok (s == t)
  | a, b => do
    match ← align a b with
    | some (x, y) => return x.eq y
    | none => return false

/-- The order of numbers with numbers, of texts with texts and of bytes with bytes. -/
def lessAtoms (a b : Value) : Outcome Bool :=
  match a, b with
  | .text s, .text t => .ok (s < t)
  | .bytes s, .bytes t => .ok (s < t)
  | .scalar _ _, .text _ | .scalar _ _, .bytes _ | .text _, .scalar _ _ | .bytes _, .scalar _ _ => .error .mixedKinds
  | a, b => do
    match ← align a b with
    | some (x, y) => return x.lt y
    | none => throw .wrongType

/-! ### A scalar and a sequence -/

/-- The single member of a list of answers. -/
def single : List Bool → Outcome Bool
  | [b] => .ok b
  | _ => .error .badValue

/-- How a scalar compares with the elements of an array. Among objects it is a plain number. -/
def compareEach (numbers : Floating → Floating → Bool) (atoms : Value → Value → Outcome Bool)
    (texts : Outcome Bool) (d : DType) (e : Element) (ofNumber : Element → Value) (leaves : List Value) :
    Outcome (List Bool) :=
  match ArrayKind.ofLeaves leaves with
  | .object => leaves.mapM (atoms (ofNumber e))
  | .text => leaves.mapM fun _ => texts
  | .element c => .ok <| leaves.filterMap fun v => v.element?.map fun x =>
      let (a, b) := alignElements d c e (x.cast c)
      numbers a b

/-- A number as a plain value. A complex one goes by its text. -/
def ofElement : Element → Value
  | .flag b => .flag b
  | .whole n => .int n
  | .real x => .real x
  | .complex re im => .text (complexText re im)
  | .hidden => .nothing

/-- The nest of a sequence beside a scalar. -/
def leavesOf (v : Value) : Outcome (List Value) := do return (← Nest.ofArray v).leaves

def scalarEquals (d : DType) (e : Element) (v : Value) : Outcome Bool := do
  single (← compareEach Floating.eq equalAtoms (.ok false) d e ofElement (← leavesOf v))

def scalarLess (d : DType) (e : Element) (v : Value) : Outcome Bool := do
  single (← compareEach Floating.lt lessAtoms (.error .mixedKinds) d e ofElement (← leavesOf v))

def scalarGreater (d : DType) (e : Element) (v : Value) : Outcome Bool := do
  single (← compareEach (fun x y => y.lt x) (fun x y => lessAtoms y x) (.error .mixedKinds) d e ofElement
    (← leavesOf v))

/-! ### All values -/

mutual

/-- Equality: lists and tuples within their own kind, item by item. -/
def equals (a b : Value) : Outcome Bool :=
  match a, b with
  | .list as, .list bs => if as.length = bs.length then equalItems as bs else .ok false
  | .tuple as, .tuple bs => equalItems as bs
  | .scalar d e, .list vs => scalarEquals d e (.list vs)
  | .scalar d e, .tuple vs => scalarEquals d e (.tuple vs)
  | .list vs, .scalar d e => scalarEquals d e (.list vs)
  | .tuple vs, .scalar d e => scalarEquals d e (.tuple vs)
  | a, b => equalAtoms a b

/-- Equality item by item up to the first that differs, and then of the lengths. -/
def equalItems (as bs : List Value) : Outcome Bool :=
  match as, bs with
  | [], [] => .ok true
  | a :: as, b :: bs => do if ← equals a b then equalItems as bs else return false
  | _, _ => .ok false

end

mutual

/-- The order: lists with lists and tuples with tuples by the first item that differs. -/
def less (a b : Value) : Outcome Bool :=
  match a, b with
  | .list as, .list bs => lessItems as bs
  | .tuple as, .tuple bs => lessItems as bs
  | .scalar d e, .list vs => scalarLess d e (.list vs)
  | .scalar d e, .tuple vs => scalarLess d e (.tuple vs)
  | .list vs, .scalar d e => scalarGreater d e (.list vs)
  | .tuple vs, .scalar d e => scalarGreater d e (.tuple vs)
  | a, b => lessAtoms a b

def lessItems (as bs : List Value) : Outcome Bool :=
  match as, bs with
  | a :: as, b :: bs => do if ← equals a b then lessItems as bs else less a b
  | [], _ :: _ => .ok true
  | _, [] => .ok false

end

/-- Not below another number: greater or equal. -/
def atLeast (a b : Value) : Outcome Bool := do
  match ← align a b with
  | some (x, y) => return y.lt x || x.eq y
  | none => throw .wrongType

def isNegative (v : Value) : Outcome Bool := v.less (.int 0)

/-- The first of the greatest values of a nonempty list. -/
def greatest (v : Value) : List Value → Outcome Value
  | [] => .ok v
  | w :: ws => do greatest (if ← v.less w then w else v) ws

end Value

end Dataflow
