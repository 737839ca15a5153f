import Dataflow.Number.Written
import Dataflow.Tensor.Basic
import Dataflow.Text.Quoted

/-! Values: what node attributes, operation arguments and literal types hold. They are dynamically typed, and
    numbers of every kind compare by their numeric value. -/

namespace Dataflow

inductive Value where
  | nothing
  | flag (b : Bool)
  | int (n : Int)
  | real (x : Floating)
  | text (s : String)
  | bytes (bs : List UInt8)
  | list (items : List Value)
  | tuple (items : List Value)
  | scalar (dtype : DType) (element : Element)
  | tensor (t : Tensor)

namespace Value

/-- The numeric value of a number of any kind; truth values count as zero and one. -/
def number? : Value → Option Floating
  | .flag b => some (.ofInt (if b then 1 else 0))
  | .int n => some (.ofInt n)
  | .real x => some x
  | .scalar _ e => some e.toFloating
  | _ => none

/-- What counts as true in a condition: numbers other than zero, nonempty texts and sequences, every tensor. -/
def truth : Value → Bool
  | .nothing => false
  | .flag b => b
  | .int n => n != 0
  | .real x => x.isNonzero
  | .text s => !s.isEmpty
  | .bytes bs => !bs.isEmpty
  | .list vs => !vs.isEmpty
  | .tuple vs => !vs.isEmpty
  | .scalar _ e => e.truth
  | .tensor _ => true

/-! ### Equality -/

mutual

/-- Equality of values: numbers by their numeric value, everything else within its own kind. A tensor has an
    identity of its own and equals no other. -/
def same : Value → Value → Bool
  | .nothing, .nothing => true
  | .text s, .text t => s == t
  | .bytes a, .bytes b => a == b
  | .list a, .list b => sameItems a b
  | .tuple a, .tuple b => sameItems a b
  | a, b => match a.number?, b.number? with
    | some x, some y => x.eq y
    | _, _ => false

def sameItems : List Value → List Value → Bool
  | [], [] => true
  | a :: as, b :: bs => same a b && sameItems as bs
  | _, _ => false

end

instance : BEq Value := ⟨same⟩

/-! ### Keys -/

/-- One and the same object, among the values that need not equal themselves: not-a-number and tensors. A value has no
    identity here besides what it is, so that there is one object of each. -/
def sameObject : Value → Value → Bool
  | .real x, .real y => x = y
  | .scalar c x, .scalar d y => c = d && x = y
  | .tensor x, .tensor y => x = y
  | _, _ => false

mutual

/-- Equality of keys: a key is found by an equal one, and by itself. -/
def sameKey : Value → Value → Bool
  | .list as, .list bs => sameKeys as bs
  | .tuple as, .tuple bs => sameKeys as bs
  | a, b => same a b || sameObject a b

def sameKeys : List Value → List Value → Bool
  | [], [] => true
  | a :: as, b :: bs => sameKey a b && sameKeys as bs
  | _, _ => false

end

mutual

/-- A value that can be a key: lists cannot, and no tuple that holds one. -/
def isKey : Value → Bool
  | .list _ => false
  | .tuple vs => areKeys vs
  | _ => true

def areKeys : List Value → Bool
  | [] => true
  | v :: vs => isKey v && areKeys vs

end

/-! ### Text -/

/-- The text of an element; floating-point numbers have the shortest digits of their own format. -/
def elementText (d : DType) : Element → String
  | .flag b => if b then "True" else "False"
  | .whole n => toString n
  | .real x => match d.storage with
    | .floating f => x.textAs f
    | _ => x.text
  | .complex re im => complexText re im
  | .hidden => "?"

/-- The class of the tensors of a device. -/
def tensorClass : Device → String
  | .host => "HostTensor"
  | .torch => "TorchTensor"

def tensorText (t : Tensor) : String :=
  tensorClass t.device ++ "([" ++ ", ".intercalate (t.data.map (elementText t.dtype)) ++
    "], shape=" ++ t.shape.format ++ ", dtype=" ++ t.dtype.name ++ ")"

def scalarText (d : DType) (e : Element) : String :=
  match d, e with
  | .bool, .flag b => if b then "np.True_" else "np.False_"
  | _, _ => "np." ++ d.name ++ "(" ++ elementText d e ++ ")"

mutual

/-- The written form of a value, with texts quoted. -/
def written : Value → String
  | .nothing => "None"
  | .flag b => if b then "True" else "False"
  | .int n => toString n
  | .real x => x.text
  | .text s => Text.quote s
  | .bytes bs => Text.quoteBytes bs
  | .list vs => "[" ++ ", ".intercalate (writtenItems vs) ++ "]"
  | .tuple vs => "(" ++ ", ".intercalate (writtenItems vs) ++ (if vs.length = 1 then ",)" else ")")
  | .scalar d e => scalarText d e
  | .tensor t => tensorText t

def writtenItems : List Value → List String
  | [] => []
  | v :: vs => written v :: writtenItems vs

end

/-- The plain form of a value: a text as it is, a scalar as an element of its type. -/
def shown : Value → String
  | .text s => s
  | .scalar d e => elementText d e
  | v => v.written

/-- The form of a value inside a message: its plain form, but a scalar with a fraction is written as the
    double-precision number that it equals. -/
def plain : Value → String
  | .scalar _ (.real x) => x.text
  | v => v.shown

end Value

end Dataflow
