import Dataflow.Action
import Dataflow.Backend.Host.TypeOf
import Dataflow.Config
import Dataflow.Value.Coercion

/-! The session that operations run in: the settings, the registered element types and the log. -/

namespace Dataflow

/-- What the numbers of an element type are read as. -/
inductive NumberClass where
  | real
  | int
  | bool
deriving DecidableEq

/-- What is known of an element type. Everything that can be a key can name one. -/
structure DTypeInfo where
  name : Value
  numbers : Option NumberClass
  size : Value

namespace DTypeInfo

def ofDType (d : DType) : DTypeInfo :=
  let numbers := match d.storage with
    | .boolean => some .bool
    | .integer _ _ => some .int
    | .floating _ => some .real
    | _ => none
  ⟨.text d.name, numbers, .int d.size⟩

/-- An element as a number of the class that its type is read as. -/
def valueOf (i : DTypeInfo) (e : Element) : Outcome Value :=
  match i.numbers, e with
  | none, _ => .error .wrongType
  | some .bool, e => .ok (.flag e.truth)
  | some _, .complex _ _ | some _, .hidden => .error .wrongType
  | some .int, e => do return .int (← (Value.ofElement e).wholePart)
  | some .real, e => .ok (.real e.toFloating)

end DTypeInfo

/-- The part of the library that a log entry comes from. -/
inductive LogSource where
  | dispatch
  | context
  | control
  | tensorArray
  | queue
deriving DecidableEq

structure LogEntry where
  source : LogSource
  text : String

structure Session where
  config : Config
  dtypes : List DTypeInfo
  /-- The torch backend is loaded. -/
  torch : Bool
  /-- Entries of the log are written. -/
  logs : Bool
  log : List LogEntry

namespace Session

/-- A session before anything is done in it. -/
def initial (environment : List (String × String)) (torch logs : Bool) : Session :=
  ⟨.initial environment, DType.standard.map .ofDType, torch, logs, []⟩

/-- The devices whose backends are loaded. -/
def devices (s : Session) : List Device := if s.torch then [.host, .torch] else [.host]

def logging (source : LogSource) (text : String) (s : Session) : Session :=
  { s with log := s.log ++ [⟨source, text⟩] }

def registeredDType? (s : Session) (name : Value) : Outcome (Option DTypeInfo) :=
  if name.isKey then .ok (s.dtypes.find? (·.name.same name)) else .error .wrongType

def dtypeInfo (name : Value) (s : Session) : Outcome DTypeInfo := do
  match ← s.registeredDType? name with
  | some i => return i
  | none => throw (.refused (.unknownDType name))

end Session

/-- The element type that is expected, unless anything is allowed. -/
def checkDType (expected actual : Value) (what : String) : Outcome Unit :=
  match expected with
  | .nothing => .ok ()
  | e => do if ← e.equals actual then return () else throw (.refused (.dtypeMismatch what e actual))

/-- The element type and shape of a value that has them: of a tensor, or of a scalar as one of rank zero. -/
def Value.elementType : Value → Outcome (DType × Shape)
  | .tensor t => .ok (t.dtype, t.shape)
  | .scalar d _ => .ok (d, [])
  | _ => .error .missingMember

/-- A value has the element type that is expected, by its name; that of a scalar is known by its codes as well. The
    answer is the shape. -/
def checkElementType (expected x : Value) (what : String) : Outcome Shape := do
  let (d, s) ← x.elementType
  match x, Host.codedType expected with
  | .scalar _ _, .ok (.element e false) => if e = d then return s
  | _, _ => pure ()
  checkDType expected (.text d.name) what
  return s

namespace Session

/-! ### Actions -/

/-- Writes an entry of the log. An entry whose text cannot be written is a fault, but only where there is a log. -/
def record (source : LogSource) (text : Outcome String) : Action Session Unit := do
  if (← get).logs then modify (logging source (← text))

/-- One more entry of the log, if there is one. -/
def recorded (source : LogSource) (text : String) (s : Session) : Session :=
  if s.logs then s.logging source text else s

theorem record_ok (source : LogSource) (text : String) (s : Session) :
    record source (.ok text) s = (.ok (), s.recorded source text) := by
  unfold record recorded
  rw [Action.bind_ok (Action.get_apply s)]
  by_cases h : s.logs = true
  · rw [if_pos h, if_pos h]
    rfl
  · rw [if_neg h, if_neg h]
    rfl

/-- The value of a setting, kept from now on. -/
def setting (k : Setting) : Action Session String :=
  modifyGet fun s =>
    let (v, c) := s.config.read k
    (v, { s with config := c })

def requireDType (name : Value) : Action Session DTypeInfo := do (← get).dtypeInfo name

/-- The element types of tensors have to be registered. -/
def requireKnown (xs : List Tensor) : Action Session Unit :=
  xs.forM fun x => do let _ ← requireDType (.text x.dtype.name)

def registerDType (i : DTypeInfo) : Action Session Unit := do
  if (← ((← get).registeredDType? i.name : Outcome _)).isSome then throw (.premise .tacit)
  modify fun s => { s with dtypes := s.dtypes ++ [i] }

end Session

end Dataflow
