import Dataflow.Failure

/-! Settings with a default. A setting is read from the environment when it is first needed and keeps its value
    from then on, whatever becomes of the environment. -/

namespace Dataflow

inductive Setting where
  | device
  | flagDType
  | indexDType
deriving DecidableEq

namespace Setting

/-- The environment variable of a setting. -/
def variableName : Setting → String
  | .device => "FLOWCTL_DEVICE"
  | .flagDType => "FLOWCTL_FLAG_DTYPE"
  | .indexDType => "FLOWCTL_INDEX_DTYPE"

/-- The value of a setting that the environment does not give. -/
def fallback : Setting → String
  | .device => "host"
  | .flagDType => "float32"
  | .indexDType => "int32"

end Setting

structure Config where
  environment : List (String × String)
  chosen : Setting → Option String

namespace Config

def initial (environment : List (String × String)) : Config := ⟨environment, fun _ => none⟩

def choose (k : Setting) (v : Option String) (c : Config) : Config :=
  { c with chosen := fun j => if j = k then v else c.chosen j }

/-- The value that a setting has, or would have if it were read now. -/
def value (c : Config) (k : Setting) : String :=
  (c.chosen k).getD ((c.environment.lookup k.variableName).getD k.fallback)

/-- The value of a setting, kept from now on. -/
def read (k : Setting) (c : Config) : String × Config :=
  (c.value k, c.choose k (some (c.value k)))

/-- Every setting is to be read anew. -/
def reset (c : Config) : Config := initial c.environment

def unsetVariable (name : String) (c : Config) : Config :=
  { c with environment := c.environment.filter (·.1 ≠ name) }

def setVariable (name value : String) (c : Config) : Config :=
  { c with environment := (name, value) :: (c.unsetVariable name).environment }

/-- A name that a variable can have and a text that can be its value: the environment keeps both as one text that ends
    at a null character, with an equals sign between them. -/
def checkVariable (name value : String) : Outcome Unit :=
  let isNull (c : Char) : Bool := c.toNat = 0
  if name.toList.any (fun c => isNull c || c = '=') || value.toList.any isNull then .error .badValue
  else if name.isEmpty then .error .refusedName
  else .ok ()

@[simp] theorem chosen_choose_self (k : Setting) (v : Option String) (c : Config) : (c.choose k v).chosen k = v := by
  simp [choose]

@[simp] theorem value_read (k j : Setting) (c : Config) : (c.read k).2.value j = c.value j := by
  by_cases h : j = k <;> simp [read, choose, value, h]

end Config

end Dataflow
