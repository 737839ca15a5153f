import Dataflow.Example.Conditional

/-! The command line of the conditional: a line for each of its arguments. -/

namespace Dataflow.Main

/-- The settings that the environment gives. -/
def environment : IO (List (String × String)) := do
  let mut found := []
  for k in [Setting.device, Setting.flagDType, Setting.indexDType] do
    if let some v ← IO.getEnv k.variableName then
      found := (k.variableName, v) :: found
  return found

/-- Prints the lines for the arguments. -/
def run (args : List String) : IO UInt32 := do
  let (text, failure?) := Conditional.output (.initial (← environment) false false) args
  IO.print text
  match failure? with
  | none => return 0
  | some e =>
    IO.eprintln (e.message?.getD "no number can be read from the argument")
    return 1

end Dataflow.Main

def main (args : List String) : IO UInt32 := Dataflow.Main.run args
