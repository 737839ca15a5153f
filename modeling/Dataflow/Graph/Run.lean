import Dataflow.Graph.Visit

/-! Runs of a graph: visits whose outputs are stored for the visits after them. -/

namespace Dataflow

structure Run where
  session : Session
  context : Context
  values : Values

namespace Run

def initial (session : Session) : Run := ⟨session, .initial, []⟩

/-- An action in the context of a run. -/
def inContext {α : Type} (a : Action (Session × Context) α) : Action Run α :=
  a.on (fun r => (r.session, r.context)) fun p r => { r with session := p.1, context := p.2 }

def inSession {α : Type} (a : Action Session α) : Action Run α :=
  a.on session fun s r => { r with session := s }

def put (key : String) (outputs : Outputs) : Action Run Unit :=
  modify fun r => { r with values := r.values.put key outputs }

def store (node : String) (outputs : Outputs) : Action Run Unit := do
  put (Edge.key node (← (← get).context.currentId)) outputs

/-- A visit of a node; its outputs are stored in the context as it is after the visit. -/
def visit (n : Node) : Action Run (Option Outputs) := do
  let outputs ← inContext (n.visit (← get).values)
  match outputs with
  | some o => store n.name o
  | none => pure ()
  return outputs

def lookup (edge : String) : Action Run (Option Tensor) := do
  let r ← get
  r.values.get r.context.ids edge

def param (n : Node) (name : String) : Action Run Value := do
  let r ← get
  n.param r.values r.context.ids name

end Run

end Dataflow
