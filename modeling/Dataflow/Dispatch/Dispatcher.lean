import Dataflow.Dispatch.Basic

/-! The dispatcher: a table to which implementations can be added, a cache of lookups, and the types made so far.
    A new implementation may shadow what is cached, so the cache is emptied when one is added. -/

namespace Dataflow

structure Dispatcher where
  session : Session
  table : Table
  cache : List (List TypeExpr × Implementation)
  types : TypeStore

namespace Dispatcher

/-- The dispatcher of a session, with the table of its backends or an empty one. -/
def initial (session : Session) (base : Bool) : Dispatcher :=
  ⟨session, if base then .builtin session.devices else [], [], .empty⟩

def onSession {α : Type} (a : Action Session α) : Action Dispatcher α :=
  a.on session fun s d => { d with session := s }

def onTypes {α : Type} (a : Action TypeStore α) : Action Dispatcher α :=
  a.on types fun s d => { d with types := s }

/-! ### Lookup -/

def cached? (d : Dispatcher) (types : List TypeExpr) : Option Implementation :=
  (d.cache.find? fun e => TypeExpr.sameAll e.1 types).map (·.2)

/-- The implementation for the given types: the cached one, or a fresh lookup whose result is cached. -/
def select (types : List TypeExpr) : Action Dispatcher Implementation := do
  let d ← get
  match d.cached? types with
  | some f => return f
  | none =>
    let f ← d.table.lookup types
    modify fun d => { d with cache := d.cache ++ [(types, f)] }
    return f

/-- A lookup that leaves the cache alone. -/
def lookup (types : List TypeExpr) : Action Dispatcher Implementation := do
  let ts ← onTypes (TypeStore.types types)
  (← get).table.lookup ts

/-! ### Dispatch -/

/-- The operand with the types of its stand-ins made. -/
def adopt : Operand → Action TypeStore Operand
  | .standIn t => do return .standIn (← TypeStore.type t)
  | .placed inner device => do return .placed (← adopt inner) device
  | o => return o

/-- The implementation for operands, whose types are made of those of their parts and have to be keys. -/
def selectMade (types : List TypeExpr) : Action Dispatcher Implementation := do
  if !TypeExpr.areKeys types then throw .wrongType
  let ts ← onTypes (TypeStore.types types)
  select ts

def means : Dispatch.Means Dispatcher :=
  ⟨selectMade, onSession (Session.setting .device), fun xs => onSession (Session.requireKnown xs)⟩

def dispatch (operands : List Operand) : Action Dispatcher Answer := do
  let os ← onTypes (operands.mapM adopt)
  Dispatch.run means Dispatch.redirectLimit os

/-! ### Registration -/

/-- An implementation that is not one of the library's own, by the annotations of its parameters. -/
structure Declaration where
  name : String
  args : List (Option TypeExpr)
  rest : Option TypeExpr
  /-- A parameter can only be given by its name. -/
  byName : Bool
  predicate : Option Predicate
  priority : Int

/-- The condition with the type that it asks for made. -/
def condition : Predicate → Action TypeStore Predicate
  | .argumentIs k t => do return .argumentIs k (← TypeStore.type t)
  | p => return p

def entry (c : Declaration) : Action TypeStore Entry := do
  let signature ← Signature.ofMade c.args c.rest c.byName
  let predicate ← c.predicate.mapM condition
  return ⟨signature, .named c.name, predicate, c.priority⟩

def add (e : Entry) : Action Dispatcher Unit := do
  onSession (Session.record .dispatch (.ok ("registering " ++ e.implementation.name ++ e.signature.text)))
  modify fun d => { d with table := d.table ++ [e], cache := [] }

def register (c : Declaration) : Action Dispatcher Entry := do
  let e ← onTypes (entry c)
  add e
  return e

end Dispatcher

end Dataflow
