import Dataflow.Example.Conditional
import Dataflow.Proofs.Parameters

/-! While loops as graphs. A loop runs in a frame of its own, in which every pass is an iteration. A merge takes the tensor
    that the pass starts from, either the one that the frame was entered with or the one from the pass before; a switch
    hands it on to the body, or out of the loop. What the body makes of it is written to a tensor array as well. -/

namespace Dataflow

open Conditional (outputOf outputsOf)

/-- A while loop on tensors of one element type. -/
structure WhileLoop where
  /-- The name of the loop's frame. -/
  frame : String
  dtype : String
  start : Tensor
  /-- A tensor of which the first element says whether the loop goes on. -/
  condition : Tensor → Tensor
  body : Tensor → Tensor
  /-- The number of a pass as a tensor. -/
  counter : Nat → Tensor
  dtype_start : start.dtype.name = dtype
  dtype_body : ∀ x, x.dtype.name = dtype → (body x).dtype.name = dtype
  readable_condition : ∀ x, x.dtype.name = dtype → (condition x).readable = .ok ()

namespace WhileLoop

/-- The loop goes on from a tensor. -/
def goesOn (w : WhileLoop) (x : Tensor) : Bool := ((w.condition x).data.head?.map Element.truth).getD false

/-- The tensor after so many passes. -/
def after (w : WhileLoop) (k : Nat) : Tensor := Nat.repeat w.body k w.start

/-! ### Nodes -/

def arrayNode (w : WhileLoop) : Node where
  name := "acc"
  op := .text ControlOp.tensorArray.name
  inputs := ["size"]
  params := [("size", ⟨0, none, .number⟩)]
  attrs := [("dtype", .text w.dtype), ("dynamicSize", .flag true), ("clearAfterRead", .flag false)]

def enterNode (w : WhileLoop) : Node where
  name := "enter"
  op := .text ControlOp.enter.name
  inputs := ["start"]
  params := [("tensor", ⟨0, none, .tensor⟩)]
  attrs := [("frameName", .text w.frame)]

def mergeNode : Node where
  name := "merge"
  op := .text ControlOp.merge.name
  inputs := ["enter", "next"]
  params := []
  attrs := []

def condNode : Node where
  name := "cond"
  op := .text ControlOp.loopCond.name
  inputs := ["less"]
  params := [("pred", ⟨0, none, .tensor⟩)]
  attrs := []

def switchNode : Node where
  name := "switch"
  op := .text ControlOp.switch.name
  inputs := ["merge", "cond"]
  params := [("data", ⟨0, none, .tensor⟩), ("pred", ⟨1, none, .tensor⟩)]
  attrs := []

def writeNode : Node where
  name := "write"
  op := .text ControlOp.tensorArrayWrite.name
  inputs := ["acc", "index", "add"]
  params := [("tensorArrayId", ⟨0, none, .number⟩), ("index", ⟨1, none, .number⟩), ("tensor", ⟨2, none, .tensor⟩)]
  attrs := []

def nextNode : Node where
  name := "next"
  op := .text ControlOp.nextIteration.name
  inputs := ["add"]
  params := [("tensor", ⟨0, none, .tensor⟩)]
  attrs := []

def exitNode : Node where
  name := "exit"
  op := .text ControlOp.exit.name
  inputs := ["switch:0"]
  params := [("tensor", ⟨0, none, .tensor⟩)]
  attrs := []

/-! ### Passes -/

/-- The first half of a pass, up to the switch: the tensor for the body, if the loop goes on. -/
def toSwitch (w : WhileLoop) : Action Run (Option Tensor) := do
  let x ← outputOf mergeNode
  Run.store "less" [some (w.condition x)]
  let _ ← Run.visit condNode
  match ← outputsOf switchNode with
  | [_, whenTrue] => return whenTrue
  | _ => throw .badValue

/-- The second half of a pass: the body, up to the next iteration. -/
def throughBody (w : WhileLoop) (k : Nat) (x : Tensor) : Action Run Unit := do
  Run.store "add" [some (w.body x)]
  Run.store "index" [some (w.counter k)]
  let _ ← Run.visit writeNode
  let _ ← Run.visit nextNode

/-- Passes from a number on, until the loop goes on no more: how many there have been then. The limit is on the passes
    that are begun. -/
def passes (w : WhileLoop) : Nat → Nat → Action Run (Option Nat)
  | 0, _ => return none
  | limit + 1, k => do
    match ← w.toSwitch with
    | none => return some k
    | some x =>
      w.throughBody k x
      passes w limit (k + 1)

/-- The whole loop: how many times the body has run, and what comes out. -/
def drive (w : WhileLoop) (limit : Nat) : Action Run (Option (Nat × Tensor)) := do
  Run.put "start" [some w.start]
  Run.put "size" [some (.scalar .host .int32 (.whole 0))]
  let _ ← Run.visit w.arrayNode
  let _ ← Run.visit w.enterNode
  match ← w.passes limit 0 with
  | none => return none
  | some n => return some (n, ← outputOf exitNode)

end WhileLoop

end Dataflow
