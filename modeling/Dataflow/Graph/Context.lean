import Dataflow.Graph.Frame
import Dataflow.Queue.Basic
import Dataflow.TensorArray.Batch

/-! The context of a graph run: the stack of frames, with the identifiers that are visible from it, and the tensor
    arrays and queues by number. Identifiers of frames are never used twice; the visible identifiers are kept up to
    date step by step, and are those of the stack as long as every stack has an identifier. -/

namespace Dataflow

structure Context where
  /-- The root first. -/
  frames : List Frame
  /-- The identifiers that are visible, the innermost first. -/
  ids : List String
  /-- The number of the latest frame. -/
  lastId : Nat
  arrays : List TensorArray
  queues : List Queue

namespace Context

def initial : Context := ⟨[.root], [""], 0, [], []⟩

/-- The innermost identifier. Moves that found no identifier may have left none. -/
def currentId (c : Context) : Outcome String :=
  match c.ids with
  | [] => .error .indexOutOfRange
  | id :: _ => .ok id

def currentFrame (c : Context) : Frame := c.frames.getLastD .root

/-- The number of loops around the current position. -/
def depth (c : Context) : Nat := c.frames.length - 1

/-! ### The stack of frames -/

def skipId (c : Context) : Context := { c with lastId := c.lastId + 1 }

def push (f : Frame) (c : Context) : Context := { c with frames := c.frames ++ [f] }

/-- Another frame in place of the innermost one. -/
def replaceCurrent (f : Frame) (c : Context) : Context := { c with frames := c.frames.dropLast ++ [f] }

def withFrames (frames : List Frame) (c : Context) : Context := { c with frames }

def withIds (ids : List String) (c : Context) : Context := { c with ids }

/-- The stack after the innermost loop is left. -/
def leave (c : Context) : Context := { c with frames := c.frames.dropLast, ids := c.ids.tail }

def frameLine (verb : String) (name : Value) (depth : Nat) : String :=
  verb ++ " frame " ++ name.written ++ " (depth " ++ toString depth ++ ")"

/-- A loop is entered, under a new frame number. -/
def enter (name : Value) : Action Context Unit := do
  modify skipId
  let c ← get
  modify (push (.entered c.lastId name))
  let id ← Frame.contextId (← get).frames
  modify (withIds (id :: c.ids))

def enterFrame (name : Value) : Action (Session × Context) Unit := do
  (enter name).onSecond
  (Session.record .context (.ok (frameLine "enter" name (← get).2.depth))).onFirst

def exitFrame : Action (Session × Context) Unit := do
  let c := (← get).2
  if c.frames.length ≤ 1 then throw (.refused .exitFromRoot)
  (modify leave : Action Context Unit).onSecond
  -- Moves that found no identifier may have left fewer identifiers than frames.
  if c.ids.isEmpty then throw .indexOutOfRange
  (Session.record .context (.ok (frameLine "exit" c.currentFrame.name (← get).2.depth))).onFirst

/-- The innermost loop goes on to its next iteration, under a new frame number. -/
def nextIteration : Action Context Unit := do
  if (← get).frames.length ≤ 1 then throw (.refused .iterationOfRoot)
  modify skipId
  let c ← get
  let f := c.currentFrame
  modify (replaceCurrent ⟨.int c.lastId, f.name, ← f.iteration.successor⟩)
  let id ← Frame.contextId (← get).frames
  if c.ids.isEmpty then throw .indexOutOfRange
  modify (withIds (id :: c.ids.tail))

/-- Assigns a stack of frames, which has to start at the root. -/
def setFrames (frames : List Frame) : Action Context Unit := do
  match frames with
  | [] => throw (.refused .rootMissing)
  | f :: _ =>
    if !(f == .root) then throw (.refused .rootMissing)
    if !(← Frame.sameStack frames (← get).frames) then
      modify (withFrames frames)
      modify (withIds (← Frame.visibleIds frames))

/-! ### Tensor arrays and queues -/

def registeredLine (text : String) : String := "registered " ++ text

/-- Adds a tensor array that is in no context yet, and answers with its number. -/
def addArray (a : TensorArray) : Action (Session × Context) Nat := do
  if a.id.isSome then throw (.premise .arrayUnregistered)
  let n := (← get).2.arrays.length
  let a := { a with id := some n }
  (modify fun c => { c with arrays := c.arrays ++ [a] } : Action Context Unit).onSecond
  (Session.record .context (.ok (registeredLine a.text))).onFirst
  return n

/-- Adds a queue that is in no context yet, and answers with its number. -/
def addQueue (q : Queue) : Action (Session × Context) Nat := do
  if q.id.isSome then throw (.premise .queueUnregistered)
  let n := (← get).2.queues.length
  let q := { q with id := some n }
  (modify fun c => { c with queues := c.queues ++ [q] } : Action Context Unit).onSecond
  (Session.record .context (.ok (registeredLine q.text))).onFirst
  return n

/-- The number below `n` that a value equals. -/
def numberBelow (n : Nat) (v : Value) : Option Nat := (List.range n).find? fun k => .int k == v

/-- The number of the tensor array that a value stands for. -/
def arrayNumber (c : Context) (v : Value) : Outcome Nat :=
  if !v.isKey then .error .wrongType
  else match numberBelow c.arrays.length v with
    | some k => .ok k
    | none => .error (.refused (.noSuchArray v))

def queueNumber (c : Context) (v : Value) : Outcome Nat :=
  if !v.isKey then .error .wrongType
  else match numberBelow c.queues.length v with
    | some k => .ok k
    | none => .error (.refused (.noSuchQueue v))

/-- An action on the tensor array of a number. -/
def onArray {α : Type} (k : Nat) (a : Action (Session × TensorArray) α) : Action (Session × Context) α
  | (s, c) => match c.arrays[k]? with
    | none => (.error (.refused (.noSuchArray (.int k))), s, c)
    | some t =>
      let (r, s, t) := a (s, t)
      (r, s, { c with arrays := c.arrays.set k t })

def onQueue {α : Type} (k : Nat) (a : Action (Session × Queue) α) : Action (Session × Context) α
  | (s, c) => match c.queues[k]? with
    | none => (.error (.refused (.noSuchQueue (.int k))), s, c)
    | some q =>
      let (r, s, q) := a (s, q)
      (r, s, { c with queues := c.queues.set k q })

end Context

end Dataflow
