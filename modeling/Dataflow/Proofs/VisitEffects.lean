import Dataflow.Proofs.Objects
import Dataflow.Queue.Method
import Dataflow.TensorArray.Method

/-! The parts of a run that the operations touch. A visit leaves the values alone; of the context it touches the stack of
    frames, or the objects that are registered, or one object, or nothing, as its operation says. So no object is ever
    taken out of a context, and the objects are numbered as they came. -/

namespace Dataflow

/-! ### Parameters that are tensors -/

namespace Node

variable {n : Node} {values : Values} {ids : List String} {name : String} {v : Value}

/-- The parameters that operations take tensors from are inputs of type tensor, as far as the node has them. -/
def DeclaresTensors (n : Node) : Prop :=
  ∀ name ∈ ["tensor", "data", "pred"],
    (∃ p, n.params.lookup name = some p ∧ p.type = .tensor) ∨
      n.params.lookup name = none ∧ n.attrs.lookup name = none

theorem DeclaresTensors.eq_tensor (h : n.DeclaresTensors) (hname : name ∈ ["tensor", "data", "pred"])
    (hv : n.required values ids name = .ok v) : ∃ x, v = .tensor x := by
  obtain ⟨w, hw, hv⟩ := Outcome.bind_eq_ok.mp hv
  have hcases : w = .nothing ∨ ∃ x, w = .tensor x := by
    rw [param] at hw
    rcases h name hname with ⟨p, hp, htype⟩ | ⟨hp, hattr⟩
    · simp only [hp, htype] at hw
      obtain ⟨edge, -, hw⟩ := Outcome.bind_eq_ok.mp hw
      obtain ⟨x, -, hw⟩ := Outcome.bind_eq_ok.mp hw
      cases x with
      | none => exact Or.inl (Except.ok.inj hw).symm
      | some x => exact Or.inr ⟨x, (Except.ok.inj hw).symm⟩
    · simp only [hp, hattr, Option.getD_none] at hw
      exact Or.inl (Except.ok.inj hw).symm
  rcases hcases with rfl | ⟨x, rfl⟩
  · cases hv
  · exact ⟨x, (Except.ok.inj hv).symm⟩

end Node

/-! ### Moves of the stack -/

namespace Context

variable {c : Context}

/-- What a move of the stack leaves that fails after it has begun. -/
inductive Interrupted (c : Context) : ControlOp → Failure → Context → Prop
  /-- The stack with the new frame has no identifier. -/
  | enter {name : Value} {e : Failure} (hid : Frame.contextId (c.entering name) = .error e) :
      Interrupted c .enter e (c.renewed (c.entering name))
  /-- The identifiers have run out before the frames. -/
  | exit (hloop : 1 < c.frames.length) (hids : c.ids = []) : Interrupted c .exit .indexOutOfRange c.leave
  /-- Nothing can be added to the number of the iteration. -/
  | uncounted {e : Failure} (hloop : 1 < c.frames.length) (hk : c.currentFrame.iteration.successor = .error e) :
      Interrupted c .nextIteration e c.skipId
  | unwritten {k : Value} {e : Failure} (hloop : 1 < c.frames.length)
      (hk : c.currentFrame.iteration.successor = .ok k) (hid : Frame.contextId (c.continuing k) = .error e) :
      Interrupted c .nextIteration e (c.renewed (c.continuing k))
  | unlisted {k : Value} {id : String} (hloop : 1 < c.frames.length)
      (hk : c.currentFrame.iteration.successor = .ok k) (hid : Frame.contextId (c.continuing k) = .ok id)
      (hids : c.ids = []) : Interrupted c .nextIteration .indexOutOfRange (c.renewed (c.continuing k))

theorem enterFrame_error_cases {name : Value} {s : Session} {e : Failure} (h : (enterFrame name (s, c)).1 = .error e) :
    c.Interrupted .enter e (enterFrame name (s, c)).2.2 := by
  rw [enterFrame_apply] at h ⊢
  cases hid : Frame.contextId (c.entering name) with
  | ok id =>
    rw [hid] at h
    cases h
  | error e' =>
    rw [hid] at h
    cases h
    exact .enter hid

theorem exitFrame_error_cases {s : Session} {e : Failure} (h : (exitFrame (s, c)).1 = .error e) :
    (exitFrame (s, c)).2.2 = c ∨ c.Interrupted .exit e (exitFrame (s, c)).2.2 := by
  rw [exitFrame_apply] at h ⊢
  by_cases hloop : c.frames.length ≤ 1
  · rw [if_pos hloop]
    exact Or.inl rfl
  rw [if_neg hloop] at h ⊢
  by_cases hids : c.ids = []
  · rw [if_pos hids] at h ⊢
    cases h
    exact Or.inr (.exit (Nat.lt_of_not_le hloop) hids)
  · rw [if_neg hids] at h
    cases h

theorem nextIteration_error_cases {e : Failure} (h : (nextIteration c).1 = .error e) :
    (nextIteration c).2 = c ∨ c.Interrupted .nextIteration e (nextIteration c).2 := by
  rw [nextIteration_apply] at h ⊢
  by_cases hloop : c.frames.length ≤ 1
  · rw [if_pos hloop]
    exact Or.inl rfl
  rw [if_neg hloop] at h ⊢
  have hloop := Nat.lt_of_not_le hloop
  cases hk : c.currentFrame.iteration.successor with
  | error e' =>
    rw [hk] at h
    cases h
    exact Or.inr (.uncounted hloop hk)
  | ok k =>
    cases hid : Frame.contextId (c.continuing k) with
    | error e' =>
      simp only [hk, hid] at h ⊢
      cases h
      exact Or.inr (.unwritten hloop hk hid)
    | ok id =>
      by_cases hids : c.ids = []
      · simp only [hk, hid, if_pos hids] at h ⊢
        cases h
        exact Or.inr (.unlisted hloop hk hid hids)
      · simp only [hk, hid, if_neg hids] at h
        cases h

theorem objects_enterFrame (name : Value) (s : Session) (c : Context) :
    (enterFrame name (s, c)).2.2.arrays = c.arrays ∧ (enterFrame name (s, c)).2.2.queues = c.queues := by
  rw [enterFrame_apply]
  cases Frame.contextId (c.entering name) <;> exact ⟨rfl, rfl⟩

theorem objects_exitFrame (s : Session) (c : Context) :
    (exitFrame (s, c)).2.2.arrays = c.arrays ∧ (exitFrame (s, c)).2.2.queues = c.queues := by
  rw [exitFrame_apply]
  split
  · exact ⟨rfl, rfl⟩
  · split <;> exact ⟨rfl, rfl⟩

theorem objects_nextIteration (c : Context) :
    (nextIteration c).2.arrays = c.arrays ∧ (nextIteration c).2.queues = c.queues := by
  rw [nextIteration_apply]
  split
  · exact ⟨rfl, rfl⟩
  cases c.currentFrame.iteration.successor with
  | error e => exact ⟨rfl, rfl⟩
  | ok k =>
    cases hid : Frame.contextId (c.continuing k) with
    | error e => simp only [hid]; exact ⟨rfl, rfl⟩
    | ok id => simp only [hid]; split <;> exact ⟨rfl, rfl⟩

theorem objects_setFrames (frames : List Frame) (c : Context) :
    (setFrames frames c).2.arrays = c.arrays ∧ (setFrames frames c).2.queues = c.queues := by
  rw [setFrames_apply]
  split
  · exact ⟨rfl, rfl⟩
  rcases Frame.sameStack frames c.frames with e | _ | _
  · exact ⟨rfl, rfl⟩
  · cases Frame.visibleIds frames <;> exact ⟨rfl, rfl⟩
  · exact ⟨rfl, rfl⟩

/-- What a visit does that is to move the stack: the objects stay, and so does everything where it fails, unless the
    move was interrupted. -/
structure Moves (c : Context) (op : ControlOp) (declares : Prop) (answer : Outcome (Option Outputs)) (d : Context) :
    Prop where
  arrays : d.arrays = c.arrays
  queues : d.queues = c.queues
  failed : declares → ∀ e, answer = .error e → d = c ∨ c.Interrupted op e d

theorem Moves.self (op : ControlOp) (declares : Prop) (answer : Outcome (Option Outputs)) (c : Context) :
    c.Moves op declares answer c := ⟨rfl, rfl, fun _ _ _ => Or.inl rfl⟩

end Context

namespace Visit

variable {n : Node} {values : Values} {s : Session} {c : Context}

/-- A move of the stack between the tensor that a node takes and the same tensor as its output. -/
theorem moves_move {op : ControlOp} {move : Action (Session × Context) Unit} {s : Session} {c : Context} {v : Value}
    {declares : Prop} (hdeclares : declares → ∃ x, v = .tensor x)
    (hobjects : (move (s, c)).2.2.arrays = c.arrays ∧ (move (s, c)).2.2.queues = c.queues)
    (herror : ∀ e, (move (s, c)).1 = .error e → (move (s, c)).2.2 = c ∨ c.Interrupted op e (move (s, c)).2.2) :
    let moved : Action (Session × Context) (Option Outputs) := do move; return tensorOutputs [← v.toTensor]
    c.Moves op declares (moved (s, c)).1 (moved (s, c)).2.2 := by
  intro moved
  have hmoved : moved (s, c) = match move (s, c) with
      | (.ok (), p) => ((fun x => tensorOutputs [x]) <$> v.toTensor, p)
      | (.error e, p) => (.error e, p) := by
    simp only [moved, Action.bind_apply]
    rcases move (s, c) with ⟨e | ⟨⟩, p⟩
    · rfl
    · simp only [Action.lift_apply]
      cases v.toTensor <;> rfl
  rw [hmoved]
  rcases hmove : move (s, c) with ⟨e | ⟨⟩, t, d⟩
  · rw [hmove] at hobjects herror
    refine ⟨hobjects.1, hobjects.2, fun _ e' he => ?_⟩
    cases he
    exact herror e rfl
  · rw [hmove] at hobjects
    refine ⟨hobjects.1, hobjects.2, fun hd e he => ?_⟩
    obtain ⟨x, rfl⟩ := hdeclares hd
    cases he

theorem moves_enter (n : Node) (values : Values) (s : Session) (c : Context) :
    c.Moves .enter n.DeclaresTensors (enter n values (s, c)).1 (enter n values (s, c)).2.2 := by
  unfold enter
  rw [Action.bind_apply, reading_apply]
  cases n.param values c.ids "frameName" with
  | error e => exact .self _ _ _ c
  | ok name =>
    dsimp only
    rw [Action.bind_apply, reading_apply]
    cases hv : n.required values c.ids "tensor" with
    | error e => exact .self _ _ _ c
    | ok v =>
      exact moves_move (fun hn => hn.eq_tensor (by simp) hv) (Context.objects_enterFrame name s c) fun e he =>
        Or.inr (Context.enterFrame_error_cases he)

theorem moves_exit (n : Node) (values : Values) (s : Session) (c : Context) :
    c.Moves .exit n.DeclaresTensors (exit n values (s, c)).1 (exit n values (s, c)).2.2 := by
  unfold exit
  rw [Action.bind_apply, reading_apply]
  cases hv : n.required values c.ids "tensor" with
  | error e => exact .self _ _ _ c
  | ok v =>
    exact moves_move (fun hn => hn.eq_tensor (by simp) hv) (Context.objects_exitFrame s c) fun e he =>
      Context.exitFrame_error_cases he

theorem moves_nextIteration (n : Node) (values : Values) (s : Session) (c : Context) :
    c.Moves .nextIteration n.DeclaresTensors (nextIteration n values (s, c)).1 (nextIteration n values (s, c)).2.2 := by
  unfold nextIteration
  rw [Action.bind_apply, reading_apply]
  cases hv : n.required values c.ids "tensor" with
  | error e => exact .self _ _ _ c
  | ok v =>
    exact moves_move (fun hn => hn.eq_tensor (by simp) hv) (Context.objects_nextIteration c) fun e he =>
      Context.nextIteration_error_cases he

end Visit

/-! ### New objects -/

namespace Context

variable {c d e : Context}

/-- A queue under its number. -/
def numberedQueue (k : Nat) (q : Queue) : Queue := { q with id := some k }

/-- At most one tensor array is new, under the next number. -/
def GainsArray (c d : Context) : Prop := d = c ∨ ∃ a, d = c.withArrays (c.arrays ++ [numbered c.arrays.length a])

def GainsQueue (c d : Context) : Prop :=
  d = c ∨ ∃ q, d = c.withQueues (c.queues ++ [numberedQueue c.queues.length q])

theorem addQueue_eq {q : Queue} (hq : q.id = none) (s : Session) (c : Context) :
    addQueue q (s, c) =
      (.ok c.queues.length, s.recorded .context (registeredLine (numberedQueue c.queues.length q).text),
        c.withQueues (c.queues ++ [numberedQueue c.queues.length q])) := by
  simp only [addQueue, hq, Option.isSome_none, Bool.false_eq_true, if_false, Action.bind_apply, Action.pure_apply,
    Action.get_apply, Action.onSecond_apply, Action.modify_apply, Action.onFirst_apply, Session.record_ok]
  rfl

theorem addArray_registered {a : TensorArray} {k : Nat} (ha : a.id = some k) (p : Session × Context) :
    addArray a p = (.error (.premise .arrayUnregistered), p) := by
  simp [addArray, ha]

theorem addQueue_registered {q : Queue} {k : Nat} (hq : q.id = some k) (p : Session × Context) :
    addQueue q p = (.error (.premise .queueUnregistered), p) := by
  simp [addQueue, hq]

theorem gains_addArray (a : TensorArray) (s : Session) (c : Context) : c.GainsArray (addArray a (s, c)).2.2 := by
  cases ha : a.id with
  | none =>
    rw [addArray_eq ha]
    exact Or.inr ⟨a, rfl⟩
  | some k =>
    rw [addArray_registered ha]
    exact Or.inl rfl

theorem gains_addQueue (q : Queue) (s : Session) (c : Context) : c.GainsQueue (addQueue q (s, c)).2.2 := by
  cases hq : q.id with
  | none =>
    rw [addQueue_eq hq]
    exact Or.inr ⟨q, rfl⟩
  | some k =>
    rw [addQueue_registered hq]
    exact Or.inl rfl

end Context

namespace Visit

variable {n : Node} {values : Values} {s : Session} {c : Context}

theorem leads_bind {α β : Type} {part : Action (Session × Context) α} {f : α → Action (Session × Context) β}
    {R : Context → Prop} (hpart : (part (s, c)).2 = (s, c)) (hc : R c) (hf : ∀ x, R (f x (s, c)).2.2) :
    R ((part >>= f) (s, c)).2.2 := by
  rw [Action.bind_apply]
  rcases hp : part (s, c) with ⟨e | x, q⟩
  · rw [hp] at hpart
    obtain rfl : q = (s, c) := hpart
    exact hc
  · rw [hp] at hpart
    obtain rfl : q = (s, c) := hpart
    exact hf x

theorem confined_handle (k : Nat) : (handle k).Confined (Context.footprint none).inSession :=
  .bind (.onFirst (Session.confined_indexScalar _ _ _)) fun _ => .bind (.onFirst (Session.confined_flag _)) fun _ =>
    .pure _

/-- The context after an object has been registered, whether or not its number and a flag can be made. -/
theorem context_handle {add : Action (Session × Context) Nat} (s : Session) (c : Context) :
    ((add >>= handle) (s, c)).2.2 = (add (s, c)).2.2 := by
  rw [Action.bind_apply]
  rcases add (s, c) with ⟨e | k, t, d⟩
  · rfl
  · exact ((confined_handle k).keeps (t, d)).2.eq_of_none

theorem gains_tensorArray (n : Node) (values : Values) (s : Session) (c : Context) :
    c.GainsArray (tensorArray n values (s, c)).2.2 := by
  have hself : c.GainsArray c := Or.inl rfl
  refine leads_bind rfl hself fun name => leads_bind rfl hself fun dtype => leads_bind rfl hself fun size =>
    leads_bind rfl hself fun shape => leads_bind rfl hself fun identical => leads_bind rfl hself fun dynamicSize =>
    leads_bind rfl hself fun clearAfterRead => leads_bind rfl hself fun p => leads_bind rfl hself fun a => ?_
  rw [context_handle]
  exact Context.gains_addArray a s c

theorem gains_fifoQueue (n : Node) (values : Values) (s : Session) (c : Context) :
    c.GainsQueue (fifoQueue n values (s, c)).2.2 := by
  have hself : c.GainsQueue c := Or.inl rfl
  refine leads_bind rfl hself fun dtypes => leads_bind rfl hself fun shapes => leads_bind rfl hself fun capacity =>
    leads_bind rfl hself fun name => leads_bind rfl hself fun container => leads_bind rfl hself fun p =>
    leads_bind rfl hself fun q => ?_
  rw [context_handle]
  exact Context.gains_addQueue q s c

end Visit

/-! ### What a visit touches -/

namespace Node

/-- What a visit of a node may do to a context, by its operation. -/
def Affects (n : Node) (values : Values) (c : Context) (answer : Outcome (Option Outputs)) (d : Context) : Prop :=
  match n.controlOp? with
  | none | some .loopCond | some .switch | some .merge => d = c
  | some .enter => c.Moves .enter n.DeclaresTensors answer d
  | some .exit => c.Moves .exit n.DeclaresTensors answer d
  | some .nextIteration => c.Moves .nextIteration n.DeclaresTensors answer d
  | some .tensorArray => c.GainsArray d
  | some .fifoQueue => c.GainsQueue d
  | some _ => c.Touched (n.object? values c) d

theorem affects_visit (n : Node) (values : Values) (s : Session) (c : Context) :
    n.Affects values c (n.visit values (s, c)).1 (n.visit values (s, c)).2.2 := by
  by_cases hlocal : n.Local
  · obtain ⟨-, htouched⟩ := touched_visit hlocal values s c
    unfold Affects
    cases hop : n.controlOp? with
    | none => exact Context.Touched.eq_of_none (by simpa only [object?, hop] using htouched)
    | some op =>
      cases op with
      | loopCond | switch | merge => exact Context.Touched.eq_of_none (by simpa only [object?, hop] using htouched)
      | enter | exit | nextIteration | tensorArray | fifoQueue =>
        exact absurd hop (hlocal _ (by simp [ControlOp.structural]))
      | _ => exact htouched
  · simp only [Local, not_forall, not_not] at hlocal
    obtain ⟨op, hstructural, hop⟩ := hlocal
    unfold Affects
    rw [visit_eq hop, hop]
    simp only [ControlOp.structural, List.mem_cons, List.not_mem_nil, or_false] at hstructural
    rcases hstructural with rfl | rfl | rfl | rfl | rfl
    · exact Visit.moves_enter n values s c
    · exact Visit.moves_exit n values s c
    · exact Visit.moves_nextIteration n values s c
    · exact Visit.gains_tensorArray n values s c
    · exact Visit.gains_fifoQueue n values s c

end Node

/-! ### Runs -/

theorem TensorArray.confined_call (m : Method) (args : List Value) : (call m args).Confined footprint.inSession := by
  refine .bind (.lift _) fun bound => ?_
  unfold invoke
  split
  · exact .bind (.onSecond confined_openSize) fun _ => .pure _
  · exact .bind_object (fun _ => .pure _) fun p q h => by rw [h]
  · exact .bind confined_clearAndClose fun _ => .pure _
  · exact .bind (.onSecond (confined_read _)) fun _ => .pure _
  · exact .bind (.onSecond (confined_readMany _)) fun _ => .pure _
  · exact .bind (.onSecond (confined_write _ _)) fun _ => .pure _
  · exact .bind (.onSecond (confined_writeMany _ _)) fun _ => .pure _
  · exact .bind (confined_gather _ _) fun _ => .pure _
  · exact .bind (.onSecond (confined_scatter _ _)) fun _ => .pure _
  · exact .bind (confined_concat _) fun _ => .pure _
  · exact .bind (.onSecond (confined_split _ _)) fun _ => .pure _
  · exact .throw _

theorem Queue.confined_call (m : Method) (args : List Value) : (call m args).Confined footprint.inSession := by
  refine .bind_object (fun p => ?_) fun p q h => by rw [h]
  cases m with
  | enqueue => exact .bind (.onSecond (confined_enqueue args)) fun _ => .pure _
  | dequeueUpTo =>
    refine .bind (.lift _) fun bound => ?_
    split
    · exact .bind (confined_dequeueUpTo _ _) fun _ => .pure _
    · exact .throw _
  | bounded => exact .bind (.lift _) fun _ => .pure _
  | _ => exact .pure _

/-- The operations on a context and on the objects that are registered in it. -/
inductive ContextUse where
  | visit (n : Node) (values : Values)
  | enterFrame (name : Value)
  | exitFrame
  | nextIteration
  | setFrames (frames : List Frame)
  | addArray (a : TensorArray)
  | addQueue (q : Queue)
  | callArray (k : Nat) (m : TensorArray.Method) (args : List Value)
  | callQueue (k : Nat) (m : Queue.Method) (args : List Value)

namespace ContextUse

/-- What a use leaves, whether it fails or not. -/
def after : ContextUse → Session × Context → Session × Context
  | visit n values, p => (n.visit values p).2
  | enterFrame name, p => (Context.enterFrame name p).2
  | exitFrame, p => (Context.exitFrame p).2
  | nextIteration, p => (Context.nextIteration.onSecond p).2
  | setFrames frames, p => ((Context.setFrames frames).onSecond p).2
  | addArray a, p => (Context.addArray a p).2
  | addQueue q, p => (Context.addQueue q p).2
  | callArray k m args, p => (Context.onArray k (TensorArray.call m args) p).2
  | callQueue k m args, p => (Context.onQueue k (Queue.call m args) p).2

/-- The state after a run from an empty context. -/
def run (s : Session) (uses : List ContextUse) : Session × Context :=
  uses.foldl (fun p u => u.after p) (s, .initial)

end ContextUse

namespace Context

variable {c d e : Context}

/-- The tensor arrays and the queues are numbered as they came. -/
structure Numbered (c : Context) : Prop where
  arrays : c.arrays.map TensorArray.id = (List.range c.arrays.length).map some
  queues : c.queues.map Queue.id = (List.range c.queues.length).map some

/-- The objects of a context are there, in their places. -/
structure Grown (c d : Context) : Prop where
  arrays : c.arrays.map TensorArray.id <+: d.arrays.map TensorArray.id
  queues : c.queues.map Queue.id <+: d.queues.map Queue.id

theorem Grown.trans (h : c.Grown d) (h' : d.Grown e) : c.Grown e :=
  ⟨h.arrays.trans h'.arrays, h.queues.trans h'.queues⟩

/-- What one step does to the numbers of a list of objects: at most one more, the next one. -/
def Extends (before after : List (Option Nat)) : Prop := after = before ∨ after = before ++ [some before.length]

/-- What one step does to the objects. -/
structure Registers (c d : Context) : Prop where
  arrays : Extends (c.arrays.map TensorArray.id) (d.arrays.map TensorArray.id)
  queues : Extends (c.queues.map Queue.id) (d.queues.map Queue.id)

theorem Extends.numbered {α : Type} {f : α → Option Nat} {xs ys : List α} (h : Extends (xs.map f) (ys.map f))
    (hxs : xs.map f = (List.range xs.length).map some) : ys.map f = (List.range ys.length).map some := by
  have hlength : ys.length = (ys.map f).length := (List.length_map f).symm
  rcases h with h | h
  · rw [hlength, h, hxs, List.length_map, List.length_range]
  · rw [hlength, h, hxs, List.length_append, List.length_map, List.length_range, List.length_singleton,
      List.range_succ, List.map_append]
    rfl

theorem Extends.keeps {before after : List (Option Nat)} (h : Extends before after) : before <+: after := by
  rcases h with rfl | rfl
  · exact List.prefix_rfl
  · exact List.prefix_append _ _

theorem Registers.numbered (h : c.Registers d) (hc : c.Numbered) : d.Numbered :=
  ⟨h.arrays.numbered hc.arrays, h.queues.numbered hc.queues⟩

theorem Registers.grown (h : c.Registers d) : c.Grown d := ⟨h.arrays.keeps, h.queues.keeps⟩

theorem registers_of_eq (h : d.arrays = c.arrays ∧ d.queues = c.queues) : c.Registers d :=
  ⟨Or.inl (by rw [h.1]), Or.inl (by rw [h.2])⟩

theorem Touched.registers {o : Option Object} (h : c.Touched o d) : c.Registers d :=
  ⟨Or.inl h.arrayIds, Or.inl h.queueIds⟩

theorem GainsArray.registers (h : c.GainsArray d) : c.Registers d := by
  rcases h with rfl | ⟨a, rfl⟩
  · exact registers_of_eq ⟨rfl, rfl⟩
  · refine ⟨Or.inr ?_, Or.inl rfl⟩
    rw [withArrays, List.map_append, List.length_map]
    rfl

theorem GainsQueue.registers (h : c.GainsQueue d) : c.Registers d := by
  rcases h with rfl | ⟨q, rfl⟩
  · exact registers_of_eq ⟨rfl, rfl⟩
  · refine ⟨Or.inl rfl, Or.inr ?_⟩
    rw [withQueues, List.map_append, List.length_map]
    rfl

end Context

theorem Node.Affects.registers {n : Node} {values : Values} {c d : Context} {answer : Outcome (Option Outputs)}
    (h : n.Affects values c answer d) : c.Registers d := by
  unfold Affects at h
  split at h
  case h_5 | h_6 | h_7 => exact Context.registers_of_eq ⟨h.arrays, h.queues⟩
  case h_8 => exact h.registers
  case h_9 => exact h.registers
  case h_10 => exact h.registers
  all_goals
    subst h
    exact Context.registers_of_eq ⟨rfl, rfl⟩

namespace ContextUse

variable {u : ContextUse} {uses : List ContextUse} {s : Session}

theorem registers (u : ContextUse) (s : Session) (c : Context) : c.Registers (u.after (s, c)).2 := by
  cases u with
  | visit n values => exact (n.affects_visit values s c).registers
  | enterFrame name => exact Context.registers_of_eq (Context.objects_enterFrame name s c)
  | exitFrame => exact Context.registers_of_eq (Context.objects_exitFrame s c)
  | nextIteration => exact Context.registers_of_eq (Context.objects_nextIteration c)
  | setFrames frames => exact Context.registers_of_eq (Context.objects_setFrames frames c)
  | addArray a => exact (Context.gains_addArray a s c).registers
  | addQueue q => exact (Context.gains_addQueue q s c).registers
  | callArray k m args =>
    exact ((Context.confined_onArray (TensorArray.confined_call m args) k).keeps (s, c)).2.registers
  | callQueue k m args => exact ((Context.confined_onQueue (Queue.confined_call m args) k).keeps (s, c)).2.registers

theorem run_append (s : Session) (uses later : List ContextUse) :
    run s (uses ++ later) = later.foldl (fun p u => u.after p) (run s uses) := List.foldl_append

theorem run_concat (s : Session) (uses : List ContextUse) (u : ContextUse) :
    run s (uses ++ [u]) = u.after (run s uses) := run_append s uses [u]

theorem numbered_run (s : Session) (uses : List ContextUse) : (run s uses).2.Numbered := by
  induction uses using List.reverseRecOn with
  | nil => exact ⟨rfl, rfl⟩
  | append_singleton uses u ih =>
    rw [run_concat]
    exact (u.registers _ _).numbered ih

theorem grown_run (s : Session) (uses later : List ContextUse) : (run s uses).2.Grown (run s (uses ++ later)).2 := by
  induction later using List.reverseRecOn with
  | nil =>
    rw [List.append_nil]
    exact ⟨List.prefix_rfl, List.prefix_rfl⟩
  | append_singleton later u ih =>
    rw [← List.append_assoc, run_concat]
    exact ih.trans (u.registers _ _).grown

/-- A visit in a run leaves the values alone and touches its part of the context only. The objects that are there stay
    in their places, under their numbers. -/
theorem visit_touches_its_part (s : Session) (uses : List ContextUse) (n : Node) (values : Values) :
    let before := run s uses
    let visited := Run.inContext (n.visit values) ⟨before.1, before.2, values⟩
    visited.2.values = values ∧ n.Affects values before.2 visited.1 visited.2.context ∧
      (∀ earlier later, uses = earlier ++ later → (run s earlier).2.Grown before.2) ∧
      before.2.Grown visited.2.context ∧ before.2.Numbered ∧ visited.2.context.Numbered := by
  intro before visited
  have haffects : n.Affects values before.2 visited.1 visited.2.context := n.affects_visit values before.1 before.2
  have hnumbered : before.2.Numbered := numbered_run s uses
  refine ⟨rfl, haffects, ?_, haffects.registers.grown, hnumbered, haffects.registers.numbered hnumbered⟩
  rintro earlier later rfl
  exact grown_run s earlier later

/-- A visit whose move fails leaves what the move leaves. -/
theorem visit_nextIteration_error {n : Node} {values : Values} {v : Value} {c d : Context} {e : Failure}
    (hop : n.controlOp? = some .nextIteration) (htensor : n.required values c.ids "tensor" = .ok v)
    (hmove : Context.nextIteration c = (.error e, d)) (s : Session) : n.visit values (s, c) = (.error e, s, d) := by
  rw [Node.visit_eq hop]
  simp only [Visit.ofControlOp, Visit.nextIteration, Action.bind_apply, Visit.reading_apply, htensor,
    Action.onSecond_apply, hmove]

/-- An iteration after which no identifier can be written leaves the new frame in place. -/
theorem failed_move_changes_stack :
    let n : Node := ⟨"n", .text "nextIteration", ["x"], [("tensor", ⟨0, none, .tensor⟩)], []⟩
    let values : Values := [("x", [some (.scalar .host .float32 (.real (.ofInt 1)))])]
    let last : Int := (10 ^ Text.longestNumeral - 1 : Nat)
    let p := run (Session.initial [] false false) [.setFrames [.root, ⟨.int 5, .text "x", .int last⟩]]
    n.DeclaresTensors ∧ (n.visit values p).1 = .error .badValue ∧
      p.2.currentFrame.id = .int 5 ∧ (n.visit values p).2.2.currentFrame.id = .int 1 := by
  intro n values last p
  have hpos : 0 < 10 ^ Text.longestNumeral := Nat.pow_pos (by decide)
  let a : Activation := ⟨5, "x", 10 ^ Text.longestNumeral - 1, by decide, Nat.sub_lt hpos (by decide)⟩
  have hlast : ¬a.iteration + 1 < 10 ^ Text.longestNumeral := by
    show ¬10 ^ Text.longestNumeral - 1 + 1 < 10 ^ Text.longestNumeral
    rw [Nat.sub_add_cancel hpos]
    exact Nat.lt_irrefl _
  have hstack : Activation.stack [a] = [.root, ⟨.int 5, .text "x", .int last⟩] := rfl
  have hrun (s : Session) (frames : List Frame) :
      run s [.setFrames frames] = (s, (Context.setFrames frames Context.initial).2) := rfl
  have hp : p = (Session.initial [] false false, Context.initial.movedTo [a] 0) := by
    refine (hrun _ _).trans ?_
    rw [← hstack, Context.setFrames_eq Context.at_initial [a]]
    rfl
  have hat : (Context.initial.movedTo [a] 0).At ([] ++ [a]) := Context.at_movedTo _ _ _
  have hmove := Context.nextIteration_unwritten hat hlast
  -- The value is found under either identifier, whatever the one of the loop is.
  have hfind (id : String) : values.find? "x" [id, ""] = some [some (.scalar .host .float32 (.real (.ofInt 1)))] := by
    have hroot : Edge.key "x" "" = "x" := rfl
    cases hid : Edge.key "x" id == "x" <;> simp [Values.find?, List.findSome?, values, List.lookup_cons, hid, hroot]
  have htensor (id : String) :
      n.required values [id, ""] "tensor" = .ok (.tensor (.scalar .host .float32 (.real (.ofInt 1)))) := by
    have hget : values.get [id, ""] "x" = .ok (some (.scalar .host .float32 (.real (.ofInt 1)))) := by
      have hedge : Edge.ofName "x" = .ok ⟨"x", 0⟩ := rfl
      rw [Values.get, hedge, Outcome.ok_bind, hfind]
      rfl
    have hedge : n.edge ⟨0, none, .tensor⟩ = .ok "x" := rfl
    have hparam : n.params.lookup "tensor" = some ⟨0, none, .tensor⟩ := rfl
    simp only [Node.required, Node.param, hparam, hedge, Outcome.ok_bind, hget]
    rfl
  have hids : (Context.initial.movedTo [a] 0).ids = [Activation.contextId [a], ""] := by
    rw [Context.movedTo, ← List.nil_append [a], Activation.ids_concat, Activation.ids_nil]
  have hvisit := visit_nextIteration_error (n := n) rfl (hids ▸ htensor _) hmove (Session.initial [] false false)
  rw [hp, hvisit]
  refine ⟨?_, rfl, rfl, ?_⟩
  · simp [Node.DeclaresTensors, n, List.lookup_cons]
  · rw [Context.renewed, Context.currentFrame, List.getLastD_concat]
    rfl

end ContextUse

end Dataflow
