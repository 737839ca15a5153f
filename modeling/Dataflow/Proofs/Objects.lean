import Dataflow.Proofs.Effects
import Dataflow.Proofs.Visits

/-! The objects of a context: its tensor arrays and queues. A visit of a node that makes no object and does not move the
    stack of frames sees the visible identifiers, the numbers that are taken and at most one object, and changes nothing
    but this object. -/

namespace Dataflow

/-- A tensor array or a queue by its number. -/
inductive Object where
  | array (k : Nat)
  | queue (k : Nat)
deriving DecidableEq

namespace Context

variable {o : Option Object} {c d e : Context}

/-- Contexts that cannot be told apart where at most one object is looked at. -/
structure Agrees (o : Option Object) (c d : Context) : Prop where
  ids : c.ids = d.ids
  arrayCount : c.arrays.length = d.arrays.length
  queueCount : c.queues.length = d.queues.length
  array : ∀ k, o = some (.array k) → c.arrays[k]? = d.arrays[k]?
  queue : ∀ k, o = some (.queue k) → c.queues[k]? = d.queues[k]?

/-- A context in which at most one object has changed, and that one not in its number. -/
structure Touched (o : Option Object) (c d : Context) : Prop where
  frames : d.frames = c.frames
  ids : d.ids = c.ids
  lastId : d.lastId = c.lastId
  arrayIds : d.arrays.map TensorArray.id = c.arrays.map TensorArray.id
  queueIds : d.queues.map Queue.id = c.queues.map Queue.id
  arrays : ∀ k, o ≠ some (.array k) → d.arrays[k]? = c.arrays[k]?
  queues : ∀ k, o ≠ some (.queue k) → d.queues[k]? = c.queues[k]?

namespace Touched

theorem refl (o : Option Object) (c : Context) : c.Touched o c :=
  ⟨rfl, rfl, rfl, rfl, rfl, fun _ _ => rfl, fun _ _ => rfl⟩

theorem trans (h : c.Touched o d) (h' : d.Touched o e) : c.Touched o e where
  frames := h'.frames.trans h.frames
  ids := h'.ids.trans h.ids
  lastId := h'.lastId.trans h.lastId
  arrayIds := h'.arrayIds.trans h.arrayIds
  queueIds := h'.queueIds.trans h.queueIds
  arrays k hk := (h'.arrays k hk).trans (h.arrays k hk)
  queues k hk := (h'.queues k hk).trans (h.queues k hk)

theorem arrayCount (h : c.Touched o d) : d.arrays.length = c.arrays.length := by
  simpa using congrArg List.length h.arrayIds

theorem queueCount (h : c.Touched o d) : d.queues.length = c.queues.length := by
  simpa using congrArg List.length h.queueIds

/-- Where nothing is touched, nothing has changed. -/
theorem eq_of_none (h : c.Touched none d) : d = c := by
  have harrays : d.arrays = c.arrays := List.ext_getElem? fun k => h.arrays k nofun
  have hqueues : d.queues = c.queues := List.ext_getElem? fun k => h.queues k nofun
  cases d
  cases c
  obtain ⟨rfl, rfl, rfl, -, -, -, -⟩ := h
  cases harrays
  cases hqueues
  rfl

/-- What touches one object is not seen by what looks at another. -/
theorem agrees {o' : Option Object} (h : c.Touched o d) (ho : ∀ x, o = some x → o' ≠ some x) : c.Agrees o' d where
  ids := h.ids.symm
  arrayCount := h.arrayCount.symm
  queueCount := h.queueCount.symm
  array k hk := (h.arrays k fun hx => ho _ hx hk).symm
  queue k hk := (h.queues k fun hx => ho _ hx hk).symm

end Touched

def footprint (o : Option Object) : Footprint Context := ⟨Agrees o, Touched o, .refl o, .trans⟩

theorem map_set {α β : Type} {f : α → β} {l : List α} {k : Nat} {x y : α} (hx : l[k]? = some x) (hy : f y = f x) :
    (l.set k y).map f = l.map f := by
  rw [List.map_set, hy]
  refine List.ext_getElem? fun j => ?_
  by_cases hj : k = j
  · subst hj
    rw [List.getElem?_set_self', List.getElem?_map, hx]
    rfl
  · rw [List.getElem?_set_ne hj]

/-- The context with other queues. -/
def withQueues (queues : List Queue) (c : Context) : Context := { c with queues }

theorem onArray_none {α : Type} {act : Action (Session × TensorArray) α} {k : Nat} (h : c.arrays[k]? = none)
    (s : Session) : onArray k act (s, c) = (.error (.refused (.noSuchArray (.int k))), s, c) := by
  simp only [onArray, h]

theorem onArray_some {α : Type} {act : Action (Session × TensorArray) α} {k : Nat} {a : TensorArray}
    (h : c.arrays[k]? = some a) (s : Session) :
    onArray k act (s, c) =
      ((act (s, a)).1, (act (s, a)).2.1, c.withArrays (c.arrays.set k (act (s, a)).2.2)) := onArray_eq h rfl

theorem onQueue_none {α : Type} {act : Action (Session × Queue) α} {k : Nat} (h : c.queues[k]? = none)
    (s : Session) : onQueue k act (s, c) = (.error (.refused (.noSuchQueue (.int k))), s, c) := by
  simp only [onQueue, h]

theorem onQueue_some {α : Type} {act : Action (Session × Queue) α} {k : Nat} {q : Queue}
    (h : c.queues[k]? = some q) (s : Session) :
    onQueue k act (s, c) =
      ((act (s, q)).1, (act (s, q)).2.1, c.withQueues (c.queues.set k (act (s, q)).2.2)) := by
  simp only [onQueue, h]
  rfl

theorem forall_mem_set {γ : Type} {P : γ → Prop} {l : List γ} {x : γ} (hl : ∀ y ∈ l, P y) (hx : P x) (k : Nat) :
    ∀ y ∈ l.set k x, P y := fun y hy => (List.mem_or_eq_of_mem_set hy).elim (hl y) fun h => h ▸ hx

theorem forall_mem_concat {γ : Type} {P : γ → Prop} {l : List γ} {x : γ} (hl : ∀ y ∈ l, P y) (hx : P x) :
    ∀ y ∈ l ++ [x], P y := fun y hy => (List.mem_append.mp hy).elim (hl y) fun h => List.mem_singleton.mp h ▸ hx

theorem confined_onArray {α : Type} {act : Action (Session × TensorArray) α}
    (h : act.Confined TensorArray.footprint.inSession) (k : Nat) :
    (onArray k act).Confined (footprint (some (.array k))).inSession where
  same := by
    rintro ⟨s, c⟩ ⟨t, d⟩ ⟨hst, hcd⟩
    have hcd : c.Agrees (some (.array k)) d := hcd
    have hseen := hcd.array k rfl
    cases hd : d.arrays[k]? with
    | none =>
      rw [onArray_none hd, onArray_none (hseen.trans hd)]
      exact ⟨rfl, hst, hcd⟩
    | some a =>
      rw [onArray_some hd, onArray_some (hseen.trans hd)]
      obtain ⟨hanswer, hsession, harray⟩ := h.same (s, a) (t, a) ⟨hst, rfl⟩
      have harray : (act (s, a)).2.2 = (act (t, a)).2.2 := harray
      refine ⟨hanswer, hsession, hcd.ids, ?_, hcd.queueCount, ?_, nofun⟩
      · rw [withArrays, withArrays, List.length_set, List.length_set, hcd.arrayCount]
      · rintro j hj
        cases hj
        rw [withArrays, withArrays, List.getElem?_set_self', List.getElem?_set_self', hseen, harray]
  keeps := by
    rintro ⟨s, c⟩
    cases ha : c.arrays[k]? with
    | none =>
      rw [onArray_none ha]
      exact ⟨.refl s, .refl _ c⟩
    | some a =>
      rw [onArray_some ha]
      obtain ⟨hsession, hid⟩ := h.keeps (s, a)
      refine ⟨hsession, rfl, rfl, rfl, map_set ha hid, rfl, fun j hj => ?_, fun _ _ => rfl⟩
      exact List.getElem?_set_ne fun hkj => hj (by rw [hkj])

theorem confined_onQueue {α : Type} {act : Action (Session × Queue) α}
    (h : act.Confined Queue.footprint.inSession) (k : Nat) :
    (onQueue k act).Confined (footprint (some (.queue k))).inSession where
  same := by
    rintro ⟨s, c⟩ ⟨t, d⟩ ⟨hst, hcd⟩
    have hcd : c.Agrees (some (.queue k)) d := hcd
    have hseen := hcd.queue k rfl
    cases hd : d.queues[k]? with
    | none =>
      rw [onQueue_none hd, onQueue_none (hseen.trans hd)]
      exact ⟨rfl, hst, hcd⟩
    | some q =>
      rw [onQueue_some hd, onQueue_some (hseen.trans hd)]
      obtain ⟨hanswer, hsession, hqueue⟩ := h.same (s, q) (t, q) ⟨hst, rfl⟩
      have hqueue : (act (s, q)).2.2 = (act (t, q)).2.2 := hqueue
      refine ⟨hanswer, hsession, hcd.ids, hcd.arrayCount, ?_, nofun, ?_⟩
      · rw [withQueues, withQueues, List.length_set, List.length_set, hcd.queueCount]
      · rintro j hj
        cases hj
        rw [withQueues, withQueues, List.getElem?_set_self', List.getElem?_set_self', hseen, hqueue]
  keeps := by
    rintro ⟨s, c⟩
    cases hq : c.queues[k]? with
    | none =>
      rw [onQueue_none hq]
      exact ⟨.refl s, .refl _ c⟩
    | some q =>
      rw [onQueue_some hq]
      obtain ⟨hsession, hid⟩ := h.keeps (s, q)
      refine ⟨hsession, rfl, rfl, rfl, rfl, map_set hq hid, fun _ _ => rfl, fun j hj => ?_⟩
      exact List.getElem?_set_ne fun hkj => hj (by rw [hkj])

theorem Agrees.arrayNumber (h : c.Agrees o d) (v : Value) : c.arrayNumber v = d.arrayNumber v := by
  unfold Context.arrayNumber
  rw [h.arrayCount]

theorem Agrees.queueNumber (h : c.Agrees o d) (v : Value) : c.queueNumber v = d.queueNumber v := by
  unfold Context.queueNumber
  rw [h.queueCount]

end Context

/-! ### The object of a node -/

namespace Node

variable {n : Node} {values : Values} {c d : Context} {o : Option Object}

/-- The number of the tensor array that a node names. -/
def arrayAt (n : Node) (values : Values) (c : Context) : Outcome Nat := do
  c.arrayNumber (.int (← n.intParam values c.ids "tensorArrayId"))

def queueAt (n : Node) (values : Values) (c : Context) : Outcome Nat := do
  c.queueNumber (.int (← n.intParam values c.ids "fifoQueueId"))

/-- The tensor array or queue that a visit of a node works on, where it names one that is there. -/
def object? (n : Node) (values : Values) (c : Context) : Option Object :=
  match n.controlOp? with
  | some .tensorArrayWrite | some .tensorArrayRead | some .tensorArrayGather | some .tensorArrayScatter
  | some .tensorArrayConcat | some .tensorArraySplit | some .tensorArraySize | some .tensorArrayClose =>
    (n.arrayAt values c).toOption.map .array
  | some .queueDequeueUpTo => (n.queueAt values c).toOption.map .queue
  | _ => none

theorem arrayAt_agrees (h : c.Agrees o d) : n.arrayAt values c = n.arrayAt values d := by
  unfold arrayAt
  rw [h.ids]
  exact bind_congr fun id => h.arrayNumber _

theorem queueAt_agrees (h : c.Agrees o d) : n.queueAt values c = n.queueAt values d := by
  unfold queueAt
  rw [h.ids]
  exact bind_congr fun id => h.queueNumber _

theorem object?_agrees (h : c.Agrees o d) : n.object? values c = n.object? values d := by
  unfold object?
  rw [arrayAt_agrees h, queueAt_agrees h]

end Node

/-! ### Visits -/

namespace Visit

open Dataflow.Action (Confined)

variable {n : Node} {values : Values} {c d : Context} {o : Option Object}

/-- An action that is confined to an object wherever the identifiers and the numbers of objects are as in a context. -/
def ConfinedAt {α : Type} (c : Context) (o : Option Object) (a : Action (Session × Context) α) : Prop :=
  ∃ act : Action (Session × Context) α, act.Confined (Context.footprint o).inSession ∧
    ∀ s d, c.Agrees none d → a (s, d) = act (s, d)

theorem confinedAt {α : Type} {a : Action (Session × Context) α} (c : Context)
    (h : a.Confined (Context.footprint o).inSession) : ConfinedAt c o a := ⟨a, h, fun _ _ _ => rfl⟩

theorem confined_visible : visible.Confined (Context.footprint o).inSession :=
  .of_unchanged (fun _ => rfl) fun _ _ h => congrArg Except.ok h.2.ids

theorem confined_reading {α : Type} (read : Node → Values → List String → String → Outcome α) (n : Node)
    (values : Values) (name : String) : (reading read n values name).Confined (Context.footprint o).inSession :=
  .of_unchanged (fun _ => rfl) fun _ _ h => congrArg (read n values · name) h.2.ids

theorem confined_loopCond : (loopCond n values).Confined (Context.footprint o).inSession :=
  .bind (confined_reading _ _ _ _) fun _ => .bind (.lift _) fun _ => .pure _

theorem confined_switch : (switch n values).Confined (Context.footprint o).inSession :=
  .bind (confined_reading _ _ _ _) fun _ => .bind (confined_reading _ _ _ _) fun _ => .bind (.lift _) fun _ =>
    .bind (.lift _) fun _ => .pure _

theorem confined_merge : (merge n values).Confined (Context.footprint o).inSession := by
  refine .bind confined_visible fun ids => .bind (.lift _) fun x => ?_
  split
  · exact .pure _
  · exact .bind (.onFirst (Session.confined_record _ _)) fun _ => .pure _

theorem confined_done : done.Confined (Context.footprint o).inSession :=
  .bind (.onFirst (Session.confined_flag _)) fun _ => .pure _

/-! ### Visits that act on an object -/

theorem arrayOf_apply (n : Node) (values : Values) (s : Session) (c : Context) :
    arrayOf n values (s, c) = (n.arrayAt values c, s, c) := by
  rw [arrayOf, Action.bind_apply, reading_apply]
  unfold Node.arrayAt
  cases n.intParam values c.ids "tensorArrayId" <;> rfl

theorem confinedAt_array {α : Type} {f : Nat → Action (Session × Context) α}
    (hf : ∀ k, (f k).Confined (Context.footprint (some (.array k))).inSession) :
    ConfinedAt c ((n.arrayAt values c).toOption.map .array) (arrayOf n values >>= f) := by
  -- Which array it is, is settled by the identifiers and the numbers, before the array itself is looked at.
  cases hk : n.arrayAt values c with
  | error e =>
    refine ⟨throw e, .throw e, fun s d hd => ?_⟩
    exact Action.bind_error (by rw [arrayOf_apply, ← Node.arrayAt_agrees hd, hk])
  | ok k =>
    refine ⟨f k, hf k, fun s d hd => ?_⟩
    exact Action.bind_ok (by rw [arrayOf_apply, ← Node.arrayAt_agrees hd, hk])

theorem confinedAt_arrayWrite : ConfinedAt c ((n.arrayAt values c).toOption.map .array) (tensorArrayWrite n values) :=
  confinedAt_array fun k => .bind (confined_reading _ _ _ _) fun _ => .bind (confined_reading _ _ _ _) fun x =>
    .bind (Context.confined_onArray (.onSecond (TensorArray.confined_write _ x)) k) fun _ => confined_done

theorem confinedAt_arrayRead : ConfinedAt c ((n.arrayAt values c).toOption.map .array) (tensorArrayRead n values) :=
  confinedAt_array fun k => .bind (confined_reading _ _ _ _) fun _ =>
    .bind (Context.confined_onArray (.onSecond (TensorArray.confined_read _)) k) fun _ => .pure _

theorem confinedAt_arrayGather : ConfinedAt c ((n.arrayAt values c).toOption.map .array) (tensorArrayGather n values) :=
  confinedAt_array fun k => .bind (confined_reading _ _ _ _) fun _ => .bind (confined_reading _ _ _ _) fun dtype =>
    .bind (Context.confined_onArray (TensorArray.confined_gather _ dtype) k) fun _ => .pure _

theorem confinedAt_arrayScatter :
    ConfinedAt c ((n.arrayAt values c).toOption.map .array) (tensorArrayScatter n values) :=
  confinedAt_array fun k => .bind (confined_reading _ _ _ _) fun _ => .bind (confined_reading _ _ _ _) fun x =>
    .bind (Context.confined_onArray (.onSecond (TensorArray.confined_scatter _ x)) k) fun _ => confined_done

theorem confinedAt_arrayConcat : ConfinedAt c ((n.arrayAt values c).toOption.map .array) (tensorArrayConcat n values) :=
  confinedAt_array fun k => .bind (confined_reading _ _ _ _) fun dtype =>
    .bind (Context.confined_onArray (TensorArray.confined_concat dtype) k) fun _ => .pure _

theorem confinedAt_arraySplit : ConfinedAt c ((n.arrayAt values c).toOption.map .array) (tensorArraySplit n values) :=
  confinedAt_array fun k => .bind (confined_reading _ _ _ _) fun _ => .bind (confined_reading _ _ _ _) fun x =>
    .bind (Context.confined_onArray (.onSecond (TensorArray.confined_split _ x)) k) fun _ => confined_done

theorem confinedAt_arraySize : ConfinedAt c ((n.arrayAt values c).toOption.map .array) (tensorArraySize n values) :=
  confinedAt_array fun k => .bind (Context.confined_onArray (.onSecond TensorArray.confined_openSize) k) fun _ =>
    .bind (.onFirst (Session.confined_indexScalar _ _ _)) fun _ => .pure _

theorem confinedAt_arrayClose : ConfinedAt c ((n.arrayAt values c).toOption.map .array) (tensorArrayClose n values) :=
  confinedAt_array fun k => .bind (Context.confined_onArray TensorArray.confined_clearAndClose k) fun _ => .pure _

theorem queueOf_apply {α : Type} (f : Nat → Action (Session × Context) α) (s : Session) (c : Context) :
    (do let id ← reading Node.intParam n values "fifoQueueId"
        let k ← (← get).2.queueNumber (.int id)
        f k : Action (Session × Context) α) (s, c) = match n.queueAt values c with
      | .ok k => f k (s, c)
      | .error e => (.error e, s, c) := by
  rw [Action.bind_apply, reading_apply]
  unfold Node.queueAt
  cases n.intParam values c.ids "fifoQueueId" with
  | error e => rfl
  | ok id =>
    simp only [Action.bind_apply, Action.get_apply, Action.lift_apply, Outcome.ok_bind]
    cases c.queueNumber (.int id) <;> rfl

theorem confinedAt_dequeue : ConfinedAt c ((n.queueAt values c).toOption.map .queue) (queueDequeueUpTo n values) := by
  have hrest : ∀ k : Nat, (do
      let num ← reading Node.intParam n values "num"
      let dtypes ← reading Node.param n values "dtypes"
      return tensorOutputs (← Context.onQueue k (Queue.dequeueUpTo (.int num) dtypes)) :
        Action (Session × Context) (Option Outputs)).Confined (Context.footprint (some (.queue k))).inSession :=
    fun k => .bind (confined_reading _ _ _ _) fun num => .bind (confined_reading _ _ _ _) fun dtypes =>
      .bind (Context.confined_onQueue (Queue.confined_dequeueUpTo _ dtypes) k) fun _ => .pure _
  cases hk : n.queueAt values c with
  | error e =>
    refine ⟨throw e, .throw e, fun s d hd => ?_⟩
    rw [queueDequeueUpTo, queueOf_apply, ← Node.queueAt_agrees hd, hk]
    rfl
  | ok k =>
    refine ⟨_, hrest k, fun s d hd => ?_⟩
    rw [queueDequeueUpTo, queueOf_apply, ← Node.queueAt_agrees hd, hk]

end Visit

/-- The operations that move the stack of frames or make an object. -/
def ControlOp.structural : List ControlOp := [.enter, .exit, .nextIteration, .tensorArray, .fifoQueue]

namespace Node

variable {n : Node} {values : Values} {c d : Context} {s t : Session}

/-- The node neither moves the stack of frames nor makes an object. -/
def Local (n : Node) : Prop := ∀ op ∈ ControlOp.structural, n.controlOp? ≠ some op

theorem confinedAt_visit (h : n.Local) (values : Values) (c : Context) :
    Visit.ConfinedAt c (n.object? values c) (n.visit values) := by
  unfold visit object?
  cases hop : n.controlOp? with
  | none => exact Visit.confinedAt c (.throw _)
  | some op =>
    cases op with
    | loopCond => exact Visit.confinedAt c Visit.confined_loopCond
    | switch => exact Visit.confinedAt c Visit.confined_switch
    | merge => exact Visit.confinedAt c Visit.confined_merge
    | tensorArrayWrite => exact Visit.confinedAt_arrayWrite
    | tensorArrayRead => exact Visit.confinedAt_arrayRead
    | tensorArrayGather => exact Visit.confinedAt_arrayGather
    | tensorArrayScatter => exact Visit.confinedAt_arrayScatter
    | tensorArrayConcat => exact Visit.confinedAt_arrayConcat
    | tensorArraySplit => exact Visit.confinedAt_arraySplit
    | tensorArraySize => exact Visit.confinedAt_arraySize
    | tensorArrayClose => exact Visit.confinedAt_arrayClose
    | queueDequeueUpTo => exact Visit.confinedAt_dequeue
    | _ => exact absurd hop (h _ (by simp [ControlOp.structural]))

/-- A visit changes at most the object that it works on. -/
theorem touched_visit (h : n.Local) (values : Values) (s : Session) (c : Context) :
    s.Alike (n.visit values (s, c)).2.1 ∧ c.Touched (n.object? values c) (n.visit values (s, c)).2.2 := by
  obtain ⟨act, hact, heq⟩ := n.confinedAt_visit h values c
  rw [heq s c ⟨rfl, rfl, rfl, nofun, nofun⟩]
  exact hact.keeps (s, c)

/-- A visit sees at most the object that it works on. -/
theorem agrees_visit (h : n.Local) (values : Values) (hst : s.Alike t) (hcd : c.Agrees (n.object? values c) d) :
    (n.visit values (s, c)).1 = (n.visit values (t, d)).1 ∧
      (n.visit values (s, c)).2.1.Alike (n.visit values (t, d)).2.1 ∧
      (n.visit values (s, c)).2.2.Agrees (n.object? values c) (n.visit values (t, d)).2.2 := by
  obtain ⟨act, hact, heq⟩ := n.confinedAt_visit h values c
  rw [heq s c ⟨rfl, rfl, rfl, nofun, nofun⟩, heq t d ⟨hcd.ids, hcd.arrayCount, hcd.queueCount, nofun, nofun⟩]
  exact hact.same (s, c) (t, d) ⟨hst, hcd⟩

end Node

end Dataflow
