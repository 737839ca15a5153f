import Dataflow.Proofs.HeldTypes
import Dataflow.Proofs.VisitEffects

/-! The premises of the library hold in every run of visits and enqueues. The objects of a context hold tensors of their
    own element types, which every visit upholds, so the tensors that a visit stacks or ties are of one type, there is
    one at least, and no object is registered twice. -/

namespace Dataflow

open Dataflow.Action (Upholds Answers Beside)
open Session (Named)

variable {T : DType.Family}

namespace TensorArray

theorem holding_of_make {s : Session} {spec : Spec} {a : TensorArray} (hs : s.Named) (h : make s spec = .ok a) :
    a.id = none ∧ a.dtype ≠ .nothing ∧ a.Holding T a.dtype := by
  rw [make] at h
  obtain ⟨i, hi, h⟩ := Outcome.bind_eq_ok.mp h
  obtain ⟨negative, -, h⟩ := Outcome.bind_eq_ok.mp h
  split at h
  · cases h
  obtain ⟨shape, -, h⟩ := Outcome.bind_eq_ok.mp h
  obtain ⟨size, -, h⟩ := Outcome.bind_eq_ok.mp h
  cases h
  refine ⟨rfl, hs.ne_nothing hi, rfl, fun slot hslot x hx => ?_⟩
  rw [List.eq_of_mem_replicate hslot] at hx
  cases hx

theorem unbroken_make (s : Session) (spec : Spec) : (make s spec).Unbroken := by
  unfold make
  grind

end TensorArray

namespace Context

/-- A context whose tensor arrays and queues hold no tensor of another type than their own. -/
structure Holding (T : DType.Family) (c : Context) : Prop where
  arrays : ∀ a ∈ c.arrays, ∃ d, d ≠ .nothing ∧ a.Holding T d
  queues : ∀ q ∈ c.queues, ∃ ds, (∀ d ∈ ds, d ≠ .nothing) ∧ q.Holding T ds

theorem holding_initial : initial.Holding T := ⟨nofun, nofun⟩

/-! ### Objects -/

theorem upholds_onArray {α : Type} {act : Action (Session × TensorArray) α}
    (h : ∀ d, d ≠ .nothing → act.Upholds (Beside Named (TensorArray.Holding T d))) (k : Nat) :
    (onArray k act).Upholds (Beside Named (Holding T)) where
  keeps := by
    rintro ⟨s, c⟩ ⟨hs, hc⟩
    cases ha : c.arrays[k]? with
    | none =>
      rw [onArray_none ha]
      exact ⟨hs, hc⟩
    | some a =>
      obtain ⟨d, hd, hheld⟩ := hc.arrays a (List.mem_of_getElem? ha)
      obtain ⟨hs', hheld'⟩ := (h d hd).keeps (s, a) ⟨hs, hheld⟩
      rw [onArray_some ha]
      exact ⟨hs', forall_mem_set hc.arrays ⟨d, hd, hheld'⟩ k, hc.queues⟩
  unbroken := by
    rintro ⟨s, c⟩ ⟨hs, hc⟩
    cases ha : c.arrays[k]? with
    | none =>
      rw [onArray_none ha]
      exact (Outcome.unbroken_error _).mpr rfl
    | some a =>
      obtain ⟨d, hd, hheld⟩ := hc.arrays a (List.mem_of_getElem? ha)
      rw [onArray_some ha]
      exact (h d hd).unbroken (s, a) ⟨hs, hheld⟩

theorem upholds_onQueue {α : Type} {act : Action (Session × Queue) α}
    (h : ∀ ds, (∀ d ∈ ds, d ≠ .nothing) → act.Upholds (Beside Named (Queue.Holding T ds))) (k : Nat) :
    (onQueue k act).Upholds (Beside Named (Holding T)) where
  keeps := by
    rintro ⟨s, c⟩ ⟨hs, hc⟩
    cases hq : c.queues[k]? with
    | none =>
      rw [onQueue_none hq]
      exact ⟨hs, hc⟩
    | some q =>
      obtain ⟨ds, hds, hheld⟩ := hc.queues q (List.mem_of_getElem? hq)
      obtain ⟨hs', hheld'⟩ := (h ds hds).keeps (s, q) ⟨hs, hheld⟩
      rw [onQueue_some hq]
      exact ⟨hs', hc.arrays, forall_mem_set hc.queues ⟨ds, hds, hheld'⟩ k⟩
  unbroken := by
    rintro ⟨s, c⟩ ⟨hs, hc⟩
    cases hq : c.queues[k]? with
    | none =>
      rw [onQueue_none hq]
      exact (Outcome.unbroken_error _).mpr rfl
    | some q =>
      obtain ⟨ds, hds, hheld⟩ := hc.queues q (List.mem_of_getElem? hq)
      rw [onQueue_some hq]
      exact (h ds hds).unbroken (s, q) ⟨hs, hheld⟩

/-- An array that was just made is in no context yet. -/
theorem upholds_addArray {a : TensorArray} (hid : a.id = none) (hd : a.dtype ≠ .nothing) (ha : a.Holding T a.dtype) :
    (addArray a).Upholds (Beside Named (Holding T)) := by
  have hadded (k : Nat) (c : Context) (hc : c.Holding T) :
      { c with arrays := c.arrays ++ [{ a with id := some k }] }.Holding T :=
    ⟨forall_mem_concat hc.arrays ⟨a.dtype, hd, ha.dtype, ha.held⟩, hc.queues⟩
  rw [addArray, if_neg (by simp [hid])]
  exact .bind .state fun p _ => .bind (.onSecond (.modify (hadded _))) fun _ _ =>
    .bind (.onFirst (Session.upholds_record _ (Outcome.unbroken_ok _))) fun _ _ => .pure _

theorem upholds_addQueue {q : Queue} (hid : q.id = none) (hds : ∀ d ∈ q.dtypes, d ≠ .nothing)
    (hq : q.Holding T q.dtypes) : (addQueue q).Upholds (Beside Named (Holding T)) := by
  have hadded (k : Nat) (c : Context) (hc : c.Holding T) :
      { c with queues := c.queues ++ [{ q with id := some k }] }.Holding T :=
    ⟨hc.arrays, forall_mem_concat hc.queues ⟨q.dtypes, hds, hq.dtypes, hq.shapes, hq.held⟩⟩
  rw [addQueue, if_neg (by simp [hid])]
  exact .bind .state fun p _ => .bind (.onSecond (.modify (hadded _))) fun _ _ =>
    .bind (.onFirst (Session.upholds_record _ (Outcome.unbroken_ok _))) fun _ _ => .pure _

/-! ### The stack of frames -/

/-- What leaves the objects alone. -/
theorem upholds_modify {f : Context → Context} (harrays : ∀ c, (f c).arrays = c.arrays)
    (hqueues : ∀ c, (f c).queues = c.queues) : (modify f : Action Context Unit).Upholds (Holding T) :=
  .modify fun c hc => ⟨harrays c ▸ hc.arrays, hqueues c ▸ hc.queues⟩

theorem upholds_enterFrame (name : Value) : (enterFrame name).Upholds (Beside Named (Holding T)) := by
  have henter : (enter name).Upholds (Holding T) := by
    refine .bind (upholds_modify (fun _ => rfl) fun _ => rfl) fun _ _ => .bind .state fun _ _ =>
      .bind (upholds_modify (fun _ => rfl) fun _ => rfl) fun _ _ => .bind .state fun _ _ =>
      .bind (.lift (Frame.unbroken_contextId _)) fun _ _ => upholds_modify (fun _ => rfl) fun _ => rfl
  exact .bind (.onSecond henter) fun _ _ => .bind .state fun _ _ =>
    .onFirst (Session.upholds_record _ (Outcome.unbroken_ok _))

theorem upholds_exitFrame : exitFrame.Upholds (Beside Named (Holding T)) :=
  .bind .state fun _ _ => .check (.throw rfl) fun _ _ =>
    .bind (.onSecond (upholds_modify (fun _ => rfl) fun _ => rfl)) fun _ _ => .check (.throw rfl) fun _ _ =>
    .bind .state fun _ _ => .onFirst (Session.upholds_record _ (Outcome.unbroken_ok _))

theorem upholds_nextIteration : nextIteration.Upholds (Holding T) :=
  .bind .state fun _ _ => .check (.throw rfl) fun _ _ =>
    .bind (upholds_modify (fun _ => rfl) fun _ => rfl) fun _ _ => .bind .state fun _ _ =>
    .bind (.lift (Value.unbroken_successor _)) fun _ _ => .bind (upholds_modify (fun _ => rfl) fun _ => rfl) fun _ _ =>
    .bind .state fun _ _ => .bind (.lift (Frame.unbroken_contextId _)) fun _ _ => .check (.throw rfl) fun _ _ =>
    upholds_modify (fun _ => rfl) fun _ => rfl

end Context

/-! ### Tensors among parameters -/

/-- The tensors among values are of types in a family. -/
def Values.Within (T : DType.Family) (values : Values) : Prop := ∀ e ∈ values, ∀ x, some x ∈ e.2 → x.dtype ∈ T

/-- The tensors among a node's attributes are of types in a family. -/
def Node.Within (T : DType.Family) (n : Node) : Prop := ∀ e ∈ n.attrs, e.2.Within T

namespace Node

variable {n : Node} {values : Values} {ids : List String} {name : String} {v : Value}

theorem within_get (hvalues : values.Within T) {edge : String} {x : Tensor} (h : values.get ids edge = .ok (some x)) :
    x.dtype ∈ T := by
  obtain ⟨e, -, h⟩ := Outcome.bind_eq_ok.mp h
  obtain ⟨outputs, hfind, hx⟩ := Option.bind_eq_some_iff.mp (Except.ok.inj h)
  obtain ⟨id, -, hid⟩ := List.exists_of_findSome?_eq_some hfind
  have hlookup : values.lookup (Edge.key e.node id) = some outputs := by
    split at hid <;> cases hid
    assumption
  obtain ⟨before, after, rfl, -⟩ := List.lookup_eq_some_iff.mp hlookup
  exact hvalues (Edge.key e.node id, outputs) (by simp) x (List.mem_of_getElem? (Option.join_eq_some_iff.mp hx))

theorem within_nothing : Value.nothing.Within T := nofun

theorem within_list (vs : List Value) : (Value.list vs).Within T := nofun

theorem within_ofElement (e : Element) : (Value.ofElement e).Within T := by
  cases e <;> exact nofun

theorem within_nested (s : Shape) (es : List Element) : (Value.nested s es).Within T := by
  cases s with
  | nil =>
    cases es with
    | nil => exact within_nothing
    | cons e es => exact within_ofElement e
  | cons d s => exact within_list _

theorem within_readAs {x : Tensor} (hx : x.dtype ∈ T) {t : ParamType} (h : n.readAs name x t = .ok v) :
    v.Within T := by
  cases t with
  | tensor | tensors =>
    cases h
    rintro y ⟨⟩
    exact hx
  | number =>
    obtain ⟨e, -, h⟩ := Outcome.bind_eq_ok.mp h
    cases h
    exact within_ofElement e
  | bool =>
    obtain ⟨e, -, h⟩ := Outcome.bind_eq_ok.mp h
    cases h
    exact nofun
  | elements =>
    obtain ⟨⟨⟩, -, h⟩ := Outcome.bind_eq_ok.mp h
    cases h
    exact within_nested _ _

theorem within_attr (hn : n.Within T) : ((n.attrs.lookup name).getD .nothing).Within T := by
  cases hlookup : n.attrs.lookup name with
  | none => exact within_nothing
  | some v =>
    obtain ⟨before, after, hattrs, -⟩ := List.lookup_eq_some_iff.mp hlookup
    exact hn (name, v) (by simp [hattrs])

theorem within_param (hn : n.Within T) (hvalues : values.Within T) (h : n.param values ids name = .ok v) :
    v.Within T := by
  rw [param] at h
  split at h
  · cases h
    exact within_attr hn
  split at h
  · obtain ⟨xs, -, h⟩ := Outcome.bind_eq_ok.mp h
    cases h
    exact within_list _
  · obtain ⟨edge, -, h⟩ := Outcome.bind_eq_ok.mp h
    obtain ⟨o, ho, h⟩ := Outcome.bind_eq_ok.mp h
    cases o with
    | none =>
      cases h
      exact within_nothing
    | some x => exact within_readAs (within_get hvalues ho) h

theorem within_required (hn : n.Within T) (hvalues : values.Within T) (h : n.required values ids name = .ok v) :
    v.Within T := by
  obtain ⟨w, hw, h⟩ := Outcome.bind_eq_ok.mp h
  split at h <;> cases h
  exact within_param hn hvalues hw

end Node

namespace Visit

variable {n : Node} {values : Values}

@[grind .] theorem upholds_reading {α : Type} {read : Node → Values → List String → String → Outcome α}
    (h : ∀ ids name, (read n values ids name).Unbroken) (name : String) :
    (reading read n values name).Upholds (Beside Named (Context.Holding T)) :=
  .bind (.bind .state fun _ _ => .pure _) fun _ _ => .lift (h _ name)

theorem within_of_reading {v : Value} {name : String} {I : Session × Context → Prop} (hn : n.Within T)
    (hvalues : values.Within T) (h : (reading Node.required n values name).Answers I v) : v.Within T := by
  obtain ⟨p, -, h⟩ := h
  rw [reading_apply] at h
  exact Node.within_required hn hvalues h

theorem upholds_loopCond : (loopCond n values).Upholds (Beside Named (Context.Holding T)) := by
  unfold loopCond
  grind

theorem upholds_switch : (switch n values).Upholds (Beside Named (Context.Holding T)) := by
  unfold switch
  grind

theorem upholds_merge : (merge n values).Upholds (Beside Named (Context.Holding T)) := by
  unfold merge visible
  grind

theorem upholds_enter : (enter n values).Upholds (Beside Named (Context.Holding T)) := by
  unfold enter
  grind [Context.upholds_enterFrame]

theorem upholds_exit : (exit n values).Upholds (Beside Named (Context.Holding T)) := by
  unfold exit
  grind [Context.upholds_exitFrame]

theorem upholds_nextIteration : (nextIteration n values).Upholds (Beside Named (Context.Holding T)) := by
  unfold nextIteration
  grind [Context.upholds_nextIteration]

@[grind .] theorem upholds_handle (k : Nat) : (handle k).Upholds (Beside Named (Context.Holding T)) := by
  unfold handle
  grind

@[grind .] theorem upholds_done : done.Upholds (Beside Named (Context.Holding T)) := by
  unfold done
  grind

@[grind .] theorem upholds_arrayOf : (arrayOf n values).Upholds (Beside Named (Context.Holding T)) := by
  unfold arrayOf
  grind

theorem upholds_tensorArraySize : (tensorArraySize n values).Upholds (Beside Named (Context.Holding T)) := by
  unfold tensorArraySize
  grind [Context.upholds_onArray]

theorem upholds_tensorArrayClose : (tensorArrayClose n values).Upholds (Beside Named (Context.Holding T)) := by
  unfold tensorArrayClose
  grind [Context.upholds_onArray, TensorArray.upholds_clearAndClose]

theorem upholds_tensorArrayRead : (tensorArrayRead n values).Upholds (Beside Named (Context.Holding T)) := by
  unfold tensorArrayRead
  grind [Context.upholds_onArray, TensorArray.upholds_read]

theorem upholds_tensorArrayGather : (tensorArrayGather n values).Upholds (Beside Named (Context.Holding T)) := by
  unfold tensorArrayGather
  grind [Context.upholds_onArray, TensorArray.upholds_gather]

theorem upholds_tensorArrayConcat : (tensorArrayConcat n values).Upholds (Beside Named (Context.Holding T)) := by
  unfold tensorArrayConcat
  grind [Context.upholds_onArray, TensorArray.upholds_concat]

theorem upholds_tensorArrayWrite (hn : n.Within T) (hvalues : values.Within T) :
    (tensorArrayWrite n values).Upholds (Beside Named (Context.Holding T)) := by
  refine .bind upholds_arrayOf fun k _ => .bind (upholds_reading (n.unbroken_intParam values) _) fun i _ =>
    .bind (upholds_reading (n.unbroken_required values) _) fun x hx => ?_
  have hwritten := within_of_reading hn hvalues hx
  exact .bind (Context.upholds_onArray (fun d hd => .onSecond (TensorArray.upholds_write hd _ hwritten)) k)
    fun _ _ => upholds_done

theorem upholds_tensorArrayScatter (hn : n.Within T) (hvalues : values.Within T) :
    (tensorArrayScatter n values).Upholds (Beside Named (Context.Holding T)) := by
  refine .bind upholds_arrayOf fun k _ => .bind (upholds_reading (n.unbroken_intsParam values) _) fun is _ =>
    .bind (upholds_reading (n.unbroken_required values) _) fun x hx => ?_
  have hscattered := within_of_reading hn hvalues hx
  exact .bind (Context.upholds_onArray (fun d hd => .onSecond (TensorArray.upholds_scatter hd _ hscattered)) k)
    fun _ _ => upholds_done

theorem upholds_tensorArraySplit (hn : n.Within T) (hvalues : values.Within T) :
    (tensorArraySplit n values).Upholds (Beside Named (Context.Holding T)) := by
  refine .bind upholds_arrayOf fun k _ => .bind (upholds_reading (n.unbroken_intsParam values) _) fun ns _ =>
    .bind (upholds_reading (n.unbroken_required values) _) fun x hx => ?_
  have hdivided := within_of_reading hn hvalues hx
  exact .bind (Context.upholds_onArray (fun d hd => .onSecond (TensorArray.upholds_split hd _ hdivided)) k)
    fun _ _ => upholds_done

theorem upholds_queueDequeueUpTo : (queueDequeueUpTo n values).Upholds (Beside Named (Context.Holding T)) := by
  refine .bind (upholds_reading (n.unbroken_intParam values) _) fun _ _ => .bind .state fun p _ =>
    .bind (.lift (p.2.unbroken_queueNumber _)) fun k _ =>
    .bind (upholds_reading (n.unbroken_intParam values) _) fun num _ =>
    .bind (upholds_reading (n.unbroken_param values) _) fun dtypes _ => ?_
  exact .bind (Context.upholds_onQueue (fun _ _ => Queue.upholds_dequeueUpTo _ _) k) fun _ _ => .pure _

theorem upholds_makeArray (spec : TensorArray.Spec) : Upholds (Beside Named (Context.Holding T)) (do
    let a ← TensorArray.make (← get).1 spec
    handle (← Context.addArray a)) := by
  refine .bind .state fun p hp => .bind (.lift (TensorArray.unbroken_make p.1 spec)) fun a ha => ?_
  obtain ⟨hid, hd, hheld⟩ := TensorArray.holding_of_make hp.of_state.1 ha.of_lift
  exact .bind (Context.upholds_addArray hid hd hheld) fun k _ => upholds_handle k

theorem upholds_tensorArray : (tensorArray n values).Upholds (Beside Named (Context.Holding T)) := by
  refine .bind (upholds_reading (n.unbroken_paramOr values · · _) _) fun _ _ =>
    .bind (upholds_reading (n.unbroken_param values) _) fun _ _ =>
    .bind (upholds_reading (n.unbroken_intParamOr values · · 0) _) fun _ _ =>
    .bind (upholds_reading (n.unbroken_param values) _) fun _ _ =>
    .bind (upholds_reading (n.unbroken_boolParamOr values · · false) _) fun _ _ =>
    .bind (upholds_reading (n.unbroken_boolParamOr values · · false) _) fun _ _ =>
    .bind (upholds_reading (n.unbroken_boolParamOr values · · true) _) fun _ _ => upholds_makeArray _

theorem upholds_makeQueue (spec : Queue.Spec) : Upholds (Beside Named (Context.Holding T)) (do
    let q ← Queue.make (← get).1 spec
    handle (← Context.addQueue q)) := by
  refine .bind .state fun p hp => .bind (.lift (Queue.unbroken_make p.1 spec)) fun q hq => ?_
  obtain ⟨hds, hheld⟩ := Queue.holding_of_make hp.of_state.1 hq.of_lift
  exact .bind (Context.upholds_addQueue (Queue.id_of_make hq.of_lift) hds hheld) fun k _ => upholds_handle k

theorem upholds_fifoQueue : (fifoQueue n values).Upholds (Beside Named (Context.Holding T)) := by
  refine .bind (upholds_reading (n.unbroken_param values) _) fun _ _ =>
    .bind (upholds_reading (n.unbroken_param values) _) fun _ _ =>
    .bind (upholds_reading (n.unbroken_intParamOr values · · 0) _) fun _ _ =>
    .bind (upholds_reading (n.unbroken_paramOr values · · _) _) fun _ _ =>
    .bind (upholds_reading (n.unbroken_paramOr values · · _) _) fun _ _ => upholds_makeQueue _

end Visit

/-! ### Runs -/

namespace Node

variable {n : Node} {values : Values}

/-- A visit breaks no premise of the library and upholds what the objects of a context hold. -/
theorem upholds_visit (hn : n.Within T) (hvalues : values.Within T) :
    (n.visit values).Upholds (Beside Named (Context.Holding T)) := by
  cases hop : n.controlOp? with
  | none =>
    have hunsupported : n.visit values = throw (.unsupported n.op) := by rw [visit, hop]
    rw [hunsupported]
    exact .throw rfl
  | some op =>
    rw [visit_eq hop]
    cases op with
    | loopCond => exact Visit.upholds_loopCond
    | switch => exact Visit.upholds_switch
    | merge => exact Visit.upholds_merge
    | enter => exact Visit.upholds_enter
    | exit => exact Visit.upholds_exit
    | nextIteration => exact Visit.upholds_nextIteration
    | tensorArray => exact Visit.upholds_tensorArray
    | tensorArrayWrite => exact Visit.upholds_tensorArrayWrite hn hvalues
    | tensorArrayRead => exact Visit.upholds_tensorArrayRead
    | tensorArrayGather => exact Visit.upholds_tensorArrayGather
    | tensorArrayScatter => exact Visit.upholds_tensorArrayScatter hn hvalues
    | tensorArrayConcat => exact Visit.upholds_tensorArrayConcat
    | tensorArraySplit => exact Visit.upholds_tensorArraySplit hn hvalues
    | tensorArraySize => exact Visit.upholds_tensorArraySize
    | tensorArrayClose => exact Visit.upholds_tensorArrayClose
    | fifoQueue => exact Visit.upholds_fifoQueue
    | queueDequeueUpTo => exact Visit.upholds_queueDequeueUpTo

end Node

theorem Context.upholds_enqueue (k : Nat) {xs : List Value} (hxs : ∀ x ∈ xs, x.Within T) :
    (onQueue k (Queue.call .enqueue xs)).Upholds (Beside Named (Holding T)) :=
  upholds_onQueue (fun _ hds => .bind .state fun _ _ => .bind (.onSecond (Queue.upholds_enqueue hds hxs)) fun _ _ =>
    .pure _) k

namespace ContextUse

/-- A visit, or an enqueue, with tensors of types in a family. -/
inductive Ordinary (T : DType.Family) : ContextUse → Prop
  | visit {n : Node} {values : Values} (hn : n.Within T) (hvalues : values.Within T) : Ordinary T (.visit n values)
  | enqueue {k : Nat} {xs : List Value} (hxs : ∀ x ∈ xs, x.Within T) : Ordinary T (.callQueue k .enqueue xs)

variable {u : ContextUse} {uses : List ContextUse} {s : Session}

theorem Ordinary.keeps (hu : u.Ordinary T) {p : Session × Context} (hp : Beside Named (Context.Holding T) p) :
    Beside Named (Context.Holding T) (u.after p) := by
  cases hu with
  | visit hn hvalues => exact (Node.upholds_visit hn hvalues).keeps p hp
  | enqueue hxs => exact (Context.upholds_enqueue _ hxs).keeps p hp

theorem holding_run (hs : s.Named) (huses : ∀ u ∈ uses, u.Ordinary T) :
    Beside Named (Context.Holding T) (run s uses) := by
  induction uses using List.reverseRecOn with
  | nil => exact ⟨hs, Context.holding_initial⟩
  | append_singleton uses u ih =>
    rw [run_concat]
    exact (huses u (by simp)).keeps (ih fun v hv => huses v (List.mem_append_left _ hv))

/-- After any run of visits and enqueues, no visit and no enqueue breaks a premise of the library. Their tensors may be
    of any types and on any devices, but types of one name are one type. -/
theorem premises_hold (hs : s.Named) (huses : ∀ u ∈ uses, u.Ordinary T) :
    (∀ (n : Node) (values : Values), n.Within T → values.Within T → ∀ p,
        (n.visit values (run s uses)).1 ≠ .error (.premise p)) ∧
      ∀ k xs, (∀ x ∈ xs, Value.Within T x) → ∀ p,
        (Context.onQueue k (Queue.call .enqueue xs) (run s uses)).1 ≠ .error (.premise p) := by
  have hholding := holding_run hs huses
  refine ⟨fun n values hn hvalues p he => ?_, fun k xs hxs p he => ?_⟩
  · exact absurd ((Node.upholds_visit hn hvalues).unbroken _ hholding _ he) (by simp)
  · exact absurd ((Context.upholds_enqueue k hxs).unbroken _ hholding _ he) (by simp)

/-- An array and a queue for complex numbers, which are registered for it: tensors of either backend come to lie beside
    each other in the array, and to gather them is refused without a broken premise. -/
theorem premises_hold_two_backends :
    let s := (Session.registerDType ⟨.text "complex128", none, .int 16⟩ (.initial [] true false)).2
    let array : Node := ⟨"a", .text "tensorArray", [], [], [("dtype", .text "complex128"), ("size", .int 2)]⟩
    let queue : Node := ⟨"q", .text "fifoQueue", [], [], [("dtypes", .list [.text "complex128"])]⟩
    let write (i : Int) : Node := ⟨"w", .text "tensorArrayWrite", ["x"], [("tensor", ⟨0, none, .tensor⟩)],
      [("tensorArrayId", .int 0), ("index", .int i)]⟩
    let gather : Node := ⟨"g", .text "tensorArrayGather", [], [],
      [("tensorArrayId", .int 0), ("indices", .list [.int 0, .int 1])]⟩
    let x : Tensor := .zeros .host .complex128 []
    let y : Tensor := .zeros .torch .complex128 []
    let uses : List ContextUse := [.visit array [], .visit queue [], .visit (write 0) [("x", [some x])],
      .visit (write 1) [("x", [some y])], .callQueue 0 .enqueue [.tensor x]]
    s.Named ∧ (∀ u ∈ uses, u.Ordinary .offered) ∧
      (run s uses).2.arrays.map (fun a => a.slots.map Slot.tensor) = [[some x, some y]] ∧
      (run s uses).2.queues.map Queue.tuples = [[[x]]] ∧
      (∀ p, (gather.visit [] (run s uses)).1 ≠ .error (.premise p)) ∧
      ∀ p, (Context.onQueue 0 (Queue.call .enqueue [.tensor y]) (run s uses)).1 ≠ .error (.premise p) := by
  intro s array queue write gather x y uses
  have hs : s.Named := Session.named_initial.registerDType nofun
  let T : DType.Family := .offered
  have hx : x.dtype ∈ T := DType.Family.mem_offered.mpr (.own (by decide))
  have hy : y.dtype ∈ T := hx
  have hvalues (z : Tensor) (hz : z.dtype ∈ T) : Values.Within T [("x", [some z])] := by
    simpa [Values.Within] using hz
  have hnodes : array.Within T ∧ queue.Within T ∧ (∀ i, (write i).Within T) ∧ gather.Within T := by
    simp only [Node.Within, array, queue, write, gather, List.forall_mem_cons]
    exact ⟨⟨nofun, nofun, nofun⟩, ⟨nofun, nofun⟩, fun _ => ⟨nofun, nofun, nofun⟩, nofun, nofun, nofun⟩
  have htensor (z : Tensor) (hz : z.dtype ∈ T) : ∀ v ∈ [Value.tensor z], v.Within T := by
    simpa [Value.Within] using hz
  obtain ⟨harray, hqueue, hwrite, hgather⟩ := hnodes
  have huses : ∀ u ∈ uses, u.Ordinary T := by
    simp only [uses, List.forall_mem_cons]
    exact ⟨.visit harray nofun, .visit hqueue nofun, .visit (hwrite 0) (hvalues x hx),
      .visit (hwrite 1) (hvalues y hy), .enqueue (htensor x hx), nofun⟩
  obtain ⟨hvisit, henqueue⟩ := premises_hold hs huses
  exact ⟨hs, huses, by decide +kernel, by decide +kernel, hvisit gather [] hgather nofun,
    henqueue 0 _ (htensor y hy)⟩

end ContextUse

end Dataflow
