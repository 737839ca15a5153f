import Dataflow.Proofs.VisitEffects

/-! Handles: the tensors that stand for tensor arrays and queues. A handle holds the number of its object as an integer of
    the type that the settings choose for numbers; where this type has no such integer there is no handle. Objects keep
    their numbers, so a handle stands for one object from then on, and no other handle of the kind is equal to it. -/

namespace Dataflow

/-! ### Integers in tensors -/

namespace Storage

variable {signed : Bool} {bits : Nat} {n : Int}

theorem holds_iff : holds signed bits n = true ↔ lowest signed bits ≤ n ∧ n ≤ highest signed bits := by
  simp [holds]

end Storage

theorem DType.standard_of_integer {d : DType} {signed : Bool} {bits : Nat} (hd : d.storage = .integer signed bits) :
    d ∈ standard ∧ 0 < bits := by
  cases d <;> simp only [storage, Storage.integer.injEq, reduceCtorEq] at hd <;> obtain ⟨rfl, rfl⟩ := hd <;> decide

namespace Kernel

variable {d : DType} {signed : Bool} {bits : Nat} {b : Device} {x : Tensor}

theorem host_constant_int (hd : d ∈ DType.standard) (n : Int) :
    Host.constant (.int n) (.text d.name) = Tensor.scalar .host d <$> Host.integerElement d n := by
  have helements : Host.elements (.known d) [] (.int n) = (fun e => [e]) <$> Host.integerElement d n := by
    show (do return List.replicate 1 (← Host.integerElement d n)) = _
    cases Host.integerElement d n <;> rfl
  have hin : (CodedType.known d).inArray = (.known d, []) := rfl
  simp only [Host.constant, Host.typeFor_standard hd, Outcome.ok_bind, Outcome.pure_eq, hin, helements]
  cases Host.integerElement d n <;> rfl

theorem torch_constant_int (hd : d ∈ DType.standard) (n : Int) :
    Torch.constant (.int n) (.text d.name) = (fun e => .scalar .torch d (e.cast d)) <$> Torch.ofInteger d n := by
  have helement : Torch.stored (.known d) (.int n) = (Element.cast d ·) <$> Torch.ofInteger d n := by
    show (do return (← Torch.ofInteger d n).cast d) = _
    cases Torch.ofInteger d n <;> rfl
  have hshape : Torch.announcedShape (.int n) = .ok [] := rfl
  have hsize : ¬Shape.size [] = 0 := by decide
  simp only [Torch.constant, Torch.typeFor_standard hd, Outcome.ok_bind, Torch.nestedTensor, hshape, if_neg hsize,
    Torch.elementsOf, helement]
  cases Torch.ofInteger d n <;> rfl

end Kernel

namespace Session

variable {s t : Session} {value dtype device : Value} {x : Tensor}

/-- However a creation is dispatched, what it answers with is what a kernel of one of the backends makes. -/
theorem kernel_of_run {op : Operator} {redirects : Nat} {device : Value} {s t : Session} {xs : List Tensor}
    (h : Dispatch.run means redirects [.placed (.operator op) device] s = (.ok (.tensors xs), t)) :
    ∃ b kind device, Kernel.run b kind [.placed (.operator op) device] = .ok xs := by
  rw [Dispatch.run] at h
  obtain ⟨implementation, s, -, h⟩ := Action.bind_eq_ok.mp h
  cases implementation with
  | named name => cases h
  | kernel b kind =>
    obtain ⟨ys, u, hys, h⟩ := Action.bind_eq_ok.mp h
    obtain ⟨known, v, -, h⟩ := Action.bind_eq_ok.mp h
    cases h
    exact ⟨b, kind, device, congrArg Prod.fst hys⟩
  | redirect =>
    obtain ⟨name, s, -, h⟩ := Action.bind_eq_ok.mp h
    cases redirects with
    | zero => cases h
    | succ n => exact kernel_of_run h

theorem kernel_of_create {op : Operator} (h : create op device s = (.ok x, t)) :
    ∃ b kind device, Kernel.run b kind [.placed (.operator op) device] = .ok [x] := by
  obtain ⟨answer, u, hrun, h⟩ := Action.bind_eq_ok.mp h
  split at h
  · cases h
    exact kernel_of_run hrun
  · cases h

end Session

/-! ### What a run keeps of its session -/

namespace Session

open Dataflow.Action (Confined)

variable {τ α : Type}

theorem alike_recorded (source : LogSource) (text : String) (s : Session) : s.Alike (s.recorded source text) := by
  unfold recorded
  split
  · exact alike_logging source text s
  · exact .refl s

end Session

namespace ContextUse

end ContextUse

/-! ### Objects and what works on them -/

namespace Context

variable {c d : Context} {o : Object}

/-- The object of a number. -/
def find (c : Context) : Object → Option (TensorArray ⊕ Queue)
  | .array k => (c.arrays[k]?).map .inl
  | .queue k => (c.queues[k]?).map .inr

theorem find_of_eq (h : d.arrays = c.arrays ∧ d.queues = c.queues) (o : Object) : d.find o = c.find o := by
  cases o with
  | array k => rw [find, find, h.1]
  | queue k => rw [find, find, h.2]

theorem Touched.find {o' : Option Object} (h : c.Touched o' d) (ho : o' ≠ some o) : d.find o = c.find o := by
  cases o with
  | array k => rw [Context.find, Context.find, h.arrays k ho]
  | queue k => rw [Context.find, Context.find, h.queues k ho]

theorem find_withArrays (a : TensorArray) (ho : (c.find o).isSome) :
    (c.withArrays (c.arrays ++ [a])).find o = c.find o := by
  cases o with
  | queue k => rfl
  | array k =>
    have hk : k < c.arrays.length := by simpa [find] using ho
    rw [find, find, withArrays, List.getElem?_append_left hk]

theorem find_withQueues (q : Queue) (ho : (c.find o).isSome) :
    (c.withQueues (c.queues ++ [q])).find o = c.find o := by
  cases o with
  | array k => rfl
  | queue k =>
    have hk : k < c.queues.length := by simpa [find] using ho
    rw [find, find, withQueues, List.getElem?_append_left hk]

theorem GainsArray.find (h : c.GainsArray d) (ho : (c.find o).isSome) : d.find o = c.find o := by
  rcases h with rfl | ⟨a, rfl⟩
  · rfl
  · exact find_withArrays _ ho

theorem GainsQueue.find (h : c.GainsQueue d) (ho : (c.find o).isSome) : d.find o = c.find o := by
  rcases h with rfl | ⟨q, rfl⟩
  · rfl
  · exact find_withQueues _ ho

end Context

theorem Node.Affects.find {n : Node} {values : Values} {c d : Context} {answer : Outcome (Option Outputs)} {o : Object}
    (h : n.Affects values c answer d) (ho : (c.find o).isSome) (hobject : n.object? values c ≠ some o) :
    d.find o = c.find o := by
  unfold Affects at h
  split at h
  case h_5 | h_6 | h_7 => exact Context.find_of_eq ⟨h.arrays, h.queues⟩ o
  case h_8 => exact h.find ho
  case h_9 => exact h.find ho
  case h_10 => exact h.find hobject
  all_goals rw [h]

namespace ContextUse

/-- The object that a use works on. -/
def object? : ContextUse → Session × Context → Option Object
  | visit n values, p => n.object? values p.2
  | callArray k _ _, _ => some (.array k)
  | callQueue k _ _, _ => some (.queue k)
  | _, _ => none

end ContextUse

/-! ### Kinds of objects -/

/-- The kinds of objects that a context has. -/
inductive ObjectKind where
  | array
  | queue

namespace ObjectKind

/-- The operation that makes an object of a kind. -/
def maker : ObjectKind → ControlOp
  | array => .tensorArray
  | queue => .fifoQueue

/-- The parameter that names an object of a kind. -/
def param : ObjectKind → String
  | array => "tensorArrayId"
  | queue => "fifoQueueId"

def object : ObjectKind → Nat → Object
  | array => .array
  | queue => .queue

/-- How many objects of a kind a context has. -/
def count : ObjectKind → Context → Nat
  | array, c => c.arrays.length
  | queue, c => c.queues.length

/-- The numbers that the objects of a kind keep themselves. -/
def ids : ObjectKind → Context → List (Option Nat)
  | array, c => c.arrays.map TensorArray.id
  | queue, c => c.queues.map Queue.id

/-- One object of a kind is new, under the next number, and nothing else has changed. -/
def Gains : ObjectKind → Context → Context → Prop
  | array, c, d => ∃ a, d = c.withArrays (c.arrays ++ [Context.numbered c.arrays.length a])
  | queue, c, d => ∃ q, d = c.withQueues (c.queues ++ [Context.numberedQueue c.queues.length q])

/-- The number of the object of a kind that a node works on. -/
def numberAt : ObjectKind → Node → Values → Context → Outcome Nat
  | array, n, values, c => n.arrayAt values c
  | queue, n, values, c => n.queueAt values c

variable {kind : ObjectKind} {n : Node} {values : Values} {s t : Session} {c d : Context} {o : Option Outputs}

theorem Gains.ids (h : kind.Gains c d) : kind.ids d = kind.ids c ++ [some (kind.count c)] := by
  cases kind with
  | array =>
    obtain ⟨a, rfl⟩ := h
    exact List.map_append
  | queue =>
    obtain ⟨q, rfl⟩ := h
    exact List.map_append

end ObjectKind

/-! ### Nodes that are given a handle -/

namespace Node

variable {n : Node} {values : Values} {p : Session × Context} {x : Tensor} {k : Nat}

theorem Takes.numberAt {kind : ObjectKind} {c : Context} (h : n.Takes values c.ids kind.param .number x)
    (hx : x.Counts k) (hk : k < kind.count c) : kind.numberAt n values c = .ok k := by
  have hid := h.intParam hx.readsAs
  cases kind with
  | array =>
    show n.arrayAt values c = .ok k
    rw [arrayAt, show n.intParam values c.ids "tensorArrayId" = .ok k from hid]
    exact Context.arrayNumber_eq hk
  | queue =>
    show n.queueAt values c = .ok k
    rw [queueAt, show n.intParam values c.ids "fifoQueueId" = .ok k from hid]
    exact Context.queueNumber_eq hk

end Node

namespace ContextUse

variable {s : Session} {e : DType} {signed : Bool} {bits : Nat} {kind : ObjectKind} {n : Node}

end ContextUse

end Dataflow
