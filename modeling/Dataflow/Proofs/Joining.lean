import Dataflow.Dispatch.Structure
import Dataflow.Proofs.Rows
import Dataflow.Proofs.Selection
import Mathlib.Data.List.TakeWhile

/-! Joining of tensors of one device. The table of the library selects the kernel of their device, and the kernel stacks
    tensors of one element type and one shape as long as the stack is within the limits of an array. -/

namespace Dataflow

/-! ### The operands of a kernel -/

variable {b : Device} {d : DType} {s : Shape} {x : Tensor} {xs : List Tensor}

theorem Operator.apply_joining {op : Operator} (hop : op.kind.joins) (hne : xs ≠ []) (hb : ∀ x ∈ xs, x.device = b) :
    op.apply xs = Kernel.run b op.kind (.operator op :: xs.map .tensor) := by
  have hlookup : (Table.builtin [.host, .torch]).lookup (Table.typesBeside op.kind (xs.map Tensor.device)) =
      .ok (.kernel b op.kind) :=
    ((Table.decides_joining hop (by simpa using hne)).found _).mpr ⟨b, rfl, List.forall_mem_map.mpr hb⟩
  rw [Operator.apply, Table.types_beside, hlookup]
  rfl

namespace Kernel

theorem mapM_tensorOf (xs : List Tensor) : (xs.map Operand.tensor).mapM tensorOf = .ok xs :=
  Outcome.mapM_map_ok (f := tensorOf) (fun _ => rfl) xs

theorem tensorsOf_host (operation : String) (xs : List Tensor) :
    tensorsOf .host operation (xs.map .tensor) = (Host.requireSameDType operation xs >>= fun _ => .ok xs) := by
  have hknown : ((xs.map Operand.tensor).takeWhile (·.tensor?.isSome)).filterMap Operand.tensor? = xs := by
    rw [List.takeWhile_eq_self_iff.mpr fun o ho => ?_, List.filterMap_map]
    · exact List.filterMap_some
    · obtain ⟨x, -, rfl⟩ := List.mem_map.mp ho
      rfl
  simp only [tensorsOf, hknown, mapM_tensorOf]

theorem tensorsOf_tensors {operation : String} (h : Host.requireSameDType operation xs = .ok ()) (b : Device) :
    tensorsOf b operation (xs.map .tensor) = .ok xs := by
  cases b with
  | torch => exact mapM_tensorOf xs
  | host => rw [tensorsOf_host, h, Outcome.ok_bind]

end Kernel

theorem Host.requireSameDType_ok {operation : String} (h : ∀ x ∈ xs, x.dtype = d) :
    Host.requireSameDType operation xs = .ok () := by
  cases xs with
  | nil => rfl
  | cons x xs =>
    have hnone : xs.find? (·.dtype ≠ x.dtype) = none := by
      rw [List.find?_eq_none]
      intro y hy
      simp [h x List.mem_cons_self, h y (List.mem_cons_of_mem _ hy)]
    rw [Host.requireSameDType, hnone]

/-- A joining operator asks the kernel of its device for a single tensor. -/
theorem Operator.applySingle_joining {op : Operator} {name : String} {kernel : List Tensor → Outcome Tensor}
    (hop : op.kind.joins) (hne : xs ≠ []) (hb : ∀ x ∈ xs, x.device = b)
    (hrun : Kernel.run b op.kind (.operator op :: xs.map .tensor) = do
      return [← kernel (← Kernel.tensorsOf b name (xs.map .tensor))]) :
    op.applySingle xs = Kernel.tensorsOf b name (xs.map .tensor) >>= kernel := by
  rw [applySingle, apply_joining hop hne hb, hrun]
  cases Kernel.tensorsOf b name (xs.map .tensor) with
  | error e => rfl
  | ok ys =>
    rw [Outcome.ok_bind, Outcome.ok_bind]
    cases kernel ys <;> rfl

/-! ### Stacking -/

theorem Tensor.not_any_shape (hs : ∀ y ∈ x :: xs, y.shape = s) : ¬xs.any (·.shape ≠ x.shape) = true := by
  simp only [List.any_eq_true, not_exists, not_and, decide_eq_true_eq]
  intro y hy
  rw [hs x List.mem_cons_self, hs y (List.mem_cons_of_mem _ hy)]
  exact fun h => h rfl

namespace Host

variable {z : Tensor}

theorem stack_along {a : Int} {k : Nat} (hword : word 32 .tooLarge a = .ok a)
    (ha : position? (x.rank + 1) a = some k) :
    stack (.int a) (x :: xs) = requireSameDType "stack" (x :: xs) >>= fun _ =>
      if xs.any (·.shape ≠ x.shape) then .error .badValue
      else if Shape.axisLimit ≤ x.rank then .error .indexOutOfRange
      else joined (Tensor.stack? k (x :: xs)) := by
  have haxis : axisOf (x.rank + 1) a = .ok k := by rw [axisOf, ha]
  simp only [stack, Value.position, Outcome.ok_bind, hword, haxis]
  rfl

theorem stack_eq (x : Tensor) (xs : List Tensor) :
    stack (.int 0) (x :: xs) = requireSameDType "stack" (x :: xs) >>= fun _ =>
      if xs.any (·.shape ≠ x.shape) then .error .badValue
      else if Shape.axisLimit ≤ x.rank then .error .indexOutOfRange
      else joined (Tensor.stack? 0 (x :: xs)) :=
  stack_along rfl (position?_ofNat (Nat.zero_lt_succ _))

theorem stack_ok (hxs : ∀ y ∈ x :: xs, y.dtype = d ∧ y.shape = s) (hrank : s.length < Shape.axisLimit)
    (hroom : Shape.fits ((xs.length + 1) :: s) d.size = true) :
    ∃ z, stack (.int 0) (x :: xs) = .ok z ∧ Tensor.Stacks x.device d s (x :: xs) z := by
  have hs : ∀ y ∈ x :: xs, y.shape = s := fun y hy => (hxs y hy).2
  obtain ⟨z, hz, hstacks⟩ := Tensor.stack?_outermost hs
  obtain ⟨hdtype, hshape⟩ := hxs x List.mem_cons_self
  have hlimit : ¬Shape.axisLimit ≤ x.rank := by
    rw [Tensor.rank, hshape]
    exact Nat.not_le.mpr hrank
  rw [hdtype] at hstacks
  refine ⟨z, ?_, hstacks⟩
  rw [stack_eq, requireSameDType_ok fun y hy => (hxs y hy).1, Outcome.ok_bind, if_neg (Tensor.not_any_shape hs),
    if_neg hlimit, hz, joined, hstacks.shape, hstacks.dtype, List.length_cons, if_pos hroom]

theorem dtype_of_requireSameDType {operation : String} (h : requireSameDType operation (x :: xs) = .ok ()) :
    ∀ y ∈ x :: xs, y.dtype = x.dtype := by
  rw [requireSameDType] at h
  split at h
  · cases h
  · rename_i hnone
    refine List.forall_mem_cons.mpr ⟨rfl, fun y hy => ?_⟩
    simpa using List.find?_eq_none.mp hnone y hy

theorem joined_eq_ok {o : Option Tensor} (h : joined o = .ok z) : o = some z ∧ z.shape.fits z.dtype.size = true := by
  unfold joined at h
  split at h
  · split at h <;> cases h
    exact ⟨rfl, by assumption⟩
  · cases h

/-- Tensors that the host stacks are of one element type and one shape, and are within its limits. -/
theorem stack_eq_ok (h : stack (.int 0) (x :: xs) = .ok z) :
    (∀ y ∈ x :: xs, y.dtype = x.dtype ∧ y.shape = x.shape) ∧ x.rank < Shape.axisLimit ∧
      Tensor.stack? 0 (x :: xs) = some z ∧ z.shape.fits z.dtype.size = true := by
  rw [stack_eq] at h
  obtain ⟨⟨⟩, hdtypes, h⟩ := Outcome.bind_eq_ok.mp h
  split at h
  · cases h
  rename_i hshapes
  split at h
  · cases h
  rename_i hrank
  refine ⟨fun y hy => ⟨dtype_of_requireSameDType hdtypes y hy, ?_⟩, Nat.not_le.mp hrank, joined_eq_ok h⟩
  rcases List.mem_cons.mp hy with rfl | hy
  · rfl
  · by_contra hne
    exact hshapes (List.any_eq_true.mpr ⟨y, hy, decide_eq_true hne⟩)

end Host

namespace Torch

theorem common?_self (d : DType) : common? d d = some d := by
  cases d with
  | other name size h => simp [common?, commonReal?, DType.isComplex, DType.parts]
  | _ => rfl

theorem commonDType_ok (hxs : ∀ y ∈ x :: xs, y.dtype = d) : commonDType (x :: xs) = .ok d := by
  have hcommon : xs.foldlM (fun c (y : Tensor) => common? c y.dtype) d = some d := by
    have hrest : ∀ y ∈ xs, y.dtype = d := fun y hy => hxs y (List.mem_cons_of_mem _ hy)
    clear hxs
    induction xs with
    | nil => rfl
    | cons y xs ih =>
      rw [List.foldlM_cons, hrest y List.mem_cons_self, common?_self]
      exact ih fun z hz => hrest z (List.mem_cons_of_mem _ hz)
  rw [commonDType, hxs x List.mem_cons_self, hcommon]

/-- Tensors that have the common type are joined as they are. -/
theorem joined_eq {join : List Tensor → Option Tensor} {z : Tensor} (hxs : ∀ y ∈ x :: xs, y.dtype = d)
    (hz : join (x :: xs) = some z) : joined join (x :: xs) = .ok z := by
  have hcast : ((x :: xs).map fun y => y.cast d) = x :: xs :=
    (List.map_congr_left fun y hy => if_pos (hxs y hy)).trans (List.map_id _)
  rw [joined, commonDType_ok hxs, Outcome.ok_bind, hcast, hz]
  rfl

theorem stack_along {z : Tensor} {a : Int} {k : Nat} (hword : Storage.holds true 64 a = true)
    (ha : position? (s.length + 1) a = some k) (hxs : ∀ y ∈ x :: xs, y.dtype = d ∧ y.shape = s)
    (hz : Tensor.stack? k (x :: xs) = some z) : stack (.int a) (x :: xs) = .ok z := by
  have hrank : x.rank = s.length := congrArg List.length (hxs x List.mem_cons_self).2
  have haxis : positionOf (x.rank + 1) a = .ok k := by rw [positionOf, hrank, ha]
  have hword : word .badValue a = .ok a := if_pos hword
  simp only [stack, number, Outcome.ok_bind, hword, haxis, if_neg (Tensor.not_any_shape fun y hy => (hxs y hy).2)]
  exact joined_eq (fun y hy => (hxs y hy).1) hz

theorem stack_eq {z : Tensor} (hxs : ∀ y ∈ x :: xs, y.dtype = d ∧ y.shape = s)
    (hz : Tensor.stack? 0 (x :: xs) = some z) : stack (.int 0) (x :: xs) = .ok z :=
  stack_along rfl (position?_ofNat (Nat.zero_lt_succ _)) hxs hz

theorem stack_ok (hxs : ∀ y ∈ x :: xs, y.dtype = d ∧ y.shape = s) :
    ∃ z, stack (.int 0) (x :: xs) = .ok z ∧ Tensor.Stacks x.device d s (x :: xs) z := by
  obtain ⟨z, hz, hstacks⟩ := Tensor.stack?_outermost fun y hy => (hxs y hy).2
  rw [(hxs x List.mem_cons_self).1] at hstacks
  exact ⟨z, stack_eq hxs hz, hstacks⟩

end Torch

/-- A stack is the kernel of the device of the tensors. -/
theorem Tensor.stack_eq (hne : xs ≠ []) (hb : ∀ x ∈ xs, x.device = b) (axis : Value) :
    Tensor.stack xs axis = Kernel.tensorsOf b "stack" (xs.map .tensor) >>= Kernel.stack b axis := by
  rw [Tensor.stack, if_neg fun hempty => hne (List.isEmpty_iff.mp hempty)]
  exact Operator.applySingle_joining (Or.inl rfl) hne hb rfl

/-- Tensors of one device, one element type and one shape can be stacked, as long as an array of the host can hold the
    stack. -/
theorem Tensor.stack_ok (hne : xs ≠ []) (hxs : ∀ x ∈ xs, x.device = b ∧ x.dtype = d ∧ x.shape = s)
    (hrank : b = .host → s.length < Shape.axisLimit) (hroom : b = .host → Shape.fits (xs.length :: s) d.size = true) :
    ∃ z, Tensor.stack xs (.int 0) = .ok z ∧ Tensor.Stacks b d s xs z := by
  have hsame : ∀ y ∈ xs, y.dtype = d ∧ y.shape = s := fun y hy => (hxs y hy).2
  rw [Tensor.stack_eq hne fun x hx => (hxs x hx).1,
    Kernel.tensorsOf_tensors (Host.requireSameDType_ok fun y hy => (hsame y hy).1), Outcome.ok_bind]
  obtain ⟨x, xs, rfl⟩ := List.exists_cons_of_ne_nil hne
  have hdevice : x.device = b := (hxs x List.mem_cons_self).1
  cases b with
  | host =>
    obtain ⟨z, hz, hstacks⟩ := Host.stack_ok hsame (hrank rfl) (hroom rfl)
    exact ⟨z, hz, hdevice ▸ hstacks⟩
  | torch =>
    obtain ⟨z, hz, hstacks⟩ := Torch.stack_ok hsame
    exact ⟨z, hz, hdevice ▸ hstacks⟩

end Dataflow
