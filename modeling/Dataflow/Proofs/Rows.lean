import Dataflow.Tensor.Basic

/-! Tensors along their outermost axis. In row-major order the parts of a tensor at the positions of this axis stand one
    after the other, so that joining tensors there joins their elements, and a stack has the tensors that it was made
    of as its parts. -/

namespace Dataflow

namespace Blocks

theorem getElem?_blocks {α : Type} {n c i : Nat} {l : List α} (h : i < n) :
    (blocks n c l)[i]? = some ((l.drop (i * c)).take c) := by
  induction n generalizing i l with
  | zero => exact absurd h (Nat.not_lt_zero i)
  | succ n ih =>
    cases i with
    | zero => simp [blocks]
    | succ i =>
      rw [blocks, List.getElem?_cons_succ, ih (Nat.lt_of_succ_lt_succ h), List.drop_drop, Nat.succ_mul, Nat.add_comm c]

end Blocks

namespace Tensor

open Blocks

variable {x y : Tensor} {xs : List Tensor} {s : Shape} {n m : Nat}

theorem ofList?_eq_some {device : Device} {dtype : DType} {data : List Element} (h : data.length = s.size) :
    ofList? device dtype s data = some ⟨device, dtype, s, data, h⟩ := dif_pos h

theorem eq_ofList? (x : Tensor) : ofList? x.device x.dtype x.shape x.data = some x := ofList?_eq_some x.length_data

theorem blocks_data (hx : x.shape = n :: s) : blocks 1 (n * s.size) x.data = [x.data] := by
  have hlength : x.data.length = n * s.size := by rw [x.length_data, hx, Shape.size_cons]
  rw [blocks, List.take_of_length_le (Nat.le_of_eq hlength), blocks]

/-! ### Joining -/

theorem append?_outermost (hx : x.shape = n :: s) (hy : y.shape = m :: s) :
    append? 0 x y = ofList? x.device x.dtype ((n + m) :: s) (x.data ++ y.data) := by
  have hdx := blocks_data hx
  have hdy := blocks_data hy
  have hlength : (x.data ++ y.data).length = Shape.size ((n + m) :: s) := by
    rw [List.length_append, x.length_data, y.length_data, hx, hy, Shape.size_cons, Shape.size_cons, Shape.size_cons,
      Nat.add_mul]
  rw [ofList?_eq_some hlength]
  obtain ⟨dx, tx, _, ex, lx⟩ := x
  obtain ⟨dy, ty, _, ey, ly⟩ := y
  subst hx hy
  simp only [append?, cut?, and_self, dite_true, ofRows, rows, Shape.size_nil, List.nil_append] at hdx hdy ⊢
  simp only [hdx, hdy, List.zipWith_cons_cons, List.zipWith_nil_left, List.flatten_cons, List.flatten_nil,
    List.append_nil]

theorem foldlM_append?_outermost (hx : x.shape = n :: s) (hxs : ∀ y ∈ xs, y.shape = 1 :: s) :
    xs.foldlM (append? 0) x =
      ofList? x.device x.dtype ((n + xs.length) :: s) (x.data ++ xs.flatMap data) := by
  induction xs generalizing x n with
  | nil =>
    rw [List.length_nil, List.flatMap_nil, List.append_nil, Nat.add_zero, ← hx, eq_ofList?]
    rfl
  | cons y xs ih =>
    have hy := hxs y List.mem_cons_self
    have hlength : (x.data ++ y.data).length = Shape.size ((n + 1) :: s) := by
      rw [List.length_append, x.length_data, y.length_data, hx, hy, Shape.size_cons, Shape.size_cons, Shape.size_cons,
        Nat.add_mul]
    rw [List.foldlM_cons, append?_outermost hx hy, ofList?_eq_some hlength]
    refine (ih rfl fun z hz => hxs z (List.mem_cons_of_mem _ hz)).trans ?_
    rw [List.length_cons, List.flatMap_cons, Nat.add_assoc, Nat.add_comm 1, List.append_assoc]

theorem concat?_outermost (hx : x.shape = n :: s) (hxs : ∀ y ∈ xs, y.shape = 1 :: s) :
    concat? 0 (x :: xs) = ofList? x.device x.dtype ((n + xs.length) :: s) (x.data ++ xs.flatMap data) := by
  rw [← foldlM_append?_outermost hx hxs]
  cases xs with
  | nil =>
    rw [concat?, hx]
    rfl
  | cons y xs => rfl

/-! ### Stacks -/

/-- A tensor that consists of tensors of one shape along its outermost axis. -/
structure Stacks (device : Device) (dtype : DType) (s : Shape) (xs : List Tensor) (z : Tensor) : Prop where
  device : z.device = device
  dtype : z.dtype = dtype
  shape : z.shape = xs.length :: s
  data : z.data = xs.flatMap Tensor.data

/-- A tensor as the only part of another one. -/
def raised (x : Tensor) : Tensor :=
  ⟨x.device, x.dtype, 1 :: x.shape, x.data, by rw [Shape.size_cons, Nat.one_mul, x.length_data]⟩

theorem expand?_outermost (x : Tensor) : x.expand? 0 = some x.raised := if_pos (Nat.zero_le _)

theorem stack?_outermost (hs : ∀ y ∈ x :: xs, y.shape = s) :
    ∃ z, stack? 0 (x :: xs) = some z ∧ Stacks x.device x.dtype s (x :: xs) z := by
  have hraised : ∀ y ∈ x :: xs, y.raised.shape = 1 :: s := fun y hy => congrArg (1 :: ·) (hs y hy)
  have hexpand : ((x :: xs).mapM fun (y : Tensor) => y.expand? 0) = some ((x :: xs).map raised) := by
    rw [show (fun (y : Tensor) => y.expand? 0) = fun y => pure y.raised from funext expand?_outermost, List.mapM_pure]
    rfl
  have hconcat : concat? 0 ((x :: xs).map raised) = ofList? x.device x.dtype ((1 + xs.length) :: s)
      (x.data ++ xs.flatMap data) := by
    have hrest : ∀ y ∈ xs.map raised, y.shape = 1 :: s := fun y hy => by
      obtain ⟨z, hz, rfl⟩ := List.mem_map.mp hy
      exact hraised z (List.mem_cons_of_mem _ hz)
    have hdata : (xs.map raised).flatMap data = xs.flatMap data := List.flatMap_map ..
    rw [List.map_cons, concat?_outermost (hraised x List.mem_cons_self) hrest, List.length_map, hdata]
    rfl
  have hlength : (x.data ++ xs.flatMap data).length = Shape.size ((1 + xs.length) :: s) := by
    rw [← List.flatMap_cons, length_flatMap _ fun y hy => by rw [y.length_data, hs y hy], List.length_cons,
      Shape.size_cons, Nat.add_comm]
  have hstack : stack? 0 (x :: xs) =
      some ⟨x.device, x.dtype, (1 + xs.length) :: s, x.data ++ xs.flatMap data, hlength⟩ := by
    rw [stack?, hexpand, Option.bind_some, hconcat, ofList?_eq_some hlength]
  refine ⟨_, hstack, rfl, rfl, ?_, ?_⟩
  · exact congrArg (· :: s) (Nat.add_comm 1 xs.length)
  · exact List.flatMap_cons.symm

/-- The parts of a tensor along its outermost axis. -/
def slices (x : Tensor) : List Tensor := (List.range (x.shape.headD 0)).filterMap (x.select? 0)

theorem select?_outermost {i : Nat} (hx : x.shape = n :: s) (hi : i < n) :
    x.select? 0 i = ofList? x.device x.dtype s ((x.data.drop (i * s.size)).take s.size) := by
  have hdata := blocks_data hx
  have hlength : ((x.data.drop (i * s.size)).take s.size).length = s.size := by
    have hle : (i + 1) * s.size ≤ n * s.size := Nat.mul_le_mul_right _ hi
    rw [Nat.succ_mul] at hle
    rw [List.length_take, List.length_drop, x.length_data, hx, Shape.size_cons]
    omega
  rw [ofList?_eq_some hlength]
  obtain ⟨d, t, _, e, l⟩ := x
  subst hx
  simp only [select?, cut?, dif_pos hi, rows, Shape.size_nil, List.nil_append] at hdata ⊢
  simp only [hdata, List.map_cons, List.map_nil, List.flatten_cons, List.flatten_nil, List.append_nil]

theorem filterMap_range {α : Type} {l : List α} {f : Nat → Option α} (h : ∀ i, i < l.length → f i = l[i]?) :
    (List.range l.length).filterMap f = l := by
  induction l generalizing f with
  | nil => rfl
  | cons a l ih =>
    rw [List.length_cons, List.range_succ_eq_map, List.filterMap_cons_some (h 0 (Nat.zero_lt_succ _)),
      List.filterMap_map]
    exact congrArg (a :: ·) (ih fun i hi => h (i + 1) (Nat.succ_lt_succ hi))

/-- A stack has the tensors that it was made of as its parts. -/
theorem Stacks.slices_eq {device : Device} {dtype : DType} {z : Tensor} (h : Stacks device dtype s xs z)
    (hxs : ∀ x ∈ xs, x.device = device ∧ x.dtype = dtype ∧ x.shape = s) : z.slices = xs := by
  have huniform : Uniform xs.length s.size (xs.map Tensor.data) := by
    refine ⟨List.length_map _, fun b hb => ?_⟩
    obtain ⟨x, hx, rfl⟩ := List.mem_map.mp hb
    rw [x.length_data, (hxs x hx).2.2]
  have hselect : ∀ i, i < xs.length → z.select? 0 i = xs[i]? := by
    intro i hi
    have hblock : ((z.data.drop (i * s.size)).take s.size) = xs[i].data := by
      have hblocks := getElem?_blocks (c := s.size) (l := z.data) hi
      rw [h.data, List.flatMap_def, blocks_flatten huniform, List.getElem?_map, List.getElem?_eq_getElem hi] at hblocks
      rw [h.data, List.flatMap_def]
      exact (Option.some.inj hblocks).symm
    obtain ⟨hdevice, hdtype, hshape⟩ := hxs xs[i] (List.getElem_mem hi)
    rw [select?_outermost h.shape hi, hblock, h.device, h.dtype, ← hdevice, ← hdtype, ← hshape, eq_ofList?,
      List.getElem?_eq_getElem hi]
  rw [slices, h.shape, List.headD_cons, filterMap_range hselect]

end Tensor

end Dataflow
