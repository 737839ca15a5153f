import Dataflow.Proofs.AxisKernels
import Mathlib

/-! Structural operations that undo one another. Along every axis a tie undoes a split and a split undoes a tie; the
    parts of a stack are the tensors that it was made of, and the stack of all parts of a tensor is the tensor. A tensor
    is the only one of its shape with its parts along the axis, so that it is enough to follow these parts. -/

namespace Dataflow

namespace Tensor

variable {b : Device} {d : DType} {outer inner : Shape} {n : Nat} {a : Int} {x : Tensor} {xs : List Tensor}

/-! ### Along the axis between some dimensions and others -/

section AxisBetween

variable (h : AxisBetween outer inner a)
include h

theorem tie_split {sizes : List Int} (hx : Like b d (outer ++ n :: inner) x) (hheld : b.Holds d (outer ++ n :: inner))
    (hne : sizes ≠ []) (h0 : ∀ m ∈ sizes, 0 ≤ m) (hsum : sizes.sum = n) :
    ∃ ys, x.split (.int a) sizes = .ok ys ∧ tie ys (.int a) = .ok x := by
  obtain ⟨ys, hys, hcross, hextents, halong⟩ := split_at h hx hheld h0 hsum
  have hne' : ys ≠ [] := by
    rintro rfl
    exact hne (List.map_eq_nil_iff.mp hextents.symm)
  have htotal : (ys.map (extent outer.length)).sum = n := by
    have := sum_map_toNat h0
    rw [hextents]
    omega
  obtain ⟨z, hz, hlike, halong'⟩ := tie_at h hne' hcross (htotal.symm ▸ hheld)
  rw [htotal] at hlike
  exact ⟨ys, hys, by rw [hz, eq_of_along hlike hx (halong'.trans halong)]⟩

theorem split_tie (hne : xs ≠ []) (hxs : ∀ x ∈ xs, Crosses b d outer inner x)
    (hheld : b.Holds d (outer ++ (xs.map (extent outer.length)).sum :: inner)) :
    ∃ z, tie xs (.int a) = .ok z ∧ z.split (.int a) (xs.map fun x => (x.extent outer.length : Int)) = .ok xs := by
  obtain ⟨z, hz, hlike, halong⟩ := tie_at h hne hxs hheld
  have h0 : ∀ m ∈ xs.map fun x => (x.extent outer.length : Int), 0 ≤ m := fun m hm => by
    obtain ⟨x, -, rfl⟩ := List.mem_map.mp hm
    exact Int.natCast_nonneg _
  have hnats : (xs.map fun x => (x.extent outer.length : Int)).map Int.toNat = xs.map (extent outer.length) := by
    rw [List.map_map]
    exact List.map_congr_left fun x _ => Int.toNat_natCast _
  have hsum : (xs.map fun x => (x.extent outer.length : Int)).sum = ((xs.map (extent outer.length)).sum : Nat) := by
    rw [← sum_map_toNat h0, hnats]
  obtain ⟨ys, hys, hcross, hextents, halong'⟩ := split_at h hlike hheld h0 hsum
  refine ⟨z, hz, ?_⟩
  rw [hys, eq_of_flatMap_along hcross hxs (hextents.trans hnats) (halong'.trans halong)]

theorem index_stack (hne : xs ≠ []) (hxs : ∀ x ∈ xs, Like b d (outer ++ inner) x)
    (hheld : b.Holds d (outer ++ xs.length :: inner)) :
    ∃ z, stack xs (.int a) = .ok z ∧ ∀ i (hi : i < xs.length), z.index (.int i) (.int a) = .ok xs[i] := by
  obtain ⟨z, hz, hlike, halong⟩ := stack_at h hne hxs hheld
  refine ⟨z, hz, fun i hi => index_at h hlike hheld hi ?_⟩
  rw [← getElem?_along hlike.shape hi, halong, List.getElem?_eq_getElem hi]

/-- All parts along an axis come out by their positions. -/
theorem mapM_index_at (hx : Like b d (outer ++ n :: inner) x) (hheld : b.Holds d (outer ++ n :: inner)) :
    ((List.range n).mapM fun (i : Nat) => x.index (.int i) (.int a)) = .ok (x.along outer.length) := by
  have hone : ∀ i ∈ List.range n, x.index (.int i) (.int a) = .ok ((x.along outer.length)[i]?.getD x) := fun i hi => by
    have hi := List.mem_range.mp hi
    obtain ⟨y, hy, -⟩ := select?_at hx hi
    rw [getElem?_along hx.shape hi, hy]
    exact index_at h hx hheld hi hy
  rw [Outcome.mapM_ok hone]
  refine congrArg Except.ok (List.ext_getElem (by simp [length_along hx.shape]) fun i hi hi' => ?_)
  simp [hi']

theorem stack_along_self (hx : Like b d (outer ++ n :: inner) x) (hheld : b.Holds d (outer ++ n :: inner)) (hn : 0 < n) :
    stack (x.along outer.length) (.int a) = .ok x := by
  have hlength := length_along hx.shape
  have hne : x.along outer.length ≠ [] := List.ne_nil_of_length_pos (hlength.symm ▸ hn)
  obtain ⟨z, hz, hlike, halong⟩ := stack_at h hne (fun y hy => like_of_mem_along hx hy) (hlength.symm ▸ hheld)
  rw [hlength] at hlike
  rw [hz, eq_of_along hlike hx halong]

end AxisBetween

/-! ### Along every axis -/

section Shapes

variable {s : Shape}

theorem length_take_axisAt (ha : NamesAxis s.length a) : (s.take (axisAt s.length a)).length = axisAt s.length a := by
  rw [List.length_take, Nat.min_eq_left (Nat.le_of_lt ha.lt)]

theorem axisBetween_drop (ha : NamesAxis s.length a) :
    AxisBetween (s.take (axisAt s.length a)) (s.drop (axisAt s.length a + 1)) a := by
  have hlt := ha.lt
  have hrank : (s.take (axisAt s.length a)).length + ((s.drop (axisAt s.length a + 1)).length + 1) = s.length := by
    rw [length_take_axisAt ha, List.length_drop]
    omega
  exact ⟨hrank.symm ▸ ha, by rw [hrank, length_take_axisAt ha]⟩

theorem set_axisAt (ha : NamesAxis s.length a) (n : Nat) : s.set (axisAt s.length a) n =
    s.take (axisAt s.length a) ++ n :: s.drop (axisAt s.length a + 1) := by
  rw [List.set_eq_take_append_cons_drop, if_pos ha.lt]

theorem insertIdx_eq {k : Nat} (hk : k ≤ s.length) (n : Nat) : s.insertIdx k n = s.take k ++ n :: s.drop k := by
  induction s generalizing k with
  | nil =>
    obtain rfl := Nat.le_zero.mp hk
    rfl
  | cons m s ih =>
    cases k with
    | zero => rfl
    | succ k => rw [List.insertIdx_succ_cons, ih (Nat.le_of_succ_le_succ hk), List.take_succ_cons, List.drop_succ_cons,
        List.cons_append]

/-- A new axis stands between the dimensions before it and the others. -/
theorem axisBetween_new (ha : NamesAxis (s.length + 1) a) :
    AxisBetween (s.take (axisAt (s.length + 1) a)) (s.drop (axisAt (s.length + 1) a)) a := by
  have hlt := ha.lt
  have houter : (s.take (axisAt (s.length + 1) a)).length = axisAt (s.length + 1) a := by
    rw [List.length_take]
    omega
  have hrank : (s.take (axisAt (s.length + 1) a)).length + ((s.drop (axisAt (s.length + 1) a)).length + 1) =
      s.length + 1 := by
    rw [houter, List.length_drop]
    omega
  exact ⟨hrank.symm ▸ ha, by rw [hrank, houter]⟩

theorem like_axisAt (ha : NamesAxis x.rank a) : Like x.device x.dtype
    (x.shape.take (axisAt x.rank a) ++ x.extent (axisAt x.rank a) :: x.shape.drop (axisAt x.rank a + 1)) x := by
  have hlt : axisAt x.rank a < x.shape.length := ha.lt
  refine ⟨rfl, rfl, ?_⟩
  rw [extent, List.getD_eq_getElem?_getD, List.getElem?_eq_getElem hlt, Option.getD_some, List.getElem_cons_drop,
    List.take_append_drop]

end Shapes

/-- The structural operations undo one another along an axis, for tensors of one backend that it can hold. -/
structure InverseAlong (a : Int) : Prop where
  /-- A tie puts the parts of a split together. -/
  tie_split : ∀ (x : Tensor) (sizes : List Int), x.device.Holds x.dtype x.shape → NamesAxis x.rank a → sizes ≠ [] →
    (∀ m ∈ sizes, 0 ≤ m) → sizes.sum = x.extent (axisAt x.rank a) →
    ∃ ys, x.split (.int a) sizes = .ok ys ∧ tie ys (.int a) = .ok x
  /-- A split takes a tie apart. The shapes agree but for the axis. -/
  split_tie : ∀ (b : Device) (d : DType) (s : Shape) (xs : List Tensor), NamesAxis s.length a → xs ≠ [] →
    (∀ x ∈ xs, Like b d (s.set (axisAt s.length a) (x.extent (axisAt s.length a))) x) →
    b.Holds d (s.set (axisAt s.length a) (xs.map (extent (axisAt s.length a))).sum) →
    ∃ z, tie xs (.int a) = .ok z ∧ z.split (.int a) (xs.map fun x => (x.extent (axisAt s.length a) : Int)) = .ok xs
  /-- An index takes a tensor out of a stack. -/
  index_stack : ∀ (b : Device) (d : DType) (s : Shape) (xs : List Tensor), NamesAxis (s.length + 1) a → xs ≠ [] →
    (∀ x ∈ xs, Like b d s x) → b.Holds d (s.insertIdx (axisAt (s.length + 1) a) xs.length) →
    ∃ z, stack xs (.int a) = .ok z ∧ ∀ k (hk : k < xs.length), z.index (.int k) (.int a) = .ok xs[k]
  /-- A stack puts all parts of a tensor together, whichever integer names the axis. -/
  stack_index : ∀ x : Tensor, x.device.Holds x.dtype x.shape → NamesAxis x.rank a → 0 < x.extent (axisAt x.rank a) →
    ∃ ys, (List.range (x.extent (axisAt x.rank a))).mapM (fun (k : Nat) => x.index (.int k) (.int a)) = .ok ys ∧
      ∀ a', NamesAxis x.rank a' → axisAt x.rank a' = axisAt x.rank a → stack ys (.int a') = .ok x

theorem structural_inverses (a : Int) : InverseAlong a where
  tie_split x sizes hheld ha hne h0 hsum := by
    have hx := like_axisAt ha
    exact tie_split (axisBetween_drop ha) hx (hx.shape ▸ hheld) hne h0 hsum
  split_tie b d s xs ha hne hxs hheld := by
    have houter := length_take_axisAt ha
    have hcross : ∀ x ∈ xs, Crosses b d (s.take (axisAt s.length a)) (s.drop (axisAt s.length a + 1)) x :=
      fun x hx => by
        rw [Crosses, houter, ← set_axisAt ha]
        exact hxs x hx
    have hinverse := split_tie (axisBetween_drop ha) hne hcross
    rw [houter, ← set_axisAt ha] at hinverse
    exact hinverse hheld
  index_stack b d s xs ha hne hxs hheld := by
    rw [insertIdx_eq (Nat.le_of_lt_succ ha.lt)] at hheld
    refine index_stack (axisBetween_new ha) hne (fun x hx => ?_) hheld
    rw [List.take_append_drop]
    exact hxs x hx
  stack_index x hheld ha hn := by
    have hx := like_axisAt ha
    have hall := mapM_index_at (axisBetween_drop ha) hx (hx.shape ▸ hheld)
    refine ⟨_, hall, fun a' ha' hsame => ?_⟩
    have h' := axisBetween_drop ha'
    rw [show axisAt x.shape.length a' = axisAt x.rank a from hsame] at h'
    exact stack_along_self h' hx (hx.shape ▸ hheld) hn

/-- A matrix cut behind its first column and joined again, its columns stacked and taken apart. -/
theorem structural_inverses_columns :
    let x : Tensor := ⟨.host, .int32, [2, 3], [.whole 1, .whole 2, .whole 3, .whole 4, .whole 5, .whole 6], rfl⟩
    let u : Tensor := ⟨.torch, .int32, [2, 1], [.whole 1, .whole 4], rfl⟩
    let v : Tensor := ⟨.torch, .int32, [2, 2], [.whole 2, .whole 3, .whole 5, .whole 6], rfl⟩
    let p : Tensor := ⟨.host, .int32, [2], [.whole 1, .whole 4], rfl⟩
    let q : Tensor := ⟨.host, .int32, [2], [.whole 2, .whole 5], rfl⟩
    (∃ ys, x.split (.int (-1)) [1, 2] = .ok ys ∧ tie ys (.int (-1)) = .ok x) ∧
      (∃ z, tie [u, v] (.int 1) = .ok z ∧ z.split (.int 1) [1, 2] = .ok [u, v]) ∧
      (∃ z, stack [p, q] (.int (-1)) = .ok z ∧
        z.index (.int 0) (.int (-1)) = .ok p ∧ z.index (.int 1) (.int (-1)) = .ok q) ∧
      ∃ ys, (List.range 3).mapM (fun (k : Nat) => x.index (.int k) (.int 1)) = .ok ys ∧
        stack ys (.int (-1)) = .ok x := by
  intro x u v p q
  have hlast := structural_inverses (-1)
  have hsecond := structural_inverses 1
  have hx : x.device.Holds x.dtype x.shape := ⟨by decide, by decide, fun _ => by decide, fun _ => by decide⟩
  have htied : Device.Holds .torch .int32 [2, 3] := ⟨by decide, by decide, nofun, nofun⟩
  have hstacked : Device.Holds .host .int32 (([2] : List Nat).insertIdx (axisAt 2 (-1)) 2) := by
    rw [show ([2] : List Nat).insertIdx (axisAt 2 (-1)) 2 = [2, 2] by decide]
    exact ⟨by decide, by decide, fun _ => by decide, fun _ => by decide⟩
  have huv : ∀ w ∈ [u, v], Like .torch .int32 (([2, 0] : List Nat).set 1 (w.extent 1)) w :=
    List.forall_mem_cons.mpr ⟨⟨rfl, rfl, rfl⟩, List.forall_mem_cons.mpr ⟨⟨rfl, rfl, rfl⟩, nofun⟩⟩
  have hpq : ∀ w ∈ [p, q], Like .host .int32 [2] w :=
    List.forall_mem_cons.mpr ⟨⟨rfl, rfl, rfl⟩, List.forall_mem_cons.mpr ⟨⟨rfl, rfl, rfl⟩, nofun⟩⟩
  refine ⟨hlast.tie_split x [1, 2] hx (by decide) (by decide) (by decide) rfl,
    hsecond.split_tie .torch .int32 [2, 0] [u, v] (by decide) (List.cons_ne_nil _ _) huv htied, ?_, ?_⟩
  · obtain ⟨z, hz, hparts⟩ :=
      hlast.index_stack .host .int32 [2] [p, q] (by decide) (List.cons_ne_nil _ _) hpq hstacked
    exact ⟨z, hz, hparts 0 (by decide), hparts 1 (by decide)⟩
  · obtain ⟨ys, hys, hback⟩ := hsecond.stack_index x hx (by decide) (by decide)
    exact ⟨ys, hys, hback (-1) (by decide) rfl⟩

/-- Beyond the limits there is nothing to undo: the host has no axis left for a stack of tensors that already have the
    most axes, no count for the length of a tie without elements, and no kernel for tensors of different backends. -/
theorem not_joined_beyond_limits :
    let x : Tensor := ⟨.host, .int32, List.replicate 64 1, [.whole 1], by decide⟩
    let y : Tensor := ⟨.host, .int8, [0, 2 ^ 62], [], by decide⟩
    let u : Tensor := ⟨.host, .int32, [1], [.whole 1], rfl⟩
    let v : Tensor := ⟨.torch, .int32, [1], [.whole 1], rfl⟩
    stack [x] (.int 0) = .error .indexOutOfRange ∧ tie [y, y] (.int 1) = .error .badValue ∧
      tie [u, v] (.int 0) =
        .error (.undispatched [.named .tie, .named .hostTensor, .named .torchTensor] 0) := by
  intro x y u v
  dsimp only [x, y, u, v]
  refine ⟨?_, ?_, ?_⟩ <;> cbv

end Tensor

end Dataflow
