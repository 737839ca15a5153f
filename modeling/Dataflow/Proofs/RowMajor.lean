import Dataflow.Proofs.Axes

/-! Tensors as lists of rows: these are the parts along the outermost axis. A range of this axis has a range of the rows,
    tensors one after the other have their rows one after the other, and a tensor is the only one of its shape that has
    its rows. In row-major order joining tensors there joins their elements. -/

namespace Dataflow

namespace Tensor

variable {b : Device} {d : DType} {s : Shape} {x y z : Tensor} {xs : List Tensor} {n k : Nat}

/-! ### The rows of a tensor -/

theorem slices_eq_along (x : Tensor) : x.slices = x.along 0 := by
  rw [slices, along, extent, List.headD_eq_head?_getD, List.head?_eq_getElem?, List.getD_eq_getElem?_getD]

theorem like_outermost (hx : x.shape = n :: s) : Like x.device x.dtype ([] ++ n :: s) x := ⟨rfl, rfl, hx⟩

theorem length_slices (hx : x.shape = n :: s) : x.slices.length = n := by
  rw [slices_eq_along]
  exact length_along (like_outermost hx).shape

theorem getElem?_slices (hx : x.shape = n :: s) (hk : k < n) : x.slices[k]? = x.select? 0 k := by
  rw [slices_eq_along]
  exact getElem?_along (like_outermost hx).shape hk

theorem like_of_mem_slices (hx : x.shape = n :: s) (hy : y ∈ x.slices) : Like x.device x.dtype s y := by
  rw [slices_eq_along] at hy
  exact like_of_mem_along (like_outermost hx) hy

theorem eq_of_slices (hx : x.shape = n :: s) (hy : Like x.device x.dtype x.shape y) (h : x.slices = y.slices) :
    x = y := by
  rw [slices_eq_along, slices_eq_along] at h
  rw [hx] at hy
  exact eq_of_along (like_outermost hx) hy h

/-! ### Ranges of rows -/

/-- The part from one position of the outermost axis up to another. -/
theorem slice?_outermost {start stop : Nat} (hx : x.shape = n :: s) (hstart : start ≤ stop) (hstop : stop ≤ n) :
    ∃ y, x.slice? 0 start stop = some y ∧ Like x.device x.dtype ((stop - start) :: s) y ∧
      y.slices = (x.slices.drop start).take (stop - start) := by
  obtain ⟨y, hy, hlike, halong⟩ :=
    slice?_at (like_outermost hx) hstart hstop
  refine ⟨y, hy, hlike, ?_⟩
  rw [slices_eq_along, slices_eq_along]
  exact halong

/-! ### Tensors one after the other -/

/-- A tensor that consists of others one after the other along its outermost axis. -/
structure Joins (b : Device) (d : DType) (s : Shape) (xs : List Tensor) (z : Tensor) : Prop where
  like : Like b d ((xs.map (·.shape.headD 0)).sum :: s) z
  data : z.data = xs.flatMap Tensor.data

/-- A tensor that can be joined to others: only the lengths of the outermost axes may differ. -/
def Fits (b : Device) (d : DType) (s : Shape) (x : Tensor) : Prop := ∃ n, Like b d (n :: s) x

theorem foldlM_append?_joins {n : Nat} (hx : Like b d (n :: s) x) (hxs : ∀ y ∈ xs, Fits b d s y) :
    ∃ z, xs.foldlM (append? 0) x = some z ∧ Joins b d s (x :: xs) z := by
  induction xs generalizing x n with
  | nil =>
    refine ⟨x, rfl, ⟨hx.device, hx.dtype, ?_⟩, by simp⟩
    simp [hx.shape]
  | cons y xs ih =>
    obtain ⟨m, hy⟩ := hxs y List.mem_cons_self
    have hlength : (x.data ++ y.data).length = Shape.size ((n + m) :: s) := by
      rw [List.length_append, x.length_data, y.length_data, hx.shape, hy.shape, Shape.size_cons, Shape.size_cons,
        Shape.size_cons, Nat.add_mul]
    have happend : append? 0 x y = some ⟨x.device, x.dtype, (n + m) :: s, x.data ++ y.data, hlength⟩ := by
      rw [append?_outermost hx.shape hy.shape, ofList?_eq_some hlength]
    obtain ⟨z, hz, hjoins⟩ := ih (x := ⟨x.device, x.dtype, (n + m) :: s, x.data ++ y.data, hlength⟩)
      ⟨hx.device, hx.dtype, rfl⟩ fun w hw => hxs w (List.mem_cons_of_mem _ hw)
    refine ⟨z, ?_, ⟨hjoins.like.device, hjoins.like.dtype, ?_⟩, ?_⟩
    · rw [List.foldlM_cons, happend]
      exact hz
    · rw [hjoins.like.shape]
      simp [hx.shape, hy.shape, Nat.add_assoc]
    · rw [hjoins.data, List.flatMap_cons, List.flatMap_cons, List.flatMap_cons, List.append_assoc]

theorem concat?_cons (hx : x.shape = n :: s) : concat? 0 (x :: xs) = xs.foldlM (append? 0) x := by
  cases xs with
  | nil =>
    rw [concat?, hx]
    rfl
  | cons y xs => rfl

theorem concat?_joins (hne : xs ≠ []) (hxs : ∀ x ∈ xs, Fits b d s x) :
    ∃ z, concat? 0 xs = some z ∧ Joins b d s xs z := by
  obtain ⟨x, xs, rfl⟩ := List.exists_cons_of_ne_nil hne
  obtain ⟨n, hx⟩ := hxs x List.mem_cons_self
  rw [concat?_cons hx.shape]
  exact foldlM_append?_joins hx fun y hy => hxs y (List.mem_cons_of_mem _ hy)

/-- What consists of several tensors has their rows. -/
theorem Joins.slices_eq (h : Joins b d s xs z) (hxs : ∀ x ∈ xs, Fits b d s x) : z.slices = xs.flatMap slices := by
  by_cases hne : xs = []
  · subst hne
    exact List.eq_nil_of_length_eq_zero (length_slices h.like.shape)
  have hcross : ∀ x ∈ xs, Crosses b d [] s x := fun x hx => (hxs x hx).elim fun n hlike =>
    Like.crosses (show Like b d ([] ++ n :: s) x from hlike)
  obtain ⟨w, hw, hjoins⟩ := concat?_joins hne hxs
  obtain ⟨v, hv, -, halong⟩ := concat?_at hne hcross
  obtain rfl : v = w := Option.some.inj (hv.symm.trans hw)
  rw [h.like.eq hjoins.like (h.data.trans hjoins.data.symm), slices_eq_along, funext slices_eq_along]
  exact halong

theorem append?_some (hx : x.shape = n :: s) (h : append? 0 x y = some z) :
    (∃ m, y.shape = m :: s) ∧ ∃ m, z.shape = m :: s := by
  unfold append? at h
  split at h
  · rename_i c e hc he
    split at h <;> cases h
    rename_i hsame
    obtain ⟨houter, -, hinner⟩ := cut?_outermost hx hc
    have hy : e.outer ++ e.length :: e.inner = e.length :: s := by
      rw [← hsame.1, ← hsame.2, houter, hinner, List.nil_append]
    have hz : c.outer ++ (c.length + e.length) :: c.inner = (c.length + e.length) :: s := by
      rw [houter, hinner, List.nil_append]
    exact ⟨⟨_, e.shape_eq.trans hy⟩, _, hz⟩
  · cases h

theorem foldlM_append?_some (hx : x.shape = n :: s) (h : xs.foldlM (append? 0) x = some z) :
    ∀ y ∈ xs, ∃ m, y.shape = m :: s := by
  -- What has been joined so far keeps its inner axes, and only its length changes.
  induction xs generalizing x n with
  | nil => simp
  | cons y xs ih =>
    rw [List.foldlM_cons] at h
    obtain ⟨w, hw, h⟩ := Option.bind_eq_some_iff.mp h
    obtain ⟨hy, m, hwshape⟩ := append?_some hx hw
    exact List.forall_mem_cons.mpr ⟨hy, ih hwshape h⟩

/-- Tensors that make one differ only in the lengths of their outermost axes. -/
theorem concat?_some (hx : x.shape = n :: s) (h : concat? 0 (x :: xs) = some z) :
    ∀ y ∈ x :: xs, ∃ m, y.shape = m :: s := by
  rw [concat?_cons hx] at h
  exact List.forall_mem_cons.mpr ⟨⟨n, hx⟩, foldlM_append?_some hx h⟩

end Tensor

end Dataflow
