import Dataflow.Proofs.Parts
import Dataflow.Proofs.Rows
import Mathlib.Algebra.BigOperators.Group.List.Basic
import Mathlib.Algebra.GroupWithZero.Nat

/-! Tensors along any of their axes. An axis cuts the elements into rows, one for every position outside it, and a row
    has a block for every position of the axis. The part at a position has this block of every row, and a tensor is the
    only one of its shape that has its parts. A range of positions has a range of the parts, tensors one after the other
    have their parts one after the other, and a stack has the tensors that it was made of as its parts. -/

namespace Dataflow

/-! ### Columns of rows -/

namespace Blocks

variable {α : Type} {l l' : List α} {n m c i start count : Nat}

/-- The block of a row at a position. -/
def column (c i : Nat) (l : List α) : List α := (l.drop (i * c)).take c

theorem length_column (hl : l.length = n * c) (hi : i < n) : (column c i l).length = c := by
  have hle : (i + 1) * c ≤ n * c := Nat.mul_le_mul_right _ hi
  rw [Nat.succ_mul] at hle
  rw [column, List.length_take, List.length_drop, hl]
  omega

/-- A row consists of its blocks. -/
theorem eq_of_column (hl : l.length = n * c) (hl' : l'.length = n * c)
    (h : ∀ i, i < n → column c i l = column c i l') : l = l' := by
  have hblocks : blocks n c l = blocks n c l' := by
    refine List.ext_getElem? fun i => ?_
    by_cases hi : i < n
    · rw [getElem?_blocks hi, getElem?_blocks hi]
      exact congrArg some (h i hi)
    · rw [List.getElem?_eq_none (by simpa using hi), List.getElem?_eq_none (by simpa using hi)]
  rw [← flatten_blocks hl, hblocks, flatten_blocks hl']

theorem column_range (hi : i < count) :
    column c i ((l.drop (start * c)).take (count * c)) = column c (start + i) l := by
  have hle : (i + 1) * c ≤ count * c := Nat.mul_le_mul_right _ hi
  rw [Nat.succ_mul] at hle
  rw [column, column, List.drop_take, List.take_take, List.drop_drop, Nat.add_mul, Nat.min_eq_left (by omega)]

theorem column_append_left (hl : l.length = n * c) (hi : i < n) : column c i (l ++ l') = column c i l := by
  have hle : (i + 1) * c ≤ n * c := Nat.mul_le_mul_right _ hi
  rw [Nat.succ_mul] at hle
  rw [column, column, List.drop_append_of_le_length (by omega), List.take_append_of_le_length]
  rw [List.length_drop]
  omega

theorem column_append_right (hl : l.length = n * c) : column c (n + i) (l ++ l') = column c i l' := by
  rw [column, column, Nat.add_mul, ← List.drop_drop, List.drop_left' hl]

/-- Of rows that are joined block by block, a function may see the first ones only. -/
theorem map_zipWith_left {f g : List α → List α} {rs rs' : List (List α)} (hlength : rs.length = rs'.length)
    (h : ∀ r ∈ rs, ∀ r', f (r ++ r') = g r) : (List.zipWith (· ++ ·) rs rs').map f = rs.map g := by
  induction rs generalizing rs' with
  | nil => rfl
  | cons r rs ih =>
    obtain ⟨r', rs', rfl⟩ := List.exists_of_length_succ rs' hlength.symm
    rw [List.zipWith_cons_cons, List.map_cons, List.map_cons, h r List.mem_cons_self r',
      ih (Nat.succ.inj hlength) fun s hs => h s (List.mem_cons_of_mem _ hs)]

theorem map_zipWith_right {f g : List α → List α} {rs rs' : List (List α)} (hlength : rs.length = rs'.length)
    (h : ∀ r ∈ rs, ∀ r', f (r ++ r') = g r') : (List.zipWith (· ++ ·) rs rs').map f = rs'.map g := by
  induction rs generalizing rs' with
  | nil =>
    obtain rfl := List.eq_nil_of_length_eq_zero hlength.symm
    rfl
  | cons r rs ih =>
    obtain ⟨r', rs', rfl⟩ := List.exists_of_length_succ rs' hlength.symm
    rw [List.zipWith_cons_cons, List.map_cons, List.map_cons, h r List.mem_cons_self r',
      ih (Nat.succ.inj hlength) fun s hs => h s (List.mem_cons_of_mem _ hs)]

end Blocks

/-! ### Parts at the positions of an axis -/

theorem getElem?_filterMap {α β : Type} {f : α → Option β} {l : List α} (h : ∀ a ∈ l, (f a).isSome) (k : Nat) :
    (l.filterMap f)[k]? = l[k]?.bind f := by
  induction l generalizing k with
  | nil => rfl
  | cons a l ih =>
    obtain ⟨b, hb⟩ := Option.isSome_iff_exists.mp (h a List.mem_cons_self)
    rw [List.filterMap_cons_some hb]
    cases k with
    | zero => exact hb.symm
    | succ k => exact ih (fun a' ha' => h a' (List.mem_cons_of_mem _ ha')) k

namespace Tensor

open Blocks

variable {b : Device} {d : DType} {outer inner : Shape} {x y z : Tensor} {xs ys : List Tensor} {n m k i : Nat}

/-- A tensor of a device, an element type and a shape. -/
structure Like (b : Device) (d : DType) (s : Shape) (x : Tensor) : Prop where
  device : x.device = b
  dtype : x.dtype = d
  shape : x.shape = s

theorem Like.eq (hx : Like b d s x) (hy : Like b d s y) (h : x.data = y.data) : x = y := by
  cases x
  cases y
  obtain ⟨rfl, rfl, rfl⟩ := hx
  obtain ⟨rfl, rfl, rfl⟩ := hy
  cases h
  rfl

/-- The length of an axis. -/
def extent (k : Nat) (x : Tensor) : Nat := x.shape.getD k 0

/-- The parts of a tensor at the positions of an axis. -/
def along (k : Nat) (x : Tensor) : List Tensor := (List.range (x.extent k)).filterMap (x.select? k)

theorem extent_eq (hx : x.shape = outer ++ n :: inner) : x.extent outer.length = n := by
  rw [extent, hx, List.getD_eq_getElem?_getD, List.getElem?_append_right (Nat.le_refl _), Nat.sub_self,
    List.getElem?_cons_zero, Option.getD_some]

theorem cut?_at {t : Shape} (ht : t = outer ++ n :: inner) : cut? t outer.length = some ⟨outer, n, inner, ht⟩ := by
  subst ht
  induction outer with
  | nil => rfl
  | cons e outer ih =>
    show (cut? (outer ++ n :: inner) outer.length).map _ = _
    rw [ih]
    rfl

/-- The rows that an axis cuts a tensor into. -/
theorem uniform_rows_at (hx : x.shape = outer ++ n :: inner) :
    Uniform outer.size (n * inner.size) (blocks outer.size (n * inner.size) x.data) :=
  uniform_blocks (by rw [x.length_data, hx, Shape.size_append, Shape.size_cons])

theorem uniform_columns (hx : x.shape = outer ++ n :: inner) (hi : i < n) :
    Uniform outer.size inner.size ((blocks outer.size (n * inner.size) x.data).map (column inner.size i)) :=
  (uniform_rows_at hx).map fun _ hb => length_column hb hi

/-- The part at a position has the block of every row there. -/
theorem select?_at (hx : Like b d (outer ++ n :: inner) x) (hi : i < n) :
    ∃ y, x.select? outer.length i = some y ∧ Like b d (outer ++ inner) y ∧
      blocks outer.size inner.size y.data =
        (blocks outer.size (n * inner.size) x.data).map (column inner.size i) := by
  simp only [select?, cut?_at hx.shape, dif_pos hi]
  exact ⟨_, rfl, ⟨hx.device, hx.dtype, rfl⟩, blocks_flatten (uniform_columns hx.shape hi)⟩

/-- Where all rows of two tensors have the same block at a position each, the parts there are the same. -/
theorem select?_congr {j : Nat} (hx : Like b d (outer ++ n :: inner) x) (hy : Like b d (outer ++ m :: inner) y)
    (hi : i < n) (hj : j < m) (h : (blocks outer.size (n * inner.size) x.data).map (column inner.size i) =
      (blocks outer.size (m * inner.size) y.data).map (column inner.size j)) :
    x.select? outer.length i = y.select? outer.length j := by
  obtain ⟨v, hv, hlikev, hdata⟩ := select?_at hx hi
  obtain ⟨w, hw, hlikew, hdata'⟩ := select?_at hy hj
  have hlength : ∀ {u : Tensor}, Like b d (outer ++ inner) u → u.data.length = outer.size * inner.size :=
    fun {u} hu => by rw [u.length_data, hu.shape, Shape.size_append]
  have hsame : v.data = w.data := by
    rw [← flatten_blocks (hlength hlikev), hdata.trans (h.trans hdata'.symm), flatten_blocks (hlength hlikew)]
  rw [hv, hw, hlikev.eq hlikew hsame]

theorem isSome_select? (hx : x.shape = outer ++ n :: inner) (hi : i < n) : (x.select? outer.length i).isSome := by
  obtain ⟨y, hy, -⟩ := select?_at ⟨rfl, rfl, hx⟩ hi
  rw [hy]
  rfl

theorem getElem?_along (hx : x.shape = outer ++ n :: inner) (hi : i < n) :
    (x.along outer.length)[i]? = x.select? outer.length i := by
  have hsome : ∀ j ∈ List.range n, (x.select? outer.length j).isSome := fun j hj =>
    isSome_select? hx (List.mem_range.mp hj)
  rw [along, extent_eq hx, getElem?_filterMap hsome, List.getElem?_range hi, Option.bind_some]

theorem length_along (hx : x.shape = outer ++ n :: inner) : (x.along outer.length).length = n := by
  have hsome : ∀ j ∈ List.range n, (x.select? outer.length j).isSome := fun j hj =>
    isSome_select? hx (List.mem_range.mp hj)
  rw [along, extent_eq hx]
  refine (List.length_filterMap_eq_countP ..).trans ?_
  rw [List.countP_eq_length.mpr hsome, List.length_range]

theorem along_eq (hx : x.shape = outer ++ n :: inner) {l : List Tensor} (hl : l.length = n)
    (h : ∀ i, i < n → x.select? outer.length i = l[i]?) : x.along outer.length = l := by
  refine List.ext_getElem? fun i => ?_
  by_cases hi : i < n
  · rw [getElem?_along hx hi, h i hi]
  · rw [List.getElem?_eq_none (by rw [length_along hx]; omega), List.getElem?_eq_none (by omega)]

theorem like_of_mem_along (hx : Like b d (outer ++ n :: inner) x) (hy : y ∈ x.along outer.length) :
    Like b d (outer ++ inner) y := by
  obtain ⟨i, hi, hselect⟩ := List.mem_filterMap.mp hy
  rw [extent_eq hx.shape, List.mem_range] at hi
  obtain ⟨w, hw, hlike, -⟩ := select?_at hx hi
  rwa [Option.some.inj (hselect.symm.trans hw)]

/-- A tensor is the only one of its shape that has its parts. -/
theorem eq_of_along (hx : Like b d (outer ++ n :: inner) x) (hy : Like b d (outer ++ n :: inner) y)
    (h : x.along outer.length = y.along outer.length) : x = y := by
  refine hx.eq hy ?_
  have hrows := uniform_rows_at hx.shape
  have hrows' := uniform_rows_at hy.shape
  -- The rows have the same blocks, and so they are the same.
  have hcolumns : ∀ i, i < n → (blocks outer.size (n * inner.size) x.data).map (column inner.size i) =
      (blocks outer.size (n * inner.size) y.data).map (column inner.size i) := fun i hi => by
    obtain ⟨v, hv, -, hdata⟩ := select?_at hx hi
    obtain ⟨w, hw, -, hdata'⟩ := select?_at hy hi
    rw [← getElem?_along hx.shape hi, h, getElem?_along hy.shape hi, hw] at hv
    rw [← hdata, ← hdata', Option.some.inj hv]
  have hblocks : blocks outer.size (n * inner.size) x.data = blocks outer.size (n * inner.size) y.data := by
    refine List.ext_getElem (hrows.1.trans hrows'.1.symm) fun j hj hj' => ?_
    refine eq_of_column (hrows.2 _ (List.getElem_mem hj)) (hrows'.2 _ (List.getElem_mem hj')) fun i hi => ?_
    have hsame := congrArg (·[j]?) (hcolumns i hi)
    simp only [List.getElem?_map, List.getElem?_eq_getElem hj, List.getElem?_eq_getElem hj'] at hsame
    exact Option.some.inj hsame
  have hlength : ∀ {w : Tensor}, Like b d (outer ++ n :: inner) w → w.data.length = outer.size * (n * inner.size) :=
    fun {w} hw => by rw [w.length_data, hw.shape, Shape.size_append, Shape.size_cons]
  rw [← flatten_blocks (hlength hx), hblocks, flatten_blocks (hlength hy)]

/-- A tensor that lies across an axis, whose length is its own; the other dimensions are given. -/
def Crosses (b : Device) (d : DType) (outer inner : Shape) (x : Tensor) : Prop :=
  Like b d (outer ++ x.extent outer.length :: inner) x

theorem Like.crosses (h : Like b d (outer ++ n :: inner) x) : Crosses b d outer inner x := by
  rw [Crosses, extent_eq h.shape]
  exact h

/-- Tensors of the same lengths that have the same parts in turn are the same. -/
theorem eq_of_flatMap_along (hxs : ∀ x ∈ xs, Crosses b d outer inner x) (hys : ∀ y ∈ ys, Crosses b d outer inner y)
    (hextents : xs.map (extent outer.length) = ys.map (extent outer.length))
    (h : xs.flatMap (along outer.length) = ys.flatMap (along outer.length)) : xs = ys := by
  induction xs generalizing ys with
  | nil => exact (List.map_eq_nil_iff.mp hextents.symm).symm
  | cons x xs ih =>
    have hne : ys ≠ [] := fun hnil => by simp [hnil] at hextents
    obtain ⟨y, ys, rfl⟩ := List.exists_cons_of_ne_nil hne
    obtain ⟨hextent, hextents⟩ := List.cons.inj hextents
    have hx := hxs x List.mem_cons_self
    have hy := hys y List.mem_cons_self
    rw [Crosses, hextent] at hx
    obtain ⟨hfirst, hrest⟩ := List.append_inj h ((length_along hx.shape).trans (length_along hy.shape).symm)
    rw [eq_of_along hx hy hfirst, ih (fun z hz => hxs z (List.mem_cons_of_mem _ hz))
      (fun z hz => hys z (List.mem_cons_of_mem _ hz)) hextents hrest]

/-! ### Ranges -/

/-- The part from one position of an axis up to another has the parts in between. -/
theorem slice?_at {start stop : Nat} (hx : Like b d (outer ++ n :: inner) x) (hstart : start ≤ stop)
    (hstop : stop ≤ n) :
    ∃ y, x.slice? outer.length start stop = some y ∧ Like b d (outer ++ (stop - start) :: inner) y ∧
      y.along outer.length = ((x.along outer.length).drop start).take (stop - start) := by
  obtain ⟨y, hy, hlike, hrows⟩ : ∃ y, x.slice? outer.length start stop = some y ∧
      Like b d (outer ++ (stop - start) :: inner) y ∧ blocks outer.size ((stop - start) * inner.size) y.data =
        (blocks outer.size (n * inner.size) x.data).map fun r =>
          (r.drop (start * inner.size)).take ((stop - start) * inner.size) := by
    simp only [slice?, cut?_at hx.shape, Option.map_some, Nat.min_eq_left hstop]
    refine ⟨_, rfl, ⟨hx.device, hx.dtype, rfl⟩, blocks_flatten ?_⟩
    refine (uniform_rows_at hx.shape).map fun r hr => ?_
    have hle : (stop - start + start) * inner.size ≤ n * inner.size := Nat.mul_le_mul_right _ (by omega)
    rw [Nat.add_mul] at hle
    rw [List.length_take, List.length_drop, hr]
    omega
  refine ⟨y, hy, hlike, along_eq hlike.shape ?_ fun i hi => ?_⟩
  · rw [List.length_take, List.length_drop, length_along hx.shape]
    omega
  have hi' : start + i < n := by omega
  rw [List.getElem?_take_of_lt hi, List.getElem?_drop, getElem?_along hx.shape hi']
  refine select?_congr hlike hx hi hi' ?_
  rw [hrows, List.map_map]
  exact List.map_congr_left fun r _ => column_range hi

/-- Steps along an axis make parts of their sizes, which have the parts of the tensor in turn. -/
theorem parts_at {start : Nat} {ns : List Nat} (hx : Like b d (outer ++ n :: inner) x) (hle : start + ns.sum ≤ n) :
    ∃ ys, Torch.parts x outer.length start ns = some ys ∧ (∀ y ∈ ys, Crosses b d outer inner y) ∧
      ys.map (extent outer.length) = ns ∧
      ys.flatMap (along outer.length) = ((x.along outer.length).drop start).take ns.sum := by
  induction ns generalizing start with
  | nil => exact ⟨[], rfl, nofun, rfl, by simp⟩
  | cons m ns ih =>
    rw [List.sum_cons] at hle
    obtain ⟨y, hy, hlike, halong⟩ := slice?_at hx (Nat.le_add_right start m) (by omega)
    have hlater : start + m + ns.sum ≤ n := by omega
    obtain ⟨ys, hys, hcross, hextents, hrest⟩ := ih hlater
    rw [Nat.add_sub_cancel_left] at hlike halong
    refine ⟨y :: ys, ?_, List.forall_mem_cons.mpr ⟨hlike.crosses, hcross⟩, ?_, ?_⟩
    · rw [Torch.parts, hy, hys]
      rfl
    · rw [List.map_cons, extent_eq hlike.shape, hextents]
    · rw [List.flatMap_cons, halong, hrest, List.sum_cons, ← List.drop_drop, List.take_add]

/-! ### Tensors one after the other -/

/-- Two tensors one after the other have the parts of the one and then those of the other. -/
theorem append?_at (hx : Like b d (outer ++ n :: inner) x) (hy : Like b d (outer ++ m :: inner) y) :
    ∃ z, append? outer.length x y = some z ∧ Like b d (outer ++ (n + m) :: inner) z ∧
      z.along outer.length = x.along outer.length ++ y.along outer.length := by
  have hrowsx := uniform_rows_at hx.shape
  have hrowsy := uniform_rows_at hy.shape
  obtain ⟨z, hz, hlike, hrows⟩ : ∃ z, append? outer.length x y = some z ∧
      Like b d (outer ++ (n + m) :: inner) z ∧ blocks outer.size ((n + m) * inner.size) z.data =
        List.zipWith (· ++ ·) (blocks outer.size (n * inner.size) x.data)
          (blocks outer.size (m * inner.size) y.data) := by
    simp only [append?, cut?_at hx.shape, cut?_at hy.shape, and_self, dite_true]
    refine ⟨_, rfl, ⟨hx.device, hx.dtype, rfl⟩, blocks_flatten ?_⟩
    rw [Nat.add_mul]
    exact hrowsx.zipWith_append hrowsy
  have hlength := length_along hx.shape
  refine ⟨z, hz, hlike, along_eq hlike.shape ?_ fun i hi => ?_⟩
  · rw [List.length_append, hlength, length_along hy.shape]
  -- Up to the end of the first tensor the blocks of a row are its own, and from there on they are those of the second.
  rcases Nat.lt_or_ge i n with hin | hin
  · rw [List.getElem?_append_left (hlength.symm ▸ hin), getElem?_along hx.shape hin]
    refine select?_congr hlike hx hi hin ?_
    rw [hrows]
    exact map_zipWith_left (hrowsx.1.trans hrowsy.1.symm) fun r hr r' => column_append_left (hrowsx.2 r hr) hin
  · obtain ⟨j, rfl⟩ := Nat.exists_eq_add_of_le hin
    have hj : j < m := by omega
    rw [List.getElem?_append_right (by omega), hlength, Nat.add_sub_cancel_left, getElem?_along hy.shape hj]
    refine select?_congr hlike hy hi hj ?_
    rw [hrows]
    exact map_zipWith_right (hrowsx.1.trans hrowsy.1.symm) fun r hr r' => column_append_right (hrowsx.2 r hr)

theorem foldlM_append?_at (hx : Like b d (outer ++ n :: inner) x) (hxs : ∀ y ∈ xs, Crosses b d outer inner y) :
    ∃ z, xs.foldlM (append? outer.length) x = some z ∧
      Like b d (outer ++ (n + (xs.map (extent outer.length)).sum) :: inner) z ∧
      z.along outer.length = x.along outer.length ++ xs.flatMap (along outer.length) := by
  induction xs generalizing x n with
  | nil => exact ⟨x, rfl, hx, (List.append_nil _).symm⟩
  | cons y xs ih =>
    obtain ⟨w, hw, hlike, halong⟩ := append?_at hx (hxs y List.mem_cons_self)
    obtain ⟨z, hz, hlikez, halongz⟩ := ih hlike fun v hv => hxs v (List.mem_cons_of_mem _ hv)
    refine ⟨z, ?_, ?_, ?_⟩
    · rw [List.foldlM_cons, hw]
      exact hz
    · rwa [List.map_cons, List.sum_cons, ← Nat.add_assoc]
    · rw [halongz, halong, List.flatMap_cons, List.append_assoc]

/-- Tensors one after the other have the parts of each of them in turn. -/
theorem concat?_at (hne : xs ≠ []) (hxs : ∀ x ∈ xs, Crosses b d outer inner x) :
    ∃ z, concat? outer.length xs = some z ∧
      Like b d (outer ++ (xs.map (extent outer.length)).sum :: inner) z ∧
      z.along outer.length = xs.flatMap (along outer.length) := by
  obtain ⟨x, xs, rfl⟩ := List.exists_cons_of_ne_nil hne
  have hx := hxs x List.mem_cons_self
  have hfold : concat? outer.length (x :: xs) = xs.foldlM (append? outer.length) x := by
    cases xs with
    | nil => rw [concat?, cut?_at hx.shape, Option.map_some]; rfl
    | cons y xs => rfl
  rw [hfold, List.map_cons, List.sum_cons, List.flatMap_cons]
  exact foldlM_append?_at hx fun y hy => hxs y (List.mem_cons_of_mem _ hy)

/-! ### Stacks -/

/-- A tensor under one more axis is the only part along it. -/
theorem expand?_at (hx : Like b d (outer ++ inner) x) :
    ∃ z, x.expand? outer.length = some z ∧ Like b d (outer ++ 1 :: inner) z ∧ z.along outer.length = [x] := by
  have hrank : outer.length ≤ x.rank := by
    rw [rank, hx.shape, List.length_append]
    exact Nat.le_add_right _ _
  obtain ⟨z, hz, hlike, hdata⟩ : ∃ z, x.expand? outer.length = some z ∧ Like b d (outer ++ 1 :: inner) z ∧
      z.data = x.data := by
    rw [expand?, if_pos hrank]
    refine ⟨_, rfl, ⟨hx.device, hx.dtype, ?_⟩, rfl⟩
    show x.shape.take outer.length ++ 1 :: x.shape.drop outer.length = _
    rw [hx.shape, List.take_left, List.drop_left]
  refine ⟨z, hz, hlike, along_eq hlike.shape rfl fun i hi => ?_⟩
  obtain rfl : i = 0 := by omega
  obtain ⟨w, hw, hlikew, hrows⟩ := select?_at hlike hi
  have hlength : x.data.length = outer.size * inner.size := by rw [x.length_data, hx.shape, Shape.size_append]
  have huniform := uniform_blocks hlength
  have hcolumn : (blocks outer.size inner.size x.data).map (column inner.size 0) =
      blocks outer.size inner.size x.data := by
    refine (List.map_congr_left fun r hr => ?_).trans (List.map_id _)
    rw [column, Nat.zero_mul, List.drop_zero, List.take_of_length_le (Nat.le_of_eq (huniform.2 r hr))]
    rfl
  rw [hdata, Nat.one_mul, hcolumn] at hrows
  have hsame : w.data = x.data := by
    rw [← flatten_blocks (n := outer.size) (c := inner.size) (l := w.data), hrows, flatten_blocks hlength]
    rw [w.length_data, hlikew.shape, Shape.size_append]
  rw [hw, hlikew.eq hx hsame]
  rfl

/-- Tensors of one shape, each under one more axis. -/
theorem mapM_expand?_at (hxs : ∀ x ∈ xs, Like b d (outer ++ inner) x) :
    ∃ ys, (xs.mapM fun (x : Tensor) => x.expand? outer.length) = some ys ∧
      (∀ y ∈ ys, Like b d (outer ++ 1 :: inner) y) ∧ ys.map (extent outer.length) = List.replicate xs.length 1 ∧
      ys.flatMap (along outer.length) = xs := by
  induction xs with
  | nil => exact ⟨[], rfl, nofun, rfl, rfl⟩
  | cons x xs ih =>
    obtain ⟨y, hy, hlike, halong⟩ := expand?_at (hxs x List.mem_cons_self)
    obtain ⟨ys, hys, hlikes, hextents, hrest⟩ := ih fun v hv => hxs v (List.mem_cons_of_mem _ hv)
    refine ⟨y :: ys, ?_, List.forall_mem_cons.mpr ⟨hlike, hlikes⟩, ?_, ?_⟩
    · rw [List.mapM_cons, hy, hys]
      rfl
    · rw [List.map_cons, extent_eq hlike.shape, hextents]
      rfl
    · rw [List.flatMap_cons, halong, hrest]
      rfl

/-- A stack has the tensors that it was made of as its parts. -/
theorem stack?_at (hne : xs ≠ []) (hxs : ∀ x ∈ xs, Like b d (outer ++ inner) x) :
    ∃ z, stack? outer.length xs = some z ∧ Like b d (outer ++ xs.length :: inner) z ∧ z.along outer.length = xs := by
  obtain ⟨ys, hys, hlikes, hextents, halong⟩ := mapM_expand?_at hxs
  have hne' : ys ≠ [] := by
    rintro rfl
    exact hne halong.symm
  obtain ⟨z, hz, hlike, hz'⟩ := concat?_at hne' fun y hy => (hlikes y hy).crosses
  rw [hextents, List.sum_replicate_nat, Nat.mul_one] at hlike
  exact ⟨z, by rw [stack?, hys, Option.bind_some, hz], hlike, hz'.trans halong⟩

end Tensor

end Dataflow
