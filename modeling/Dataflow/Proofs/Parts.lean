import Dataflow.Dispatch.Structure
import Dataflow.Proofs.Selection

/-! Parts of a tensor along its outermost axis. Whichever backend makes them, they have its element type, and its rows
    have the shape that the axis leaves. -/

namespace Dataflow

/-- A tensor like the rows of another one. -/
structure Tensor.IsRow (x : Tensor) (s : Shape) (y : Tensor) : Prop where
  dtype : y.dtype = x.dtype
  shape : y.shape = s

variable {x y : Tensor} {ys : List Tensor} {s : Shape} {n : Nat}

theorem lt_of_position? {i : Int} {k : Nat} (h : position? n i = some k) : k < n := by
  unfold position? at h
  split at h
  · split at h <;> cases h
    omega
  · split at h <;> cases h
    omega

/-! ### Parts that a cut makes -/

namespace Tensor

theorem cut?_eq {t : Shape} (ht : t = n :: s) : cut? t 0 = some ⟨[], n, s, ht⟩ := by
  subst ht
  rfl

theorem cut?_outermost {t : Shape} {c : Cut t} (ht : t = n :: s) (h : cut? t 0 = some c) :
    c.outer = [] ∧ c.length = n ∧ c.inner = s := by
  subst ht
  cases h
  exact ⟨rfl, rfl, rfl⟩

theorem position?_zero (hx : x.shape ≠ []) : position? x.rank 0 = some 0 :=
  position?_ofNat (List.length_pos_iff.mpr hx)

theorem position?_outermost (hx : x.shape = n :: s) : position? x.rank 0 = some 0 :=
  position?_zero (hx ▸ List.cons_ne_nil n s)

theorem isRow_select? {i : Nat} (hx : x.shape = n :: s) (h : x.select? 0 i = some y) : x.IsRow s y := by
  unfold select? at h
  split at h
  · cases h
  · rename_i c hc
    split at h <;> cases h
    obtain ⟨houter, -, hinner⟩ := cut?_outermost hx hc
    refine ⟨rfl, ?_⟩
    show c.outer ++ c.inner = s
    rw [houter, hinner, List.nil_append]

/-- A single position in a list that takes no axis is a position. -/
theorem take?_single (hx : x.shape = n :: s) (i : Nat) : x.take? 0 [] [i] = x.select? 0 i := by
  obtain ⟨b, d, t, l, hl⟩ := x
  subst hx
  by_cases hi : i < n
  · have hall : [i].length = Shape.size [] ∧ ∀ k ∈ [i], k < n := ⟨rfl, by simpa using hi⟩
    simp only [take?, select?, cut?, dif_pos hi, dif_pos hall, List.flatMap_cons, List.flatMap_nil, List.append_nil]
  · have hnone : ¬([i].length = Shape.size [] ∧ ∀ k ∈ [i], k < n) := fun hall => hi (hall.2 i List.mem_cons_self)
    simp only [take?, select?, cut?, dif_neg hi, dif_neg hnone]

theorem dtype_slice? {k start stop : Nat} (h : x.slice? k start stop = some y) : y.dtype = x.dtype := by
  obtain ⟨c, -, rfl⟩ := Option.map_eq_some_iff.mp h
  rfl

end Tensor

/-! ### Rows -/

namespace Host

theorem word_eq_ok {bits : Nat} {f : Failure} {i j : Int} (h : word bits f i = .ok j) : i = j := by
  unfold word at h
  split at h <;> cases h
  rfl

theorem placeOn_eq_ok {i : Int} {k : Nat} (h : placeOn n i = .ok k) : position? n i = some k := by
  unfold placeOn at h
  split at h <;> cases h
  assumption

/-- A position of the outermost axis is looked at as a word, and then on the axis. -/
theorem index_eq (hx : x.shape = n :: s) (i : Int) :
    index x (.int 0) (.int i) = word 64 .tooLarge i >>= fun j =>
      if Shape.axisLimit < s.length then .error .badValue
      else placeOn n j >>= fun k => (x.select? 0 k).elim (.error .indexOutOfRange) .ok := by
  have haxis : axisNumber (.int 0) = .ok (some 0) := rfl
  have hrank : x.rank = s.length + 1 := congrArg List.length hx
  have hfirst : axisOf x.rank 0 = .ok 0 := by rw [axisOf, Tensor.position?_outermost hx]
  have hflat : ¬(x.rank = 0 ∨ (some (0 : Int)).isNone = true) :=
    fun hnone => hnone.elim (hrank ▸ Nat.succ_ne_zero _) nofun
  have hplaces : places (.int i) = do return ([], [← word 64 .tooLarge i]) := by
    show (do return (([] : Shape), ← [Value.int i].mapM place)) = _
    rw [List.mapM_cons, place, Value.wholePart, Outcome.ok_bind]
    cases word 64 .tooLarge i <;> rfl
  rw [index, haxis, Outcome.ok_bind, if_neg hflat]
  simp only [Option.getD_some, hfirst, Outcome.ok_bind, hplaces]
  cases word 64 .tooLarge i with
  | error e => rfl
  | ok j =>
    simp only [Outcome.ok_bind, Outcome.pure_eq, hrank, Nat.add_sub_cancel, List.length_nil, Nat.add_zero]
    by_cases hlimit : Shape.axisLimit < s.length
    · rw [if_pos hlimit, if_pos hlimit]
      rfl
    rw [if_neg hlimit, if_neg hlimit]
    simp only [Tensor.cut?_eq hx, Shape.size_nil, if_neg Nat.one_ne_zero, List.mapM_cons, List.mapM_nil]
    cases placeOn n j with
    | error e => rfl
    | ok k =>
      simp only [Outcome.ok_bind, Outcome.pure_eq, Tensor.take?_single hx]
      cases x.select? 0 k <;> rfl

/-- What stands at a position of the outermost axis is the part at this position. -/
theorem index_select {i : Int} (hx : x.shape = n :: s) (h : index x (.int 0) (.int i) = .ok y) :
    ∃ k, position? n i = some k ∧ x.select? 0 k = some y := by
  rw [index_eq hx] at h
  obtain ⟨j, hj, h⟩ := Outcome.bind_eq_ok.mp h
  obtain rfl := word_eq_ok hj
  split at h
  · cases h
  obtain ⟨k, hk, h⟩ := Outcome.bind_eq_ok.mp h
  refine ⟨k, placeOn_eq_ok hk, ?_⟩
  cases hselect : x.select? 0 k with
  | none =>
    rw [hselect] at h
    cases h
  | some w =>
    rw [hselect] at h
    exact congrArg some (Except.ok.inj h)

end Host

namespace Torch

theorem word_eq_ok {f : Failure} {i j : Int} (h : word f i = .ok j) : i = j := by
  unfold word at h
  split at h <;> cases h
  rfl

theorem positionOf_eq_ok {i : Int} {k : Nat} (h : positionOf n i = .ok k) : position? n i = some k := by
  unfold positionOf at h
  split at h <;> cases h
  assumption

theorem index_select {i : Int} (hx : x.shape = n :: s) (h : index x (.int 0) (.int i) = .ok y) :
    ∃ k, position? n i = some k ∧ x.select? 0 k = some y := by
  have hfirst : positionOf x.rank 0 = .ok 0 := by rw [positionOf, Tensor.position?_outermost hx]
  have hword : word .badValue 0 = .ok 0 := rfl
  simp only [index, number, hword, hfirst, Outcome.ok_bind, hx, List.getD_cons_zero] at h
  obtain ⟨j, hj, h⟩ := Outcome.bind_eq_ok.mp h
  obtain rfl := word_eq_ok hj
  obtain ⟨k, hk, h⟩ := Outcome.bind_eq_ok.mp h
  cases hselect : x.select? 0 k with
  | none =>
    rw [hselect] at h
    cases h
  | some w =>
    rw [hselect] at h
    cases h
    exact ⟨k, positionOf_eq_ok hk, hselect⟩

end Torch

/-! ### Consecutive parts -/

theorem exists_of_mapM_some {α β : Type} {f : α → Option β} {l : List α} {zs : List β} (h : l.mapM f = some zs) {z : β}
    (hz : z ∈ zs) : ∃ a ∈ l, f a = some z := by
  induction l generalizing zs with
  | nil =>
    cases h
    cases hz
  | cons a l ih =>
    rw [List.mapM_cons] at h
    obtain ⟨w, hw, h⟩ := Option.bind_eq_some_iff.mp h
    obtain ⟨ws, hws, h⟩ := Option.bind_eq_some_iff.mp h
    cases h
    rcases List.mem_cons.mp hz with rfl | hz
    · exact ⟨a, List.mem_cons_self, hw⟩
    · obtain ⟨b, hb, hfb⟩ := ih hws hz
      exact ⟨b, List.mem_cons_of_mem _ hb, hfb⟩

theorem Host.dtype_split {axis sizes : Value} (h : split x axis sizes = .ok ys) (hy : y ∈ ys) : y.dtype = x.dtype := by
  obtain ⟨vs, -, h⟩ := Outcome.bind_eq_ok.mp h
  split at h
  · cases h
    cases hy
  obtain ⟨ts, -, h⟩ := Outcome.bind_eq_ok.mp h
  obtain ⟨i, -, h⟩ := Outcome.bind_eq_ok.mp h
  split at h
  · split at h
    · obtain ⟨between, -, h⟩ := Outcome.bind_eq_ok.mp h
      dsimp only at h
      split at h
      · rename_i zs hparts
        cases h
        obtain ⟨⟨start, stop⟩, -, hslice⟩ := exists_of_mapM_some hparts hy
        exact Tensor.dtype_slice? hslice
      · cases h
    · cases h
  · cases h

theorem Torch.dtype_parts {axis start : Nat} {ns : List Nat} (h : parts x axis start ns = some ys) (hy : y ∈ ys) :
    y.dtype = x.dtype := by
  induction ns generalizing start ys with
  | nil =>
    cases h
    cases hy
  | cons n ns ih =>
    obtain ⟨z, hz, h⟩ := Option.bind_eq_some_iff.mp h
    obtain ⟨zs, hzs, h⟩ := Option.bind_eq_some_iff.mp h
    cases h
    rcases List.mem_cons.mp hy with rfl | hy
    · exact Tensor.dtype_slice? hz
    · exact ih hzs hy

theorem Torch.dtype_split {axis sizes : Value} (h : split x axis sizes = .ok ys) (hy : y ∈ ys) :
    y.dtype = x.dtype := by
  obtain ⟨vs, -, h⟩ := Outcome.bind_eq_ok.mp h
  split at h
  · obtain ⟨n, -, h⟩ := Outcome.bind_eq_ok.mp h
    obtain ⟨m, -, h⟩ := Outcome.bind_eq_ok.mp h
    obtain ⟨a, -, h⟩ := Outcome.bind_eq_ok.mp h
    obtain ⟨ms, -, h⟩ := Outcome.bind_eq_ok.mp h
    obtain ⟨ns, -, h⟩ := Outcome.bind_eq_ok.mp h
    dsimp only at h
    split at h
    · cases h
    obtain ⟨k, -, h⟩ := Outcome.bind_eq_ok.mp h
    split at h
    · cases h
    split at h
    · rename_i zs hparts
      cases h
      exact dtype_parts hparts hy
    · cases h
  · cases h
    cases hy

/-! ### Parts that an operator makes -/

namespace Operator

/-- An operator that makes parts of a tensor runs on the device of the tensor. -/
theorem apply_one {op : Operator} (hop : op.kind.parts) (x : Tensor) :
    op.apply [x] = Kernel.run x.device op.kind [.operator op, .tensor x] := by
  have hlookup : (Table.builtin [.host, .torch]).lookup (Table.typesBeside op.kind [x.device]) =
      .ok (.kernel x.device op.kind) := ((Table.decides_parts hop).found _).mpr ⟨_, rfl, rfl⟩
  rw [apply, Table.types_beside, List.map_singleton, hlookup]
  rfl

end Operator

namespace Tensor

/-- What stands at a position of the outermost axis is the part at this position. -/
theorem index_select {i : Int} (hx : x.shape = n :: s) (h : x.index (.int i) (.int 0) = .ok y) :
    ∃ k, position? n i = some k ∧ x.select? 0 k = some y := by
  obtain ⟨zs, hzs, h⟩ := Outcome.bind_eq_ok.mp h
  rw [Operator.apply_one (Or.inl rfl)] at hzs
  have hone : (do return [← Kernel.index x.device x (.int 0) (.int i)]) = Except.ok zs := hzs
  obtain ⟨z, hkernel, hone⟩ := Outcome.bind_eq_ok.mp hone
  cases hone
  cases h
  cases hdevice : x.device with
  | host =>
    rw [hdevice] at hkernel
    exact Host.index_select hx hkernel
  | torch =>
    rw [hdevice] at hkernel
    exact Torch.index_select hx hkernel

theorem isRow_rowsUpTo {m : Nat} (hx : x.shape = n :: s) (h : x.rowsUpTo m = .ok ys) (hy : y ∈ ys) : x.IsRow s y := by
  obtain ⟨i, -, hi⟩ := Outcome.exists_of_mapM h hy
  obtain ⟨k, -, hk⟩ := index_select hx hi
  exact isRow_select? hx hk

theorem dtype_split {axis : Value} {sizes : List Int} (h : x.split axis sizes = .ok ys) (hy : y ∈ ys) :
    y.dtype = x.dtype := by
  obtain ⟨⟨⟩, -, h⟩ := Outcome.bind_eq_ok.mp h
  obtain ⟨length, -, h⟩ := Outcome.bind_eq_ok.mp h
  split at h
  · cases h
  rw [Operator.apply_one (Or.inr rfl)] at h
  have hkernel : Kernel.split x.device x axis (.tuple (sizes.map .int)) = .ok ys := h
  cases hdevice : x.device with
  | host =>
    rw [hdevice] at hkernel
    exact Host.dtype_split hkernel hy
  | torch =>
    rw [hdevice] at hkernel
    exact Torch.dtype_split hkernel hy

end Tensor

end Dataflow
