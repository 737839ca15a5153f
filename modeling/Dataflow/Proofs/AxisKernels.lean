import Dataflow.Proofs.Axes
import Dataflow.Proofs.Devices
import Dataflow.Proofs.InputEdges

/-! The structural operations along any axis. An integer names an axis, counted from the innermost where it is negative.
    On tensors that a backend can hold both backends do what the axis asks for: they split and tie along it, index it,
    and stack along a new one. -/

namespace Dataflow

/-! ### Axes and limits -/

/-- The axis that an integer names, counted from the outermost. -/
def axisAt (rank : Nat) (a : Int) : Nat := (if a < 0 then a + rank else a).toNat

/-- An integer names one of so many axes. -/
def NamesAxis (rank : Nat) (a : Int) : Prop := -(rank : Int) ≤ a ∧ a < rank

instance (rank : Nat) (a : Int) : Decidable (NamesAxis rank a) := inferInstanceAs (Decidable (_ ∧ _))

variable {rank : Nat} {a : Int}

theorem NamesAxis.lt (h : NamesAxis rank a) : axisAt rank a < rank := by
  obtain ⟨hlow, hhigh⟩ := h
  unfold axisAt
  split <;> omega

theorem NamesAxis.position? (h : NamesAxis rank a) : position? rank a = some (axisAt rank a) := by
  obtain ⟨hlow, hhigh⟩ := h
  unfold Dataflow.position? axisAt
  by_cases hneg : a < 0
  · rw [if_neg (by omega), if_pos hlow, if_pos hneg]
  · rw [if_pos (by omega), if_pos hhigh, if_neg hneg]

/-- What a backend can hold: the axes and the dimensions are counted in words, and an array of the host is within its
    limits. -/
structure Device.Holds (b : Device) (d : DType) (s : Shape) : Prop where
  rank : s.length < 2 ^ 63
  dims : ∀ n ∈ s, n < 2 ^ 63
  axes : b = .host → s.length ≤ Shape.axisLimit
  bytes : b = .host → s.fits d.size = true

theorem NamesAxis.holds_word (h : NamesAxis rank a) (hrank : rank < 2 ^ 63) : Storage.holds true 64 a = true := by
  obtain ⟨hlow, hhigh⟩ := h
  simp only [Storage.holds, Storage.lowest, Storage.highest, Bool.and_eq_true, decide_eq_true_eq, if_true]
  omega

theorem NamesAxis.holds_short (h : NamesAxis rank a) (hrank : rank ≤ Shape.axisLimit) :
    Storage.holds true 32 a = true ∧ a ≠ Storage.lowest true 32 := by
  obtain ⟨hlow, hhigh⟩ := h
  have hlimit : Shape.axisLimit = 64 := rfl
  simp only [Storage.holds, Storage.lowest, Storage.highest, Bool.and_eq_true, decide_eq_true_eq, if_true]
  omega

/-- No axis of an array is mistaken for none. -/
theorem NamesAxis.axisNumber (h : NamesAxis rank a) (hrank : rank ≤ Shape.axisLimit) :
    Host.axisNumber (.int a) = .ok (some a) := by
  have hlimit : Shape.axisLimit = 64 := rfl
  obtain ⟨hshort, hlowest⟩ := h.holds_short hrank
  have hword : Host.word 64 .tooLarge a = .ok a := if_pos (h.holds_word (by omega))
  have hword' : Host.word 32 .badValue a = .ok a := if_pos hshort
  simp only [Host.axisNumber, hword, hword', Outcome.ok_bind, Outcome.pure_eq, if_neg hlowest]

variable {b : Device} {d : DType} {outer inner : Shape} {n i : Nat} {x y : Tensor} {xs : List Tensor}

/-! ### Parts at positions -/

namespace Tensor

/-- A single position in a list that takes no axis is a position. -/
theorem take?_at (hx : Like b d (outer ++ n :: inner) x) (hi : i < n) :
    x.take? outer.length [] [i] = x.select? outer.length i := by
  obtain ⟨y, hy, hlike, -⟩ := select?_at hx hi
  have hall : [i].length = Shape.size [] ∧ ∀ k ∈ [i], k < n := ⟨rfl, by simpa using hi⟩
  obtain ⟨z, hz, hlike', hdata⟩ : ∃ z, x.take? outer.length [] [i] = some z ∧ Like b d (outer ++ inner) z ∧
      z.data = y.data := by
    simp only [select?, cut?_at hx.shape, dif_pos hi, Option.some.injEq] at hy
    subst hy
    simp only [take?, cut?_at hx.shape, dif_pos hall]
    refine ⟨_, rfl, ⟨hx.device, hx.dtype, by simp⟩, ?_⟩
    simp only [List.flatMap_cons, List.flatMap_nil, List.append_nil]
  rw [hz, hy, hlike'.eq hlike hdata]

end Tensor

namespace Host

/-- The part at one position of an axis, and no elements where there are none outside the axis. -/
theorem index_along (hx : Tensor.Like b d (outer ++ n :: inner) x) (ha : position? x.rank a = some outer.length)
    (hnumber : axisNumber (.int a) = .ok (some a)) (hrank : x.rank ≤ Shape.axisLimit) (hn : n < 2 ^ 63) (hi : i < n)
    (hy : x.select? outer.length i = some y) : index x (.int a) (.int i) = .ok y := by
  have haxis : axisOf x.rank a = .ok outer.length := by rw [axisOf, ha]
  have hflat : ¬(x.rank = 0 ∨ (some a).isNone = true) := by
    rintro (hscalar | hnone)
    · exact Nat.ne_zero_of_lt (lt_of_position? ha) hscalar
    · cases hnone
  have hword : word 64 .tooLarge (i : Int) = .ok (i : Int) := if_pos (holds_word (by omega) (by omega))
  have hplaces : places (.int i) = .ok ([], [(i : Int)]) := by
    show (do return (([] : Shape), ← [Value.int i].mapM place)) = _
    rw [List.mapM_cons, place, Value.wholePart, Outcome.ok_bind, hword]
    rfl
  have hlimit : ¬Shape.axisLimit < x.rank - 1 + ([] : Shape).length := by
    rw [List.length_nil]
    omega
  have hplace : placeOn n (i : Int) = .ok i := by rw [placeOn, position?_ofNat hi]
  rw [index, hnumber, Outcome.ok_bind, if_neg hflat]
  simp only [Option.getD_some, haxis, Outcome.ok_bind, hplaces, if_neg hlimit, Tensor.cut?_at hx.shape, List.mapM_cons,
    List.mapM_nil, hplace, Outcome.pure_eq, Tensor.take?_at hx hi, hy]
  by_cases houter : outer.size = 0
  · rw [if_pos houter]
    obtain ⟨w, hw, hlike, -⟩ := Tensor.select?_at hx hi
    obtain rfl : w = y := Option.some.inj (hw.symm.trans hy)
    have hsize : Shape.size (outer ++ inner) = 0 := by rw [Shape.size_append, houter, Nat.zero_mul]
    have hzeros : Tensor.Like b d (outer ++ inner) (.zeros x.device x.dtype (outer ++ [] ++ inner)) :=
      ⟨hx.device, hx.dtype, by rw [List.append_nil]; rfl⟩
    refine congrArg Except.ok (hzeros.eq hlike ?_)
    have hempty : ∀ {v : Tensor}, Tensor.Like b d (outer ++ inner) v → v.data = [] := fun {v} hv =>
      List.eq_nil_of_length_eq_zero (by rw [v.length_data, hv.shape, hsize])
    rw [hempty hzeros, hempty hlike]
  · rw [if_neg houter]

end Host

/-! ### Operations on tensors that a backend can hold -/

/-- An integer names the axis between some dimensions and others. -/
structure AxisBetween (outer inner : Shape) (a : Int) : Prop where
  names : NamesAxis (outer.length + (inner.length + 1)) a
  place : axisAt (outer.length + (inner.length + 1)) a = outer.length

namespace AxisBetween

variable (h : AxisBetween outer inner a)
include h

theorem position? (hx : x.shape = outer ++ n :: inner) : position? x.rank a = some outer.length := by
  rw [Tensor.rank, hx, List.length_append, List.length_cons, h.names.position?, h.place]

theorem holds_word (hheld : b.Holds d (outer ++ n :: inner)) : Storage.holds true 64 a = true := by
  refine h.names.holds_word ?_
  have hrank := hheld.rank
  rwa [List.length_append, List.length_cons] at hrank

end AxisBetween

theorem Device.Holds.length_le (hheld : Device.Holds .host d (outer ++ n :: inner)) :
    outer.length + (inner.length + 1) ≤ Shape.axisLimit := by
  have haxes := hheld.axes rfl
  rwa [List.length_append, List.length_cons] at haxes

namespace Tensor

variable (h : AxisBetween outer inner a)
include h

/-- What stands at a position of an axis is the part at this position. -/
theorem index_at (hx : Like b d (outer ++ n :: inner) x) (hheld : b.Holds d (outer ++ n :: inner)) (hi : i < n)
    (hy : x.select? outer.length i = some y) : x.index (.int i) (.int a) = .ok y := by
  have hn : n < 2 ^ 63 := hheld.dims n (List.mem_append_right _ List.mem_cons_self)
  rw [index_eq, hx.device]
  cases b with
  | host =>
    have hrank : x.rank ≤ Shape.axisLimit := by
      rw [rank, hx.shape]
      exact hheld.axes rfl
    exact Host.index_along hx (h.position? hx.shape) (h.names.axisNumber hheld.length_le) hrank hn hi hy
  | torch =>
    have hextent : x.shape.getD outer.length 0 = n := extent_eq hx.shape
    exact Torch.index_along (h.holds_word hheld) (h.position? hx.shape) (Host.holds_word (by omega) (by omega))
      (by rw [hextent, position?_ofNat hi]) hy

/-- Parts of sizes that add up to an axis have the parts of the tensor in turn. -/
theorem split_at {sizes : List Int} (hx : Like b d (outer ++ n :: inner) x) (hheld : b.Holds d (outer ++ n :: inner))
    (h0 : ∀ m ∈ sizes, 0 ≤ m) (hsum : sizes.sum = n) :
    ∃ ys, x.split (.int a) sizes = .ok ys ∧ (∀ y ∈ ys, Crosses b d outer inner y) ∧
      ys.map (extent outer.length) = sizes.map Int.toNat ∧
      ys.flatMap (along outer.length) = x.along outer.length := by
  have hn : n < 2 ^ 63 := hheld.dims n (List.mem_append_right _ List.mem_cons_self)
  have hk : x.shape[outer.length]? = some n := by
    rw [hx.shape, List.getElem?_append_right (Nat.le_refl _), Nat.sub_self, List.getElem?_cons_zero]
  have htotal : (sizes.map Int.toNat).sum = n := by
    have := sum_map_toNat h0
    omega
  have hle : 0 + (sizes.map Int.toNat).sum ≤ n := by omega
  obtain ⟨ys, hys, hcross, hextents, halong⟩ := parts_at hx hle
  rw [List.drop_zero, htotal, ← length_along hx.shape, List.take_length] at halong
  refine ⟨ys, (split_iff_along (h.position? hx.shape) hk).mpr ⟨h0, hsum, ?_⟩, hcross, hextents, halong⟩
  rw [hx.device]
  cases b with
  | host => exact (Host.split_along (h.position? hx.shape) hk hn h0 hsum).trans (by rw [hys]; rfl)
  | torch => exact Torch.split_along (h.holds_word hheld) (h.position? hx.shape) hk hn h0 hsum hys

/-- A tie has the parts of each of its tensors in turn. -/
theorem tie_at (hne : xs ≠ []) (hxs : ∀ x ∈ xs, Crosses b d outer inner x)
    (hheld : b.Holds d (outer ++ (xs.map (extent outer.length)).sum :: inner)) :
    ∃ z, tie xs (.int a) = .ok z ∧ Like b d (outer ++ (xs.map (extent outer.length)).sum :: inner) z ∧
      z.along outer.length = xs.flatMap (along outer.length) := by
  have hdtypes : ∀ x ∈ xs, x.dtype = d := fun x hx => (hxs x hx).dtype
  have hpositions : ∀ x ∈ xs, position? x.rank a = some outer.length := fun x hx => h.position? (hxs x hx).shape
  rw [tie_eq hne fun x hx => (hxs x hx).device, Kernel.tensorsOf_tensors (Host.requireSameDType_ok hdtypes),
    Outcome.ok_bind]
  cases b with
  | host =>
    obtain ⟨z, hz, hlike, halong⟩ := concat?_at hne hxs
    refine ⟨z, ?_, hlike, halong⟩
    show Host.tie (.int a) xs = .ok z
    rw [Host.tie_along hne (h.names.axisNumber hheld.length_le) hpositions, Host.requireSameDType_ok hdtypes,
      Outcome.ok_bind, hz, Host.joined, hlike.shape, hlike.dtype, if_pos (hheld.bytes rfl)]
  | torch => exact Torch.tie_at hne (h.holds_word hheld) hpositions hxs

/-- A stack along a new axis has its tensors as the parts along it. -/
theorem stack_at (hne : xs ≠ []) (hxs : ∀ x ∈ xs, Like b d (outer ++ inner) x)
    (hheld : b.Holds d (outer ++ xs.length :: inner)) :
    ∃ z, stack xs (.int a) = .ok z ∧ Like b d (outer ++ xs.length :: inner) z ∧ z.along outer.length = xs := by
  have hsame : ∀ x ∈ xs, x.dtype = d ∧ x.shape = outer ++ inner := fun x hx => ⟨(hxs x hx).dtype, (hxs x hx).shape⟩
  have hposition : position? ((outer ++ inner).length + 1) a = some outer.length := by
    rw [List.length_append, Nat.add_assoc, h.names.position?, h.place]
  obtain ⟨z, hz, hlike, halong⟩ := stack?_at hne hxs
  refine ⟨z, ?_, hlike, halong⟩
  rw [stack_eq hne fun x hx => (hxs x hx).device,
    Kernel.tensorsOf_tensors (Host.requireSameDType_ok fun x hx => (hsame x hx).1), Outcome.ok_bind]
  obtain ⟨x, xs, rfl⟩ := List.exists_cons_of_ne_nil hne
  cases b with
  | host =>
    have hrank : x.rank = (outer ++ inner).length := congrArg List.length (hsame x List.mem_cons_self).2
    have hlimit := hheld.length_le
    have hbelow : ¬Shape.axisLimit ≤ x.rank := by
      rw [hrank, List.length_append]
      omega
    show Host.stack (.int a) (x :: xs) = .ok z
    rw [Host.stack_along (if_pos (h.names.holds_short hlimit).1) (by rw [hrank, hposition]),
      Host.requireSameDType_ok fun x hx => (hsame x hx).1, Outcome.ok_bind,
      if_neg (not_any_shape fun x hx => (hsame x hx).2), if_neg hbelow, hz, Host.joined, hlike.shape, hlike.dtype,
      if_pos (hheld.bytes rfl)]
  | torch => exact Torch.stack_along (h.holds_word hheld) hposition hsame hz

end Tensor

end Dataflow
