import Dataflow.Proofs.Following
import Dataflow.Proofs.Splitting
import Dataflow.Proofs.Tying

/-! Tensors on another device. What the host makes of its tensors, the other backend makes of the same tensors held by
    itself: their parts, their rows, stacks and ties. The host asks for more, so that it may fail where the other backend
    does not. -/

namespace Dataflow

open Outcome (Follows)

namespace Tensor

variable {x y : Tensor} {xs : List Tensor} {b : Device} {s : Shape} {n k : Nat}

/-- The same tensor, held by another device. -/
def on (b : Device) (x : Tensor) : Tensor := ⟨b, x.dtype, x.shape, x.data, x.length_data⟩

theorem on_self (h : x.device = b) : x.on b = x := by
  subst h
  rfl

/-- A tensor of the host, and the same one held by the other backend. -/
structure Twin (x y : Tensor) : Prop where
  host : x.device = .host
  eq : y = x.on .torch

/-- Tensors that differ at most in who holds them. -/
structure Agrees (x y : Tensor) : Prop where
  dtype : x.dtype = y.dtype
  shape : x.shape = y.shape
  data : x.data = y.data

theorem Agrees.refl (x : Tensor) : x.Agrees x := ⟨rfl, rfl, rfl⟩

theorem Twin.agrees (h : Twin x y) : x.Agrees y := by
  obtain ⟨-, rfl⟩ := h
  exact ⟨rfl, rfl, rfl⟩

theorem twin_of_fixed (h : (some x).map (on .host) = some x) : Twin x (x.on .torch) :=
  ⟨congrArg device (Option.some.inj h).symm, rfl⟩

theorem device_of_moved (h : x ∈ xs.map (on b)) : x.device = b := by
  obtain ⟨y, -, rfl⟩ := List.mem_map.mp h
  rfl

theorem map_on_self (h : ∀ x ∈ xs, x.device = b) : xs.map (on b) = xs :=
  (List.map_congr_left fun x hx => on_self (h x hx)).trans (List.map_id _)

theorem forall₂_twin {ys : List Tensor} (h : List.Forall₂ Twin xs ys) :
    (∀ x ∈ xs, x.device = .host) ∧ ys = xs.map (on .torch) := by
  induction h with
  | nil => exact ⟨nofun, rfl⟩
  | cons hxy _ ih => exact ⟨List.forall_mem_cons.mpr ⟨hxy.host, ih.1⟩, List.cons_eq_cons.mpr ⟨hxy.eq, ih.2⟩⟩

theorem twins_of_host (h : ∀ x ∈ xs, x.device = .host) : List.Forall₂ Twin xs (xs.map (on .torch)) := by
  rw [List.forall₂_map_right_iff, List.forall₂_same]
  exact fun x hx => ⟨h x hx, rfl⟩

/-! ### Parts and joins wherever they are held -/

theorem select?_on (b : Device) (x : Tensor) (k i : Nat) : (x.on b).select? k i = (x.select? k i).map (on b) := by
  simp only [select?, on]
  cases cut? x.shape k with
  | none => rfl
  | some c =>
    by_cases hi : i < c.length
    · simp only [dif_pos hi]
      rfl
    · simp only [dif_neg hi]
      rfl

theorem slice?_on (b : Device) (x : Tensor) (k start stop : Nat) :
    (x.on b).slice? k start stop = (x.slice? k start stop).map (on b) := by
  simp only [slice?, on]
  cases cut? x.shape k <;> rfl

theorem append?_on (b : Device) (k : Nat) (x y : Tensor) :
    append? k (x.on b) (y.on b) = (append? k x y).map (on b) := by
  simp only [append?, on]
  rcases cut? x.shape k with _ | c
  · rfl
  rcases cut? y.shape k with _ | d
  · rfl
  by_cases h : c.outer = d.outer ∧ c.inner = d.inner
  · simp only [dif_pos h]
    rfl
  · simp only [dif_neg h]
    rfl

theorem foldlM_append?_on (b : Device) (k : Nat) (x : Tensor) (xs : List Tensor) :
    (xs.map (on b)).foldlM (append? k) (x.on b) = (xs.foldlM (append? k) x).map (on b) := by
  induction xs generalizing x with
  | nil => rfl
  | cons y xs ih =>
    rw [List.map_cons, List.foldlM_cons, List.foldlM_cons, append?_on]
    cases append? k x y with
    | none => rfl
    | some z => exact ih z

theorem concat?_on (b : Device) (k : Nat) (xs : List Tensor) :
    concat? k (xs.map (on b)) = (concat? k xs).map (on b) := by
  rcases xs with _ | ⟨x, _ | ⟨y, xs⟩⟩
  · rfl
  · simp only [List.map_cons, List.map_nil, concat?, on]
    cases cut? x.shape k <;> rfl
  · simp only [List.map_cons, concat?, append?_on]
    cases append? k x y with
    | none => rfl
    | some z => exact foldlM_append?_on b k z xs

theorem stack?_on (b : Device) (xs : List Tensor) : stack? 0 (xs.map (on b)) = (stack? 0 xs).map (on b) := by
  have hraised (ys : List Tensor) : (ys.mapM fun (y : Tensor) => y.expand? 0) = some (ys.map raised) := by
    rw [show (fun (y : Tensor) => y.expand? 0) = fun y => pure y.raised from funext expand?_outermost, List.mapM_pure]
    rfl
  have hmoved : (xs.map (on b)).map raised = (xs.map raised).map (on b) := by
    rw [List.map_map, List.map_map]
    rfl
  rw [stack?, stack?, hraised, hraised, Option.bind_some, Option.bind_some, hmoved, concat?_on]

theorem parts_on (b : Device) (x : Tensor) (start : Nat) (ns : List Nat) :
    Torch.parts (x.on b) 0 start ns = (Torch.parts x 0 start ns).map (List.map (on b)) := by
  induction ns generalizing start with
  | nil => rfl
  | cons n ns ih =>
    rw [Torch.parts, Torch.parts, slice?_on, ih]
    cases x.slice? 0 start (start + n) with
    | none => rfl
    | some y => cases Torch.parts x 0 (start + n) ns <;> rfl

end Tensor

/-! ### What the other backend makes of what the host takes -/

namespace Host

variable {x y : Tensor} {i : Int}

/-- A position that the host finds fits into a word. -/
theorem holds_of_index (h : index x (.int 0) (.int i) = .ok y) : Storage.holds true 64 i = true := by
  have haxis : axisNumber (.int 0) = .ok (some 0) := rfl
  rw [index, haxis, Outcome.ok_bind] at h
  obtain ⟨k, -, h⟩ := Outcome.bind_eq_ok.mp h
  obtain ⟨⟨t, is⟩, hplaces, -⟩ := Outcome.bind_eq_ok.mp h
  have hone : (do return (([] : Shape), ← [Value.int i].mapM place)) = Except.ok (t, is) := hplaces
  obtain ⟨js, hjs, -⟩ := Outcome.bind_eq_ok.mp hone
  obtain ⟨j, hj⟩ := Outcome.ok_of_mapM hjs List.mem_cons_self
  obtain ⟨m, hm, hj⟩ := Outcome.bind_eq_ok.mp hj
  cases hm
  unfold word at hj
  split at hj
  · assumption
  · cases hj

end Host

namespace Torch

variable {x y : Tensor} {ys : List Tensor} {s : Shape} {n k : Nat} {i : Int}

theorem index_along {a : Int} {j : Nat} (hword : Storage.holds true 64 a = true) (ha : position? x.rank a = some k)
    (hi : Storage.holds true 64 i = true) (hj : position? (x.shape.getD k 0) i = some j)
    (hy : x.select? k j = some y) : index x (.int a) (.int i) = .ok y := by
  have hword : word .badValue a = .ok a := if_pos hword
  have hindex : word .badValue i = .ok i := if_pos hi
  have haxis : positionOf x.rank a = .ok k := by rw [positionOf, ha]
  have hposition : positionOf (x.shape.getD k 0) i = .ok j := by rw [positionOf, hj]
  simp only [index, number, Outcome.ok_bind, hindex, hword, haxis, hposition, hy, Outcome.pure_eq]

theorem index_ok (hx : x.shape = n :: s) (hi : Storage.holds true 64 i = true) (hk : position? n i = some k)
    (hy : x.select? 0 k = some y) : index x (.int 0) (.int i) = .ok y :=
  index_along rfl (Tensor.position?_outermost hx) hi (by rwa [hx, List.getD_cons_zero]) hy

theorem split_along {a : Int} {sizes : List Int} (hword : Storage.holds true 64 a = true)
    (ha : position? x.rank a = some k) (hk : x.shape[k]? = some n) (hn : n < 2 ^ 63) (h0 : ∀ m ∈ sizes, 0 ≤ m)
    (hsum : sizes.sum = n) (hys : parts x k 0 (sizes.map Int.toNat) = some ys) :
    split x (.int a) (.tuple (sizes.map .int)) = .ok ys := by
  cases sizes with
  | nil =>
    cases hys
    rfl
  | cons m ms =>
    have hle := (le_sum h0).2
    have hword : word .badValue a = .ok a := if_pos hword
    have haxis : positionOf x.rank a = .ok k := by rw [positionOf, ha]
    have hlength : x.shape.getD k 0 = n := by rw [List.getD_eq_getElem?_getD, hk, Option.getD_some]
    have hlater : (ms.map Value.int).mapM laterSize = .ok ms := Outcome.mapM_map_ok (f := laterSize) (fun _ => rfl) ms
    have hitems : Value.items (.tuple ((m :: ms).map .int)) = .ok (.int m :: ms.map .int) := rfl
    have hwords : (m :: ms).mapM (word .wrongType) = .ok (m :: ms) := by
      have hone : ∀ k ∈ m :: ms, word .wrongType k = .ok (id k) := fun k hk =>
        if_pos (Host.holds_word (h0 k hk) (Int.lt_of_le_of_lt (hle k hk) (by omega)))
      rw [Outcome.mapM_ok hone, List.map_id]
    have hleast : ¬((m :: ms).any (· < leastSize) = true ∨ x.rank = 0) := by
      rintro (hany | hrank)
      · obtain ⟨k, hk, hlt⟩ := List.any_eq_true.mp hany
        have hneg : leastSize < 0 := by decide
        have hlt : k < leastSize := of_decide_eq_true hlt
        have := h0 k hk
        omega
      · rw [List.length_eq_zero_iff.mp hrank] at hk
        cases hk
    have htotal : ¬((m :: ms).any (· < 0) = true ∨ sumOf (m :: ms) ≠ (n : Nat)) := by
      rintro (hany | hne)
      · obtain ⟨k, hk, hlt⟩ := List.any_eq_true.mp hany
        have hlt : k < 0 := of_decide_eq_true hlt
        have := h0 k hk
        omega
      · exact hne ((sumOf_eq _).trans hsum)
    simp only [split, hitems, Outcome.ok_bind, number, hword, hlater, Outcome.pure_eq, hwords, if_neg hleast, haxis,
      hlength, if_neg htotal, hys]

theorem split_ok {sizes : List Int} (hx : x.shape = n :: s) (hn : n < 2 ^ 63) (h0 : ∀ m ∈ sizes, 0 ≤ m)
    (hsum : sizes.sum = n) (hys : parts x 0 0 (sizes.map Int.toNat) = some ys) :
    split x (.int 0) (.tuple (sizes.map .int)) = .ok ys :=
  split_along rfl (Tensor.position?_outermost hx) (by rw [hx, List.getElem?_cons_zero]) hn h0 hsum hys

end Torch

/-! ### Operations on tensors -/

namespace Tensor

variable {x y z : Tensor} {xs ys : List Tensor} {s : Shape} {n k : Nat} {i : Int}

theorem index_eq (x : Tensor) (i axis : Value) : x.index i axis = Kernel.index x.device x axis i := by
  rw [index, Operator.applySingle, Operator.apply_one (Or.inl rfl)]
  show ((do return [← Kernel.index x.device x axis i] : Outcome (List Tensor)) >>= _) = _
  cases Kernel.index x.device x axis i <;> rfl

theorem follows_index (hx : x.device = .host) (hshape : x.shape = n :: s) (i : Int) :
    Follows Twin (x.index (.int i) (.int 0)) ((x.on .torch).index (.int i) (.int 0)) := by
  intro y hy
  obtain ⟨k, hk, hselect⟩ := index_select hshape hy
  rw [index_eq, hx] at hy
  refine ⟨y.on .torch, ?_, twin_of_fixed ?_⟩
  · have hmoved : (x.on .torch).select? 0 k = some (y.on .torch) := by
      rw [select?_on, hselect]
      rfl
    rw [index_eq]
    exact Torch.index_ok hshape (Host.holds_of_index hy) hk hmoved
  · rw [← hselect, ← select?_on, on_self hx]

theorem follows_rowsUpTo (hx : x.device = .host) (hshape : x.shape = n :: s) (m : Nat) :
    Follows (List.Forall₂ Twin) (x.rowsUpTo m) ((x.on .torch).rowsUpTo m) :=
  .mapM (List.forall₂_same.mpr fun k _ => follows_index hx hshape k)

theorem follows_split (hx : x.device = .host) (hshape : x.shape = n :: s) (hn : n < 2 ^ 63) (sizes : List Int) :
    Follows (List.Forall₂ Twin) (x.split (.int 0) sizes) ((x.on .torch).split (.int 0) sizes) := by
  intro ys hys
  obtain ⟨h0, hsum, hkernel⟩ := (split_iff hshape).mp hys
  rw [hx] at hkernel
  have hparts := Host.split_eq_ok hshape hn h0 hsum hkernel
  have hmoved : Torch.parts (x.on .torch) 0 0 (sizes.map Int.toNat) = some (ys.map (on .torch)) := by
    rw [parts_on, hparts]
    rfl
  have hsplit := Torch.split_ok (x := x.on .torch) hshape hn h0 hsum hmoved
  refine ⟨ys.map (on .torch), (split_iff (x := x.on .torch) hshape).mpr ⟨h0, hsum, hsplit⟩, ?_⟩
  · refine twins_of_host fun y hy => ?_
    have hfixed : ys.map (on .host) = ys := by
      have hsame := parts_on .host x 0 (sizes.map Int.toNat)
      rw [on_self hx, hparts] at hsame
      exact (Option.some.inj hsame).symm
    rw [← hfixed] at hy
    obtain ⟨w, -, rfl⟩ := List.mem_map.mp hy
    rfl

theorem follows_stack (hxs : ∀ x ∈ xs, x.device = .host) :
    Follows Twin (stack xs (.int 0)) (stack (xs.map (on .torch)) (.int 0)) := by
  intro z hz
  rcases xs with _ | ⟨x, xs⟩
  · cases hz
  rw [stack_eq (List.cons_ne_nil x xs) hxs] at hz
  obtain ⟨ys, hys, hkernel⟩ := Outcome.bind_eq_ok.mp hz
  obtain rfl := Kernel.tensorsOf_eq_ok hys
  obtain ⟨halike, -, hstack, -⟩ := Host.stack_eq_ok hkernel
  have hmoved : stack? 0 ((x :: xs).map (on .torch)) = some (z.on .torch) := by
    rw [stack?_on, hstack]
    rfl
  have halikeMoved : ∀ y ∈ (x :: xs).map (on .torch), y.dtype = x.dtype ∧ y.shape = x.shape := fun y hy => by
    obtain ⟨w, hw, rfl⟩ := List.mem_map.mp hy
    exact halike w hw
  refine ⟨z.on .torch, ?_, twin_of_fixed ?_⟩
  · have hne : (x :: xs).map (on .torch) ≠ [] := List.cons_ne_nil _ _
    rw [stack_eq hne fun _ => device_of_moved,
      Kernel.tensorsOf_tensors (Host.requireSameDType_ok fun y hy => (halikeMoved y hy).1), Outcome.ok_bind]
    exact Torch.stack_eq halikeMoved hmoved
  · rw [← hstack, ← stack?_on, map_on_self hxs]

theorem follows_tie (hxs : ∀ x ∈ xs, x.device = .host) (hranked : ∀ x ∈ xs, x.shape ≠ []) :
    Follows Twin (tie xs (.int 0)) (tie (xs.map (on .torch)) (.int 0)) := by
  intro z hz
  have hne : xs ≠ [] := by
    rintro rfl
    cases hz
  have hneMoved : xs.map (on .torch) ≠ [] := mt List.map_eq_nil_iff.mp hne
  rw [tie_eq hne hxs] at hz
  obtain ⟨ys, hys, hkernel⟩ := Outcome.bind_eq_ok.mp hz
  obtain rfl : ys = xs := Kernel.tensorsOf_eq_ok hys
  obtain ⟨d, s, hfits, hconcat, -⟩ := Host.fits_of_tie hxs hranked hkernel
  have hmoved : concat? 0 (ys.map (on .torch)) = some (z.on .torch) := by
    rw [concat?_on, hconcat]
    rfl
  have hfitsMoved : ∀ y ∈ ys.map (on .torch), Fits .torch d s y := fun y hy => by
    obtain ⟨w, hw, rfl⟩ := List.mem_map.mp hy
    obtain ⟨n, hlike⟩ := hfits w hw
    exact ⟨n, ⟨rfl, hlike.dtype, hlike.shape⟩⟩
  have hdtypes : ∀ y ∈ ys.map (on .torch), y.dtype = d := fun y hy => (hfitsMoved y hy).elim fun _ h => h.dtype
  -- The backend leaves out rows without elements, which makes no difference to what the tensors are tied to.
  obtain ⟨w, hw, hjoins⟩ := concat?_joins hneMoved hfitsMoved
  obtain rfl : w = z.on .torch := Option.some.inj (hw.symm.trans hmoved)
  obtain ⟨w, hw⟩ := tie_ok hneMoved hfitsMoved nofun
  have hrankedMoved : ∀ y ∈ ys.map (on .torch), y.shape ≠ [] := fun y hy => by
    obtain ⟨v, hv, rfl⟩ := List.mem_map.mp hy
    exact hranked v hv
  have hties := ties_of_tie hrankedMoved (fun y hy => congrArg DType.name (hdtypes y hy)) hw
  obtain rfl := (hjoins.ties hneMoved hfitsMoved).unique hneMoved hties
  refine ⟨_, hw, twin_of_fixed ?_⟩
  rw [← hconcat, ← concat?_on, map_on_self hxs]

end Tensor

end Dataflow
