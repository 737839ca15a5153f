import Dataflow.Proofs.RowMajor
import Dataflow.Proofs.Integers
import Mathlib.Algebra.Ring.Int.Defs

/-! Parts that a split makes. The host adds the sizes up in words of 64 bits, and the other backend steps from part to
    part; as long as the tensor is one that a backend can hold, both make the same parts. These have the rows of the
    tensor in their order. -/

namespace Dataflow

/-- Rows of a tensor come out as they are asked for. -/
theorem Outcome.filterMap_of_mapM {α β : Type} {f : α → Outcome β} {g : α → Option β} {l : List α} {ys : List β}
    (h : l.mapM f = .ok ys) (hfg : ∀ a ∈ l, ∀ y, f a = .ok y → g a = some y) : l.filterMap g = ys := by
  induction l generalizing ys with
  | nil =>
    cases h
    rfl
  | cons a l ih =>
    rw [List.mapM_cons] at h
    obtain ⟨y, hy, h⟩ := Outcome.bind_eq_ok.mp h
    obtain ⟨zs, hzs, h⟩ := Outcome.bind_eq_ok.mp h
    obtain rfl : y :: zs = ys := Except.ok.inj h
    rw [List.filterMap_cons_some (hfg a List.mem_cons_self y hy),
      ih hzs fun b hb => hfg b (List.mem_cons_of_mem _ hb)]

theorem getElem?_of_forall₂ {α β : Type} {R : α → β → Prop} {l : List α} {m : List β} (h : List.Forall₂ R l m) {k : Nat}
    {a : α} (ha : l[k]? = some a) : ∃ b, m[k]? = some b ∧ R a b := by
  induction h generalizing k with
  | nil => cases ha
  | cons hab _ ih =>
    cases k with
    | zero =>
      cases ha
      exact ⟨_, rfl, hab⟩
    | succ k => exact ih ha

/-! ### Sums -/

theorem sumOf_eq (ns : List Int) : sumOf ns = ns.sum := by
  have hfrom : ∀ t : Int, ns.foldl (· + ·) t = t + ns.sum := by
    induction ns with
    | nil => simp
    | cons n ns ih =>
      intro t
      rw [List.foldl_cons, ih, List.sum_cons, Int.add_assoc]
  rw [sumOf, hfrom, Int.zero_add]

theorem sum_map_toNat {ns : List Int} (h : ∀ n ∈ ns, 0 ≤ n) : ((ns.map Int.toNat).sum : Int) = ns.sum := by
  induction ns with
  | nil => rfl
  | cons n ns ih =>
    rw [List.map_cons, List.sum_cons, List.sum_cons, Int.natCast_add, Int.toNat_of_nonneg (h n List.mem_cons_self),
      ih fun m hm => h m (List.mem_cons_of_mem _ hm)]

theorem le_sum {ns : List Int} (h : ∀ n ∈ ns, 0 ≤ n) : 0 ≤ ns.sum ∧ ∀ n ∈ ns, n ≤ ns.sum := by
  induction ns with
  | nil => simp
  | cons n ns ih =>
    obtain ⟨h0, hle⟩ := ih fun m hm => h m (List.mem_cons_of_mem _ hm)
    have hn := h n List.mem_cons_self
    rw [List.sum_cons]
    refine ⟨by omega, fun m hm => ?_⟩
    rcases List.mem_cons.mp hm with rfl | hm
    · omega
    · have := hle m hm
      omega

/-! ### The sizes as the host adds them up -/

namespace Host

variable {x : Tensor} {ys : List Tensor} {s : Shape} {n : Nat}

/-- An integer as an element of a word. -/
def wordValue (n : Int) : Value := .scalar .int64 (.whole n)

theorem holds_word {n : Int} (h0 : 0 ≤ n) (h : n < 2 ^ 63) : Storage.holds true 64 n = true := by
  simp only [Storage.holds, Storage.lowest, Storage.highest, Bool.and_eq_true, decide_eq_true_eq, if_true]
  omega

theorem wrap_word {n : Int} (h0 : 0 ≤ n) (h : n < 2 ^ 63) : Storage.wrap true 64 n = n := by
  have hlow : -(((2 ^ 64 : Nat) : Int) / 2) ≤ n := by omega
  have hhigh : n < (((2 ^ 64 : Nat) : Int) + 1) / 2 := by omega
  exact Int.bmod_eq_of_le hlow hhigh

theorem plus_word {m n : Int} (h0 : 0 ≤ m + n) (h : m + n < 2 ^ 63) (hm : 0 ≤ m) (hn : 0 ≤ n) :
    (wordValue m).plus (wordValue n) = .ok (wordValue (m + n)) := by
  show Except.ok (Value.scalar .int64
    (.whole (Storage.wrap true 64 (Storage.wrap true 64 m + Storage.wrap true 64 n)))) = _
  rw [wrap_word hm (by omega), wrap_word hn (by omega), wrap_word h0 h]
  rfl

theorem runningTotals_words {t : Int} {ns : List Int} (ht : 0 ≤ t) (hns : ∀ n ∈ ns, 0 ≤ n) (h : t + ns.sum < 2 ^ 63) :
    runningTotals (wordValue t) (ns.map wordValue) = .ok ((ns.scanl (· + ·) t).map wordValue) := by
  induction ns generalizing t with
  | nil => rfl
  | cons n ns ih =>
    have hn := hns n List.mem_cons_self
    have hrest : ∀ m ∈ ns, 0 ≤ m := fun m hm => hns m (List.mem_cons_of_mem _ hm)
    have hsum := (le_sum hrest).1
    rw [List.sum_cons] at h
    rw [List.map_cons, runningTotals, plus_word (by omega) (by omega) ht hn, Outcome.ok_bind,
      ih (by omega) hrest (by omega), List.scanl_cons]
    rfl

theorem ofValues_int (ns : List Int) : Nest.ofValues (ns.map .int) = .ok (ns.map fun n => ⟨[], [.int n]⟩) := by
  induction ns with
  | nil => rfl
  | cons n ns ih =>
    rw [List.map_cons, Nest.ofValues, ih]
    rfl

theorem ofLeaves_int {n : Int} {ns : List Int} (h : ∀ m ∈ n :: ns, 0 ≤ m ∧ m < 2 ^ 63) :
    ArrayKind.ofLeaves ((n :: ns).map .int) = .element .int64 := by
  have hleaf : ∀ m ∈ n :: ns, ArrayKind.ofLeaf (.int m) = .element .int64 := fun m hm =>
    if_pos (holds_word (h m hm).1 (h m hm).2)
  rw [List.map_cons, ArrayKind.ofLeaves, hleaf n List.mem_cons_self]
  have hrest : ∀ m ∈ ns, ArrayKind.ofLeaf (.int m) = .element .int64 := fun m hm => hleaf m (List.mem_cons_of_mem _ hm)
  clear hleaf h
  induction ns with
  | nil => rfl
  | cons m ns ih =>
    rw [List.map_cons, List.foldl_cons, hrest m List.mem_cons_self]
    exact ih fun k hk => hrest k (List.mem_cons_of_mem _ hk)

theorem ofArray_int (n : Int) (ns : List Int) :
    Nest.ofArray (.list ((n :: ns).map .int)) = .ok ⟨[ns.length + 1], (n :: ns).map .int⟩ := by
  have hleaves : ((n :: ns).map fun (m : Int) => (⟨[], [.int m]⟩ : Nest)).flatMap Nest.leaves = (n :: ns).map .int := by
    rw [List.flatMap_map]
    exact List.flatMap_pure_eq_map Value.int (n :: ns)
  have hgather : Nest.gather ((n :: ns).map fun (m : Int) => ⟨[], [.int m]⟩) =
      .ok ⟨[ns.length + 1], (n :: ns).map .int⟩ := by
    rw [← hleaves, List.map_cons, Nest.gather, if_neg]
    · rw [List.length_map]
    · simp [Nest.depthBound]
  have htexts : checkTexts ((n :: ns).map .int) = .ok () := by
    simp [checkTexts]
  rw [Nest.ofArray, Nest.ofValue, ofValues_int, Outcome.ok_bind, hgather, Outcome.ok_bind, htexts]
  rfl

/-- Sizes whose sum fits into a word are added up as they are. -/
theorem totals_int {n : Int} {ns : List Int} (h0 : ∀ m ∈ n :: ns, 0 ≤ m) (hsum : (n :: ns).sum < 2 ^ 63) :
    totals ((n :: ns).map .int) = .ok ((ns.scanl (· + ·) n).map wordValue) := by
  have hbound : ∀ m ∈ n :: ns, 0 ≤ m ∧ m < 2 ^ 63 := fun m hm =>
    ⟨h0 m hm, Int.lt_of_le_of_lt ((le_sum h0).2 m hm) hsum⟩
  have hsummands : ((n :: ns).map Value.int).filterMap (fun v => v.element?.map fun e =>
      Value.scalar .int64 ((e.cast .int64).cast .int64)) = (n :: ns).map wordValue := by
    rw [List.filterMap_map, ← List.filterMap_eq_map]
    refine List.filterMap_congr fun m hm => ?_
    have hwrap := wrap_word (hbound m hm).1 (hbound m hm).2
    show some (Value.scalar .int64 (.whole (Storage.wrap true 64 (Storage.wrap true 64 m)))) = _
    rw [hwrap, hwrap]
    rfl
  have htype : totalType .int64 = .int64 := rfl
  rw [List.sum_cons] at hsum
  rw [totals, ofArray_int, Outcome.ok_bind]
  simp only [ofLeaves_int hbound, htype, hsummands]
  exact runningTotals_words (h0 n List.mem_cons_self) (fun m hm => h0 m (List.mem_cons_of_mem _ hm)) hsum

/-! ### Parts -/

theorem exists_scanl (t : Int) (ns : List Int) : ∃ rest, ns.scanl (· + ·) t = t :: rest := by
  cases ns with
  | nil => exact ⟨[], rfl⟩
  | cons n ns => exact ⟨_, List.scanl_cons⟩

theorem scanl_concat (t : Int) (ns : List Int) :
    (ns.scanl (· + ·) t).dropLast ++ [t + ns.sum] = ns.scanl (· + ·) t := by
  induction ns generalizing t with
  | nil => simp
  | cons n ns ih =>
    obtain ⟨rest, hrest⟩ := exists_scanl (t + n) ns
    have hne : ns.scanl (· + ·) (t + n) ≠ [] := by simp [hrest]
    rw [List.scanl_cons, List.dropLast_cons_of_ne_nil hne, List.sum_cons, ← Int.add_assoc, List.cons_append, ih]

/-- Between two totals that follow one another lies the part of the size between them. -/
theorem mapM_neighbours {k start : Nat} {ns : List Int} (h0 : ∀ m ∈ ns, 0 ≤ m) (hle : start + ns.sum ≤ n) :
    ((neighbours (ns.scanl (· + ·) (start : Int))).mapM fun (p : Int × Int) =>
      x.slice? k (rangeEnd n p.1) (rangeEnd n p.2)) = Torch.parts x k start (ns.map Int.toNat) := by
  -- The start moves along with the totals; no total reaches past the end, so that none is cut off.
  induction ns generalizing start with
  | nil => rfl
  | cons m ns ih =>
    have hm := h0 m List.mem_cons_self
    have hrest : ∀ k ∈ ns, 0 ≤ k := fun k hk => h0 k (List.mem_cons_of_mem _ hk)
    have hsum := (le_sum hrest).1
    rw [List.sum_cons] at hle
    have hnext : (start : Int) + m = ((start + m.toNat : Nat) : Int) := by omega
    obtain ⟨rest, hscan⟩ := exists_scanl ((start + m.toNat : Nat) : Int) ns
    have hstart : rangeEnd n (start : Int) = start := by
      rw [rangeEnd, if_pos (Int.natCast_nonneg _)]
      omega
    have hstop : rangeEnd n ((start + m.toNat : Nat) : Int) = start + m.toNat := by
      rw [rangeEnd, if_pos (Int.natCast_nonneg _)]
      omega
    rw [List.scanl_cons, hnext, hscan, neighbours, ← hscan, List.mapM_cons, ih hrest (by omega), hstart, hstop]
    rfl

/-- Sizes that add up to the axis make the parts that one steps through. -/
theorem split_along {a : Int} {k : Nat} {sizes : List Int} (ha : position? x.rank a = some k)
    (hk : x.shape[k]? = some n) (hn : n < 2 ^ 63) (h0 : ∀ m ∈ sizes, 0 ≤ m) (hsum : sizes.sum = n) :
    split x (.int a) (.tuple (sizes.map .int)) =
      (Torch.parts x k 0 (sizes.map Int.toNat)).elim (.error .indexOutOfRange) .ok := by
  cases sizes with
  | nil => rfl
  | cons m ms =>
    have hbound : (m :: ms).sum < 2 ^ 63 := by omega
    have hbetween : ((ms.scanl (· + ·) m).map wordValue).dropLast.mapM Value.position =
        .ok (ms.scanl (· + ·) m).dropLast := by
      rw [← List.map_dropLast]
      exact Outcome.mapM_map_ok (f := Value.position) (g := wordValue) (fun _ => rfl) _
    have htotals : 0 :: (ms.scanl (· + ·) m).dropLast ++ [(n : Int)] = (m :: ms).scanl (· + ·) ((0 : Nat) : Int) := by
      rw [List.scanl_cons, ← hsum, List.sum_cons, List.cons_append, scanl_concat]
      simp
    have hparts := @mapM_neighbours x n k 0 _ h0 (by omega)
    rw [split, members, Outcome.ok_bind, List.map_cons, if_neg (by simp), ← List.map_cons, totals_int h0 hbound]
    simp only [Outcome.ok_bind, Value.position, ha, hk, hbetween, htotals, hparts]
    cases Torch.parts x k 0 ((m :: ms).map Int.toNat) <;> rfl

theorem split_eq {sizes : List Int} (hx : x.shape = n :: s) (hn : n < 2 ^ 63) (h0 : ∀ m ∈ sizes, 0 ≤ m)
    (hsum : sizes.sum = n) :
    split x (.int 0) (.tuple (sizes.map .int)) =
      (Torch.parts x 0 0 (sizes.map Int.toNat)).elim (.error .indexOutOfRange) .ok :=
  split_along (Tensor.position?_outermost hx) (by rw [hx, List.getElem?_cons_zero]) hn h0 hsum

theorem split_eq_ok {sizes : List Int} (hx : x.shape = n :: s) (hn : n < 2 ^ 63) (h0 : ∀ m ∈ sizes, 0 ≤ m)
    (hsum : sizes.sum = n) (h : split x (.int 0) (.tuple (sizes.map .int)) = .ok ys) :
    Torch.parts x 0 0 (sizes.map Int.toNat) = some ys := by
  rw [split_eq hx hn h0 hsum] at h
  cases hparts : Torch.parts x 0 0 (sizes.map Int.toNat) with
  | none =>
    rw [hparts] at h
    cases h
  | some zs =>
    rw [hparts] at h
    exact congrArg some (Except.ok.inj h)

end Host

namespace Torch

variable {x : Tensor} {ys : List Tensor} {s : Shape} {n : Nat}

theorem split_eq_ok {sizes : List Int} (hx : x.shape = n :: s)
    (h : split x (.int 0) (.tuple (sizes.map .int)) = .ok ys) :
    parts x 0 0 (sizes.map Int.toNat) = some ys := by
  cases sizes with
  | nil =>
    cases h
    rfl
  | cons m ms =>
    have hfirst : positionOf x.rank 0 = .ok 0 := by rw [positionOf, Tensor.position?_outermost hx]
    have hword : word .badValue 0 = .ok 0 := rfl
    have hlater : (ms.map Value.int).mapM laterSize = .ok ms := Outcome.mapM_map_ok (f := laterSize) (fun _ => rfl) ms
    have hitems : Value.items (.tuple ((m :: ms).map .int)) = .ok (.int m :: ms.map .int) := rfl
    simp only [split, hitems, Outcome.ok_bind, number, hword, hlater, Outcome.pure_eq] at h
    obtain ⟨ns, hns, h⟩ := Outcome.bind_eq_ok.mp h
    obtain rfl : m :: ms = ns := by
      have hsame := Outcome.filterMap_of_mapM (g := some) hns fun i _ j hj => congrArg some (word_eq_ok hj)
      rwa [List.filterMap_some] at hsame
    split at h
    · cases h
    simp only [hfirst, Outcome.ok_bind] at h
    split at h
    · cases h
    split at h
    · rename_i zs hzs
      rw [hzs]
      exact congrArg some (Except.ok.inj h)
    · cases h

end Torch

/-! ### The rows of the parts -/

namespace Tensor

variable {x : Tensor} {ys : List Tensor} {s : Shape} {n : Nat}

/-- Parts of a tensor one after the other, of given sizes from a position on. -/
structure Parted (x : Tensor) (s : Shape) (start : Nat) (ns : List Nat) (ys : List Tensor) : Prop where
  part : ∀ k, k < ns.length → ys[k]? = x.slice? 0 (start + (ns.take k).sum) (start + (ns.take (k + 1)).sum)
  like : List.Forall₂ (fun m => Like x.device x.dtype (m :: s)) ns ys
  rows : ys.flatMap slices = (x.slices.drop start).take ns.sum

theorem parts_ok {start : Nat} {ns : List Nat} (hx : x.shape = n :: s) (hle : start + ns.sum ≤ n) :
    ∃ ys, Torch.parts x 0 start ns = some ys := by
  obtain ⟨ys, hys, -⟩ := parts_at (like_outermost hx) hle
  exact ⟨ys, hys⟩

theorem parted_of_parts {start : Nat} {ns : List Nat} (hx : x.shape = n :: s) (hle : start + ns.sum ≤ n)
    (h : Torch.parts x 0 start ns = some ys) : x.Parted s start ns ys := by
  induction ns generalizing start ys with
  | nil =>
    cases h
    exact ⟨fun k hk => absurd hk (Nat.not_lt_zero k), .nil, by simp⟩
  | cons m ns ih =>
    rw [List.sum_cons] at hle
    obtain ⟨y, hy, h⟩ := Option.bind_eq_some_iff.mp h
    obtain ⟨zs, hzs, h⟩ := Option.bind_eq_some_iff.mp h
    obtain rfl : y :: zs = ys := Option.some.inj h
    have hrest := ih (by omega) hzs
    obtain ⟨z, hz, hlike, hrows⟩ := slice?_outermost hx (Nat.le_add_right start m) (by omega)
    obtain rfl : z = y := Option.some.inj (hz.symm.trans hy)
    rw [Nat.add_sub_cancel_left] at hlike hrows
    refine ⟨fun k hk => ?_, .cons hlike hrest.like, ?_⟩
    · cases k with
      | zero => simpa using hy.symm
      | succ k =>
        rw [List.getElem?_cons_succ, hrest.part k (Nat.lt_of_succ_lt_succ hk), List.take_succ_cons, List.take_succ_cons,
          List.sum_cons, List.sum_cons, Nat.add_assoc, Nat.add_assoc]
    · rw [List.flatMap_cons, hrows, hrest.rows, List.sum_cons, ← List.drop_drop, List.take_add]

/-- A tensor that its backend can hold. Every array of the host is such: its axes are limited in number, its dimensions
    fit into a word, and there is room for its elements. -/
structure Storable (x : Tensor) : Prop where
  axes : x.device = .host → x.rank ≤ Shape.axisLimit
  dims : x.device = .host → ∀ n ∈ x.shape, n < 2 ^ 63
  bytes : x.device = .host → x.shape.fits x.dtype.size = true

theorem split_iff_along {a : Int} {k : Nat} {sizes : List Int} (ha : position? x.rank a = some k) (hk : x.shape[k]? = some n) :
    x.split (.int a) sizes = .ok ys ↔ (∀ m ∈ sizes, 0 ≤ m) ∧ sizes.sum = n ∧
      Kernel.split x.device x (.int a) (.tuple (sizes.map .int)) = .ok ys := by
  have hlength : x.lengthAt (.int a) = .ok n := by
    simp only [lengthAt, Value.position, Outcome.ok_bind, ha, Option.bind_some, hk, Outcome.pure_eq]
  have hnegative : sizes.any (· < 0) = true ↔ ¬∀ m ∈ sizes, 0 ≤ m := by simp
  rw [split, requireSizes, hlength, sumOf_eq]
  by_cases h0 : ∀ m ∈ sizes, 0 ≤ m
  · rw [if_neg (mt hnegative.mp (not_not_intro h0)), and_iff_right h0, Outcome.ok_bind, Outcome.ok_bind]
    by_cases hsum : sizes.sum = n
    · rw [if_neg (not_not_intro hsum), and_iff_right hsum, Operator.apply_one (Or.inr rfl)]
      exact Iff.rfl
    · rw [if_pos hsum]
      exact iff_of_false (by simp) fun h => hsum h.1
  · rw [if_pos (hnegative.mpr h0)]
    exact iff_of_false (by simp) fun h => h0 h.1

theorem split_iff {sizes : List Int} (hx : x.shape = n :: s) :
    x.split (.int 0) sizes = .ok ys ↔ (∀ m ∈ sizes, 0 ≤ m) ∧ sizes.sum = n ∧
      Kernel.split x.device x (.int 0) (.tuple (sizes.map .int)) = .ok ys :=
  split_iff_along (position?_outermost hx) (by rw [hx, List.getElem?_cons_zero])

/-- A split makes parts of the sizes that it is given, which are not negative and add up to the length of the axis. -/
theorem split_eq_ok {sizes : List Int} (hx : x.shape = n :: s) (hstorable : x.Storable)
    (h : x.split (.int 0) sizes = .ok ys) :
    (∀ m ∈ sizes, 0 ≤ m) ∧ sizes.sum = n ∧ x.Parted s 0 (sizes.map Int.toNat) ys := by
  obtain ⟨h0, hsum, hkernel⟩ := (split_iff hx).mp h
  -- Both backends take the parts that one steps through.
  have hparts : Torch.parts x 0 0 (sizes.map Int.toNat) = some ys := by
    cases hdevice : x.device with
    | host =>
      have hn : n < 2 ^ 63 := hstorable.dims hdevice n (hx ▸ List.mem_cons_self)
      rw [hdevice] at hkernel
      exact Host.split_eq_ok hx hn h0 hsum hkernel
    | torch =>
      rw [hdevice] at hkernel
      exact Torch.split_eq_ok hx hkernel
  have hle : 0 + (sizes.map Int.toNat).sum ≤ n := by
    have := sum_map_toNat h0
    omega
  exact ⟨h0, hsum, parted_of_parts hx hle hparts⟩

/-- The rows of a tensor, taken one by one. -/
theorem rowsUpTo_eq (hx : x.shape = n :: s) (h : x.rowsUpTo n = .ok ys) : ys = x.slices := by
  rw [slices, hx, List.headD_cons]
  refine (Outcome.filterMap_of_mapM h fun k hk y hy => ?_).symm
  obtain ⟨j, hj, hselect⟩ := index_select hx hy
  rw [position?_ofNat (List.mem_range.mp hk)] at hj
  cases hj
  exact hselect

end Tensor

end Dataflow
