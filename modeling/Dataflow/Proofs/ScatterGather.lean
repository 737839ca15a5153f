import Dataflow.Proofs.Collections
import Dataflow.Proofs.Joining
import Dataflow.Proofs.Splitting

/-! Scatter, and gather after it. A scatter puts the rows of a tensor into the slots that a list of indices names; of the
    rows for one slot the last one stays. A gather of the same indices stacks what it finds there, which is the tensor
    itself where no index is named twice. -/

namespace Dataflow

/-- The row of a tensor at the last position at which a list of indices has an index. -/
def Tensor.LastRow (x : Tensor) (is : List Int) (i : Int) (y : Tensor) : Prop :=
  ∃ k, is[k]? = some i ∧ (∀ j, k < j → is[j]? ≠ some i) ∧ x.select? 0 k = some y

theorem exists_last {is : List Int} {i : Int} (h : i ∈ is) :
    ∃ k : Nat, is[k]? = some i ∧ ∀ j, k < j → is[j]? ≠ some i := by
  induction is with
  | nil => cases h
  | cons j is ih =>
    by_cases hi : i ∈ is
    · obtain ⟨k, hk, hlast⟩ := ih hi
      refine ⟨k + 1, hk, fun l hl => ?_⟩
      obtain ⟨l, rfl⟩ := Nat.exists_eq_succ_of_ne_zero (Nat.ne_zero_of_lt hl)
      exact hlast l (Nat.lt_of_succ_lt_succ hl)
    · obtain rfl : i = j := (List.mem_cons.mp h).resolve_right hi
      refine ⟨0, rfl, fun l hl hmem => hi ?_⟩
      obtain ⟨l, rfl⟩ := Nat.exists_eq_succ_of_ne_zero (Nat.ne_zero_of_lt hl)
      exact List.mem_of_getElem? hmem

theorem exists_forall₂ {α β : Type} {R : α → β → Prop} {l : List α} (h : ∀ a ∈ l, ∃ b, R a b) :
    ∃ bs, List.Forall₂ R l bs := by
  induction l with
  | nil => exact ⟨[], .nil⟩
  | cons a l ih =>
    obtain ⟨b, hb⟩ := h a List.mem_cons_self
    obtain ⟨bs, hbs⟩ := ih fun c hc => h c (List.mem_cons_of_mem _ hc)
    exact ⟨b :: bs, .cons hb hbs⟩

namespace Tensor

variable {x z : Tensor} {is : List Int} {s : Shape}

theorem exists_lastRow (hx : x.shape = is.length :: s) {i : Int} (hi : i ∈ is) : ∃ y, x.LastRow is i y := by
  obtain ⟨k, hk, hlast⟩ := exists_last hi
  have hlt : k < x.slices.length := by
    rw [length_slices hx]
    exact (List.getElem?_eq_some_iff.mp hk).1
  refine ⟨x.slices[k], k, hk, hlast, ?_⟩
  rw [← getElem?_slices hx (length_slices hx ▸ hlt), List.getElem?_eq_getElem hlt]

theorem LastRow.like {i : Int} {y : Tensor} (h : x.LastRow is i y) (hx : x.shape = is.length :: s) :
    Like x.device x.dtype s y := by
  obtain ⟨k, hk, -, hy⟩ := h
  rw [← getElem?_slices hx (List.getElem?_eq_some_iff.mp hk).1] at hy
  exact like_of_mem_slices hx (List.mem_of_getElem? hy)

/-- The last rows for the indices one by one make a tensor of the same shape. -/
theorem stack_lastRows {ys : List Tensor} (hx : x.shape = is.length :: s) (hstorable : x.Storable) (hne : is ≠ [])
    (hys : List.Forall₂ (x.LastRow is) is ys) :
    ∃ z, stack ys (.int 0) = .ok z ∧ Like x.device x.dtype x.shape z ∧
      ∀ k i, is[k]? = some i → ∃ y, x.LastRow is i y ∧ z.select? 0 k = some y := by
  have hlength : ys.length = is.length := hys.length_eq.symm
  have hlike : ∀ y ∈ ys, Like x.device x.dtype s y := fun y hy => by
    obtain ⟨k, hk⟩ := List.getElem?_of_mem hy
    obtain ⟨i, -, hrow⟩ := getElem?_of_forall₂ hys.flip hk
    exact LastRow.like hrow hx
  have hall : ∀ y ∈ ys, y.device = x.device ∧ y.dtype = x.dtype ∧ y.shape = s := fun y hy =>
    ⟨(hlike y hy).device, (hlike y hy).dtype, (hlike y hy).shape⟩
  have hne' : ys ≠ [] := by
    rw [← List.length_pos_iff, hlength]
    exact List.length_pos_iff.mpr hne
  have hshape : ys.length :: s = x.shape := by rw [hlength, hx]
  have hrank : x.device = .host → s.length < Shape.axisLimit := fun hhost => by
    have haxes := hstorable.axes hhost
    rwa [rank, hx] at haxes
  obtain ⟨z, hz, hstacks⟩ := stack_ok hne' hall hrank fun hhost => hshape ▸ hstorable.bytes hhost
  have hzshape : z.shape = x.shape := hstacks.shape.trans hshape
  refine ⟨z, hz, ⟨hstacks.device, hstacks.dtype, hzshape⟩, fun k i hk => ?_⟩
  obtain ⟨y, hy, hrow⟩ := getElem?_of_forall₂ hys hk
  refine ⟨y, hrow, ?_⟩
  rw [← getElem?_slices (hzshape.trans hx) (List.getElem?_eq_some_iff.mp hk).1, hstacks.slices_eq hall, hy]

/-- Where no index is named twice, a tensor of the last rows is the tensor of all rows. -/
theorem eq_of_lastRows (hx : x.shape = is.length :: s) (hnodup : is.Nodup) (hlike : Like x.device x.dtype x.shape z)
    (hrows : ∀ k i, is[k]? = some i → ∃ y, x.LastRow is i y ∧ z.select? 0 k = some y) : z = x := by
  have hz : z.shape = is.length :: s := hlike.shape.trans hx
  refine (eq_of_slices hx hlike (List.ext_getElem? fun k => ?_)).symm
  by_cases hk : k < is.length
  -- The last position of an index is the only one.
  · obtain ⟨y, ⟨l, hl, -, hy⟩, hzy⟩ := hrows k is[k] (List.getElem?_eq_getElem hk)
    obtain rfl : k = l := (List.getElem?_inj hk hnodup).mp ((List.getElem?_eq_getElem hk).trans hl.symm)
    rw [getElem?_slices hx hk, getElem?_slices hz hk, hy, hzy]
  · have hlength : x.slices.length = z.slices.length := (length_slices hx).trans (length_slices hz).symm
    have hend : x.slices.length ≤ k := by
      rw [length_slices hx]
      exact Nat.not_lt.mp hk
    rw [List.getElem?_eq_none hend, List.getElem?_eq_none (hlength ▸ hend)]

end Tensor

namespace TensorArray

variable {a b : TensorArray} {is : List Int} {xs : List Tensor} {x : Tensor} {s : Shape}

theorem foldl_reach (n : Nat) (i : Int) (is : List Int) :
    is.foldl (fun n i => max n (i.toNat + 1)) (max n (i.toNat + 1)) = max n ((is.foldl max i).toNat + 1) := by
  induction is generalizing i with
  | nil => rfl
  | cons j is ih =>
    have hnext : max (max n (i.toNat + 1)) (j.toNat + 1) = max n ((max i j).toNat + 1) := by omega
    rw [List.foldl_cons, List.foldl_cons, hnext, ih]

/-- An array after writes to the largest of some indices, and to no larger one. -/
theorem Filled.size_of_max {last : Int} (h : Filled a (is.zip xs) b) (hlength : is.length = xs.length)
    (hlast : is.max? = some last) : b.size = max a.size (last.toNat + 1) := by
  -- Only the indices of the writes count for the size.
  have hfold : (is.zip xs).foldl (fun n w => max n (w.1.toNat + 1)) a.size =
      is.foldl (fun n i => max n (i.toNat + 1)) a.size := by
    conv_rhs => rw [← List.map_fst_zip (Nat.le_of_eq hlength), List.foldl_map]
  rw [h.size, hfold]
  cases is with
  | nil => cases hlast
  | cons i is =>
    obtain rfl : is.foldl max i = last := Option.some.inj hlast
    exact foldl_reach a.size i is

/-- An array after a scatter. -/
structure Scattered (a : TensorArray) (is : List Int) (x : Tensor) (b : TensorArray) : Prop where
  others : b = { a with slots := b.slots, elementShape := b.elementShape }
  listed : ∀ i ∈ is, 0 ≤ i ∧ ∃ y, x.LastRow is i y ∧ b.slots[i.toNat]? = some ⟨some y, false⟩
  unlisted : ∀ k : Nat, (k : Int) ∉ is → k < a.size → b.slots[k]? = a.slots[k]?
  grown : ∀ k : Nat, (k : Int) ∉ is → a.size ≤ k → k < b.size → b.slots[k]? = some .empty
  size : ∃ last, is.max? = some last ∧ b.size = max a.size (last.toNat + 1)

theorem Filled.scattered (h : Filled a (is.zip x.slices) b) (hx : x.shape = is.length :: s) (hne : is ≠ []) :
    Scattered a is x b where
  others := h.others
  listed i hi := by
    obtain ⟨y, k, hk, hlast, hy⟩ := Tensor.exists_lastRow hx hi
    have hrow : x.slices[k]? = some y :=
      (Tensor.getElem?_slices hx (List.getElem?_eq_some_iff.mp hk).1).trans hy
    obtain ⟨h0, hslot⟩ := h.slot_of_last hk hlast hrow
    exact ⟨h0, y, ⟨k, hk, hlast, hy⟩, hslot⟩
  unlisted k hk hlt := by
    rw [h.rest k fun w hw hwk => hk (hwk ▸ (List.of_mem_zip hw).1), if_pos hlt]
  grown k hk hle hlt := by
    rw [h.rest k fun w hw hwk => hk (hwk ▸ (List.of_mem_zip hw).1), if_neg (Nat.not_lt.mpr hle), if_pos hlt]
  size := by
    obtain ⟨last, hlast⟩ := Option.ne_none_iff_exists'.mp (mt List.max?_eq_none_iff.mp hne)
    exact ⟨last, hlast, h.size_of_max (Tensor.length_slices hx).symm hlast⟩

/-- After a scatter its indices can be gathered, unless the first read of a slot empties it for the second. -/
theorem Scattered.gather_ok {is : Sequence Int} (h : Scattered a is.members x b) (hx : x.shape = is.length :: s)
    (hstorable : x.Storable) (hne : is.members ≠ []) (hopen : b.closed = false)
    (hagain : b.clearAfterRead = false ∨ is.members.Nodup) (t : Session) :
    ∃ z, ((Call.gather is none).perform (t, b)).1 = .ok (.tensor z) ∧ Tensor.Like x.device x.dtype x.shape z ∧
      ∀ k i, is.members[k]? = some i → ∃ y, x.LastRow is.members i y ∧ z.select? 0 k = some y := by
  have hread : ∀ i ∈ is.members, ∃ y, x.LastRow is.members i y ∧ b.readable i = .ok y := fun i hi => by
    obtain ⟨h0, y, hy, hslot⟩ := h.listed i hi
    have hlt : i.toNat < b.size := (List.getElem?_eq_some_iff.mp hslot).1
    exact ⟨y, hy, readable_eq_ok.mpr ⟨hopen, h0, by omega, hslot⟩⟩
  obtain ⟨ys, hys⟩ := exists_forall₂ hread
  have hreads := readEach_ok (hys.imp fun i y hy => hy.2) hagain
  obtain ⟨z, hz, hlike, hlast⟩ := Tensor.stack_lastRows hx hstorable hne (hys.imp fun i y hy => hy.1)
  refine ⟨z, ?_, hlike, hlast⟩
  rw [gather_eq hopen hne hreads, hz]
  rfl

/-- After whatever calls, a scatter that succeeds leaves in each slot that it names the last of the rows for it, and in
    the other slots what they held; the array has grown to the largest index where it was too small. If a read does not
    clear, a gather of the same indices then answers the tensor of these last rows; and if no index is named twice, with
    the tensor that was scattered. -/
theorem scatter_then_gather {m : Making} {s : Session} {a : TensorArray}
    (hmake : ofArguments s m.arguments [] = .ok a) (cs : List Call) {is : Sequence Int} (hne : is.members ≠ [])
    {x : Tensor} (hstorable : x.Storable) {v : Value}
    (hok : ((Call.scatter is x).perform ((Life.of s a cs).session, (Life.of s a cs).array)).1 = .ok v) :
    let before := (Life.of s a cs).array
    let p := ((Call.scatter is x).perform ((Life.of s a cs).session, before)).2
    Scattered before is.members x p.2 ∧
      (m.clearAfterRead = false → ∃ z, ((Call.gather is none).perform p).1 = .ok (.tensor z) ∧
        Tensor.Like x.device x.dtype x.shape z ∧
        ∀ k i, is.members[k]? = some i → ∃ y, x.LastRow is.members i y ∧ z.select? 0 k = some y) ∧
      (is.members.Nodup → ((Call.gather is none).perform p).1 = .ok (.tensor x)) := by
  intro before p
  obtain rfl := Making.eq_array hmake
  have inv : Inv m before (Life.of s m.array cs).events := inv_of m s cs
  obtain ⟨ts, hsteps, hwrites⟩ := Call.filled_of_ok (c := .scatter is x) nofun inv.dtype hok
  obtain ⟨hopen, -, ⟨t, hx⟩, -, rows, hrows, rfl⟩ := steps_scatter_eq_ok inv.dtype hsteps
  obtain rfl := Tensor.rowsUpTo_eq hx hrows
  have hfilled : Filled before (is.members.zip x.slices) p.2 := hwrites _ rfl
  have hscattered := hfilled.scattered hx hne
  have hopened : p.2.closed = false := hfilled.closed.trans hopen
  have hclear : p.2.clearAfterRead = m.clearAfterRead := by
    rw [hscattered.others]
    exact inv.clearAfterRead
  refine ⟨hscattered, fun hkeep => ?_, fun hnodup => ?_⟩
  · exact hscattered.gather_ok hx hstorable hne hopened (Or.inl (hclear.trans hkeep)) p.1
  · obtain ⟨z, hz, hlike, hlast⟩ := hscattered.gather_ok hx hstorable hne hopened (Or.inr hnodup) p.1
    obtain rfl := Tensor.eq_of_lastRows hx hnodup hlike hlast
    exact hz

/-- A slot that is named twice has the later row, and gives it twice. -/
theorem scatter_then_gather_named_twice :
    let m : Making := ⟨"a", "float32", 1, none, false, true, false⟩
    let s := Session.initial [] false false
    let row (n : Int) : Tensor := .scalar .host .float32 (.real (.ofInt n))
    let x : Tensor := ⟨.host, .float32, [3], [.real (.ofInt 1), .real (.ofInt 2), .real (.ofInt 3)], rfl⟩
    let is : Sequence Int := ⟨false, [2, 0, 2]⟩
    let p := ((Call.scatter is x).perform (s, m.array)).2
    ofArguments s m.arguments [] = .ok m.array ∧ x.Storable ∧
      ((Call.scatter is x).perform (s, m.array)).1 = .ok .nothing ∧ Scattered m.array is.members x p.2 ∧
      p.2.slots = [⟨some (row 2), false⟩, .empty, ⟨some (row 3), false⟩] ∧
      ∃ z, ((Call.gather is none).perform p).1 = .ok (.tensor z) ∧ Tensor.Like x.device x.dtype x.shape z ∧
        z.data = [.real (.ofInt 3), .real (.ofInt 2), .real (.ofInt 3)] := by
  intro m s row x is p
  have hmake : ofArguments s m.arguments [] = .ok m.array := rfl
  have hne : is.members ≠ [] := nofun
  have hstorable : x.Storable := ⟨fun _ => by decide, fun _ => by decide, fun _ => by decide⟩
  have hok : ((Call.scatter is x).perform (s, m.array)).1 = .ok .nothing := by
    subst p is x s m
    rfl
  have hslots : p.2.slots = [⟨some (row 2), false⟩, .empty, ⟨some (row 3), false⟩] := by
    subst p is x row s m
    rfl
  have hgathered : ((Call.gather is none).perform p).1 = .ok (.tensor
      ⟨.host, .float32, [3], [.real (.ofInt 3), .real (.ofInt 2), .real (.ofInt 3)], rfl⟩) := by
    subst p is x s m
    rfl
  obtain ⟨hscattered, hgather, -⟩ := scatter_then_gather hmake [] hne hstorable hok
  obtain ⟨z, hz, hlike, -⟩ := hgather rfl
  refine ⟨hmake, hstorable, hok, hscattered, hslots, z, hz, hlike, ?_⟩
  rw [Value.tensor.inj (Except.ok.inj (hz.symm.trans hgathered))]

end TensorArray

end Dataflow
