import Dataflow.Proofs.Collections
import Dataflow.Proofs.Splitting
import Dataflow.Proofs.Tying

/-! Split, and concat after it. A split puts consecutive parts of a tensor into the first slots and leaves the others as
    they are. A concat after it ties the parts together again, and what the other slots hold stands behind them. -/

namespace Dataflow

namespace Tensor

/-- The part of a tensor that has its rows from one position up to another. -/
structure HasRows (x : Tensor) (start stop : Nat) (y : Tensor) : Prop where
  like : Like x.device x.dtype ((stop - start) :: x.shape.tail) y
  slices : y.slices = (x.slices.drop start).take (stop - start)

section Parted

variable {x z : Tensor} {s : Shape} {n : Nat} {ns : List Nat} {ys rest : List Tensor}

theorem Parted.heads (h : x.Parted s 0 ns ys) : ys.map (·.shape.headD 0) = ns := by
  have hlike := h.like
  clear h
  induction hlike with
  | nil => rfl
  | cons hy _ ih => rw [List.map_cons, ih, hy.shape, List.headD_cons]

theorem Parted.fits (h : x.Parted s 0 ns ys) {y : Tensor} (hy : y ∈ ys) :
    ∃ m ∈ ns, Like x.device x.dtype (m :: s) y := by
  obtain ⟨k, hk⟩ := List.getElem?_of_mem hy
  obtain ⟨m, hm, hlike⟩ := getElem?_of_forall₂ h.like.flip hk
  exact ⟨m, List.mem_of_getElem? hm, hlike⟩

theorem Parted.ne_nil (h : x.Parted s 0 ns ys) (hne : ns ≠ []) : ys ≠ [] := by
  rintro rfl
  exact hne h.heads.symm

variable (h : x.Parted s 0 ns ys) (hx : x.shape = n :: s) (hsum : ns.sum = n)
include h hx hsum

theorem Parted.hasRows {k : Nat} (hk : k < ns.length) :
    ∃ y, ys[k]? = some y ∧ x.HasRows (ns.take k).sum (ns.take (k + 1)).sum y := by
  have hnext : (ns.take (k + 1)).sum = (ns.take k).sum + ns[k] := List.sum_take_succ ns k hk
  have hall : (ns.take (k + 1)).sum + (ns.drop (k + 1)).sum = ns.sum := List.sum_take_add_sum_drop ns (k + 1)
  have hle : (ns.take k).sum ≤ (ns.take (k + 1)).sum := by omega
  obtain ⟨y, hy, hlike, hrows⟩ := slice?_outermost hx hle (by omega)
  refine ⟨y, ?_, ?_, hrows⟩
  · rw [h.part k hk, Nat.zero_add, Nat.zero_add, hy]
  · rw [hx]
    exact hlike

theorem Parted.flatMap_slices : ys.flatMap Tensor.slices = x.slices := by
  rw [h.rows, List.drop_zero, hsum, ← length_slices hx, List.take_length]

/-- Unless the tensor is a row without elements, one of its parts is none. -/
theorem Parted.exists_solid (hne : ns ≠ []) (hsolid : x.device = .host ∨ x.shape ≠ [0]) :
    ∃ y ∈ ys, (y.device = .host ∨ y.shape ≠ [0]) ∧ y.shape.tail = s := by
  have htail : ∀ y ∈ ys, y.shape.tail = s := fun y hy => by
    obtain ⟨m, -, hlike⟩ := h.fits hy
    rw [hlike.shape, List.tail_cons]
  obtain ⟨y, hy⟩ := List.exists_mem_of_ne_nil _ (h.ne_nil hne)
  rcases hsolid with hhost | hshape
  · obtain ⟨m, -, hlike⟩ := h.fits hy
    exact ⟨y, hy, Or.inl (hlike.device.trans hhost), htail y hy⟩
  · by_contra hnone
    have hvoid : ∀ w ∈ ys, w.shape = [0] := fun w hw =>
      by_contra fun hw' => hnone ⟨w, hw, Or.inr hw', htail w hw⟩
    have hs : s = [] := by rw [← htail y hy, hvoid y hy, List.tail_cons]
    have hn : n = 0 := by
      rw [← hsum, ← h.heads]
      refine List.sum_eq_zero fun m hm => ?_
      obtain ⟨w, hw, rfl⟩ := List.mem_map.mp hm
      rw [hvoid w hw, List.headD_cons]
    exact hshape (by rw [hx, hs, hn])

/-- What parts of a tensor and others behind them make has the rows of the tensor and then those of the others. -/
theorem Parted.ties (hne : ns ≠ []) (hz : Ties (ys ++ rest) z) :
    z.device = x.device ∧ z.dtype = x.dtype ∧ z.slices = x.slices ++ rest.flatMap Tensor.slices ∧
      (x.device = .host ∨ x.shape ≠ [0] → z.shape = z.slices.length :: x.shape.tail) := by
  obtain ⟨y, hy⟩ := List.exists_mem_of_ne_nil _ (h.ne_nil hne)
  obtain ⟨m, -, hlike⟩ := h.fits hy
  obtain ⟨hdevice, hdtype⟩ := hz.alike y (List.mem_append_left _ hy)
  refine ⟨hdevice.symm.trans hlike.device, hdtype.symm.trans hlike.dtype, ?_, fun hsolid => ?_⟩
  · rw [hz.slices, List.flatMap_append, h.flatMap_slices hx hsum]
  · obtain ⟨k, t, hzshape⟩ := List.exists_cons_of_ne_nil hz.ranked
    obtain ⟨w, hw, hwsolid, hwtail⟩ := h.exists_solid hx hsum hne hsolid
    have htail := hz.inner w (List.mem_append_left _ hw) hwsolid
    rw [hwtail, hzshape, List.tail_cons] at htail
    rw [length_slices hzshape, hzshape, hx, List.tail_cons, htail]

/-- The parts of a tensor make the tensor. -/
theorem Parted.eq_of_ties (hne : ns ≠ []) (hz : Ties ys z) : z = x := by
  rw [← List.append_nil ys] at hz
  obtain ⟨hdevice, hdtype, hslices, hshape⟩ := h.ties hx hsum hne hz
  rw [List.flatMap_nil, List.append_nil] at hslices
  rw [List.append_nil] at hz
  refine (eq_of_slices hx ⟨hdevice, hdtype, ?_⟩ hslices.symm).symm
  by_cases hsolid : x.device = .host ∨ x.shape ≠ [0]
  · rw [hshape hsolid, hslices, length_slices hx, hx, List.tail_cons]
  -- A row without elements has no parts but such rows, which make one.
  · have hxshape : x.shape = [0] := by tauto
    have hnone : ys.flatMap Tensor.slices = [] := by
      rw [h.flatMap_slices hx hsum, List.eq_nil_of_length_eq_zero (length_slices hxshape)]
    refine (hz.void fun y hy => ?_).trans hxshape.symm
    obtain ⟨m, -, hlike⟩ := h.fits hy
    have hm : 0 = m := by rw [← length_slices hlike.shape, List.flatMap_eq_nil_iff.mp hnone y hy, List.length_nil]
    rw [hlike.shape, ← hm, (List.cons.inj (hx.symm.trans hxshape)).2]

theorem Parted.tie_ok (hne : ns ≠ []) (hstorable : x.Storable) : ∃ z, tie ys (.int 0) = .ok z := by
  have hfits : ∀ y ∈ ys, Fits x.device x.dtype s y := fun y hy => by
    obtain ⟨m, -, hlike⟩ := h.fits hy
    exact ⟨m, hlike⟩
  refine Tensor.tie_ok (h.ne_nil hne) hfits fun hhost => ?_
  rw [h.heads, hsum, ← hx]
  exact hstorable.bytes hhost

end Parted

end Tensor

namespace TensorArray

variable {a b : TensorArray} {parts : List Tensor} {n : Nat}

/-- An array after a split: the parts are in the first slots. -/
theorem Filled.slots_of_parts (h : Filled a (partWrites n parts) b) (hlength : parts.length = n) :
    b.slots = parts.map (fun y => ⟨some y, false⟩) ++ a.slots.drop n := by
  have hindices : ∀ (k : Nat) (i : Int), ((List.range n).map fun (k : Nat) => (k : Int))[k]? = some i ↔
      k < n ∧ i = k := by
    intro k i
    by_cases hk : k < n <;> simp [hk, eq_comm]
  have hwrites : ∀ w ∈ partWrites n parts, ∃ k < n, w.1 = (k : Nat) := fun w hw => by
    obtain ⟨k, hk⟩ := List.getElem?_of_mem (List.of_mem_zip hw).1
    exact ⟨k, (hindices k _).mp hk⟩
  refine List.ext_getElem? fun k => ?_
  by_cases hk : k < n
  · have hpart : parts[k]? = some parts[k] := List.getElem?_eq_getElem (hlength ▸ hk)
    have hlast : ∀ j, k < j → ((List.range n).map fun (k : Nat) => (k : Int))[j]? ≠ some (k : Int) := fun j hj hjk => by
      have := ((hindices j k).mp hjk).2
      omega
    obtain ⟨-, hslot⟩ := h.slot_of_last ((hindices k k).mpr ⟨hk, rfl⟩) hlast hpart
    rw [List.getElem?_append_left (by simpa [hlength] using hk), List.getElem?_map, hpart]
    exact hslot
  -- Behind the parts nothing has been written, and the array has not grown past them.
  · have hsize : b.size ≤ max a.size n := h.size_le fun w hw => by
      obtain ⟨j, hj, hjw⟩ := hwrites w hw
      omega
    have hother : ∀ w ∈ partWrites n parts, w.1 ≠ k := fun w hw hwk => by
      obtain ⟨j, hj, hjw⟩ := hwrites w hw
      omega
    have hlen : (parts.map fun y => (⟨some y, false⟩ : Slot)).length = n := by rw [List.length_map, hlength]
    rw [List.getElem?_append_right (by omega), hlen, List.getElem?_drop, Nat.add_sub_cancel' (by omega), h.rest k hother]
    by_cases hka : k < a.size
    · rw [if_pos hka]
    · rw [if_neg hka, if_neg (by omega), List.getElem?_eq_none (Nat.not_lt.mp hka)]

/-- An array after a split. -/
structure Divided (a : TensorArray) (ns : List Int) (x : Tensor) (b : TensorArray) : Prop where
  others : b = { a with slots := b.slots, elementShape := b.elementShape }
  part : ∀ k, k < ns.length → ∃ (start stop : Nat) (y : Tensor), (start : Int) = (ns.take k).sum ∧
    (stop : Int) = (ns.take (k + 1)).sum ∧ x.HasRows start stop y ∧ b.slots[k]? = some ⟨some y, false⟩
  rest : ∀ k, ns.length ≤ k → b.slots[k]? = a.slots[k]?

theorem Filled.divided {ns : List Int} {x : Tensor} {s : Shape} (h : Filled a (partWrites ns.length parts) b)
    (hparted : x.Parted s 0 (ns.map Int.toNat) parts) (hx : x.shape = n :: s) (hsum : (ns.map Int.toNat).sum = n)
    (h0 : ∀ i ∈ ns, 0 ≤ i) : Divided a ns x b := by
  have hlength : parts.length = ns.length := by rw [← hparted.like.length_eq, List.length_map]
  have hfirst : (parts.map fun y => (⟨some y, false⟩ : Slot)).length = ns.length := by rw [List.length_map, hlength]
  have hslots := h.slots_of_parts hlength
  refine ⟨h.others, fun k hk => ?_, fun k hk => ?_⟩
  · have htotal : ∀ j, (((ns.map Int.toNat).take j).sum : Int) = (ns.take j).sum := fun j => by
      rw [← List.map_take, sum_map_toNat fun i hi => h0 i (List.mem_of_mem_take hi)]
    obtain ⟨y, hy, hrows⟩ := hparted.hasRows hx hsum (by rwa [List.length_map])
    refine ⟨_, _, y, htotal k, htotal (k + 1), hrows, ?_⟩
    rw [hslots, List.getElem?_append_left (hfirst ▸ hk), List.getElem?_map, hy]
    rfl
  · rw [hslots, List.getElem?_append_right (hfirst ▸ hk), hfirst, List.getElem?_drop, Nat.add_sub_cancel' hk]

/-- What a concat answers with has the rows of what the slots hold. -/
theorem Inv.ties_of_concat {m : Making} {events : List Step} (h : Inv m a events) (hopen : a.closed = false)
    (hne : a.slots.filterMap Slot.tensor ≠ []) {s : Session} {v : Value}
    (hok : ((Call.concat none).perform (s, a)).1 = .ok v) :
    ∃ z, v = .tensor z ∧ Tensor.Ties (a.slots.filterMap Slot.tensor) z := by
  obtain ⟨hranked, z, hz, rfl⟩ := (h.concat_eq_ok hopen hne s).mp hok
  have hname : ∀ x ∈ a.slots.filterMap Slot.tensor, x.dtype.name = m.dtype := fun x hx => by
    obtain ⟨slot, hslot, htensor⟩ := List.mem_filterMap.mp hx
    obtain ⟨k, hk⟩ := List.getElem?_of_mem hslot
    exact (h.elements k slot x hk htensor).1
  exact ⟨z, rfl, Tensor.ties_of_tie hranked hname hz⟩

/-- After whatever calls, a split that succeeds puts the parts of its tensor into the first slots, each with its rows,
    and leaves the other slots as they are. A concat after it that succeeds answers with the tensor and, behind it, the
    rows of what the other slots held; if they held nothing, it succeeds, and answers with the tensor. -/
theorem split_then_concat {m : Making} {s : Session} {a : TensorArray}
    (hmake : ofArguments s m.arguments [] = .ok a) (cs : List Call) {ns : Sequence Int} (hne : ns.members ≠ [])
    {x : Tensor} (hstorable : x.Storable) {v : Value}
    (hok : ((Call.split ns x).perform ((Life.of s a cs).session, (Life.of s a cs).array)).1 = .ok v) :
    let before := (Life.of s a cs).array
    let p := ((Call.split ns x).perform ((Life.of s a cs).session, before)).2
    let rest := (before.slots.drop ns.length).filterMap Slot.tensor
    Divided before ns.members x p.2 ∧
      (∀ w, ((Call.concat none).perform p).1 = .ok w → ∃ z, w = .tensor z ∧ z.device = x.device ∧ z.dtype = x.dtype ∧
        z.slices = x.slices ++ rest.flatMap Tensor.slices ∧
        (x.device = .host ∨ x.shape ≠ [0] → z.shape = z.slices.length :: x.shape.tail)) ∧
      (rest = [] → ((Call.concat none).perform p).1 = .ok (.tensor x)) := by
  intro before p rest
  obtain rfl := Making.eq_array hmake
  have inv : Inv m before (Life.of s m.array cs).events := inv_of m s cs
  have inv' : Inv m p.2 ((Life.of s m.array cs).after (.split ns x)).events :=
    Inv.after (l := Life.of s m.array cs) inv (.split ns x)
  obtain ⟨ts, hsteps, hwrites⟩ := Call.filled_of_ok (c := .split ns x) nofun inv.dtype hok
  obtain ⟨hopen, -, hscalar, -, parts, hparts, rfl⟩ := steps_split_eq_ok inv.dtype hsteps
  obtain ⟨n, t, hx⟩ := List.exists_cons_of_ne_nil hscalar
  obtain ⟨h0, hsum, hparted⟩ := Tensor.split_eq_ok hx hstorable hparts
  have hfilled : Filled before (partWrites ns.length parts) p.2 := hwrites _ rfl
  have htotal : (ns.members.map Int.toNat).sum = n := by
    have := sum_map_toNat h0
    omega
  have hsizes : ns.members.map Int.toNat ≠ [] := mt List.map_eq_nil_iff.mp hne
  have hdivided : Divided before ns.members x p.2 := hfilled.divided hparted hx htotal h0
  have hopened : p.2.closed = false := hfilled.closed.trans hopen
  have hheld : p.2.slots.filterMap Slot.tensor = parts ++ rest := by
    have hlength : parts.length = ns.length := by
      rw [← hparted.like.length_eq, List.length_map]
      rfl
    rw [hfilled.slots_of_parts hlength, List.filterMap_append, List.filterMap_map]
    exact congrArg (· ++ rest) List.filterMap_some
  have hsome : p.2.slots.filterMap Slot.tensor ≠ [] := by
    rw [hheld]
    exact List.append_ne_nil_of_left_ne_nil (hparted.ne_nil hsizes) rest
  refine ⟨hdivided, fun w hw => ?_, fun hrest => ?_⟩
  · obtain ⟨z, rfl, hties⟩ := inv'.ties_of_concat hopened hsome hw
    rw [hheld] at hties
    exact ⟨z, rfl, hparted.ties hx htotal hsizes hties⟩
  -- The parts alone can be tied, and what they make has the rows of the tensor.
  · have hall : p.2.slots.filterMap Slot.tensor = parts := by rw [hheld, hrest, List.append_nil]
    obtain ⟨z, hz⟩ := hparted.tie_ok hx htotal hsizes hstorable
    have hranked : ∀ y ∈ parts, y.shape ≠ [] := fun y hy => by
      obtain ⟨k, -, hlike⟩ := hparted.fits hy
      rw [hlike.shape]
      exact List.cons_ne_nil _ _
    rw [← hall] at hz hranked
    have hconcat : ((Call.concat none).perform p).1 = .ok (.tensor z) :=
      (inv'.concat_eq_ok hopened hsome p.1).mpr ⟨hranked, z, hz, rfl⟩
    obtain ⟨w, hw, hties⟩ := inv'.ties_of_concat hopened hsome hconcat
    obtain rfl := Value.tensor.inj hw
    rw [hall] at hties
    rwa [hparted.eq_of_ties hx htotal hsizes hties] at hconcat

/-- What is left in a slot behind the parts stands behind them in the answer. -/
theorem split_then_concat_over_old_slot :
    let m : Making := ⟨"a", "float32", 4, none, false, false, true⟩
    let s := Session.initial [] false false
    let x : Tensor := ⟨.host, .float32, [3], [.real (.ofInt 1), .real (.ofInt 2), .real (.ofInt 3)], rfl⟩
    let old : Tensor := ⟨.host, .float32, [1], [.real (.ofInt 4)], rfl⟩
    let l := Life.of s m.array [.write 3 old]
    let ns : Sequence Int := ⟨false, [2, 0, 1]⟩
    let p := ((Call.split ns x).perform (l.session, l.array)).2
    ofArguments s m.arguments [] = .ok m.array ∧ x.Storable ∧
      ((Call.split ns x).perform (l.session, l.array)).1 = .ok .nothing ∧ Divided l.array ns.members x p.2 ∧
      ∃ z, ((Call.concat none).perform p).1 = .ok (.tensor z) ∧ z.shape = [4] ∧
        z.slices = x.slices ++ old.slices := by
  intro m s x old l ns p
  have hmake : ofArguments s m.arguments [] = .ok m.array := rfl
  have hne : ns.members ≠ [] := nofun
  have hstorable : x.Storable := ⟨fun _ => by decide, fun _ => by decide, fun _ => by decide⟩
  have hok : ((Call.split ns x).perform (l.session, l.array)).1 = .ok .nothing := by
    subst p ns l old x s m
    rfl
  have hanswer : ((Call.concat none).perform p).1 = .ok (.tensor ⟨.host, .float32, [4],
      [.real (.ofInt 1), .real (.ofInt 2), .real (.ofInt 3), .real (.ofInt 4)], rfl⟩) := by
    subst p ns l old x s m
    rfl
  obtain ⟨hdivided, hconcat, -⟩ := split_then_concat hmake [.write 3 old] hne hstorable hok
  obtain ⟨z, hz, -, -, hrows, -⟩ := hconcat _ hanswer
  have hrest : (l.array.slots.drop ns.length).filterMap Slot.tensor = [old] := by
    subst p ns l old x s m
    rfl
  rw [hrest, List.flatMap_singleton, ← Value.tensor.inj hz] at hrows
  exact ⟨hmake, hstorable, hok, hdivided, _, hanswer, rfl, hrows⟩

end TensorArray

end Dataflow
