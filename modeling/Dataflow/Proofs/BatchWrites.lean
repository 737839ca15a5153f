import Dataflow.Proofs.Lifetimes
import Dataflow.Proofs.Parts

/-! Writes of several slots in one call. What a call compares before it writes covers the size of the array and the
    element type; a negative index, or a part of another shape than the elements have, is met by the write that it
    belongs to, and the writes before it stay. -/

namespace Dataflow.TensorArray

/-! ### What writes leave -/

/-- A write as an index and a tensor. -/
def Step.put (w : Int × Tensor) : Step := .write w.1 w.2

/-- An array after writes that have succeeded, each slot with the tensor that was written last. -/
structure Filled (a : TensorArray) (writes : List (Int × Tensor)) (b : TensorArray) : Prop where
  others : b = { a with slots := b.slots, elementShape := b.elementShape }
  nonneg : ∀ w ∈ writes, 0 ≤ w.1
  size : b.size = writes.foldl (fun n w => max n (w.1.toNat + 1)) a.size
  written : ∀ (k : Nat) (x : Tensor), LastOf (fun w => w.1 = (k : Int)) writes ((k : Int), x) →
    b.slots[k]? = some ⟨some x, false⟩
  rest : ∀ k : Nat, (∀ w ∈ writes, w.1 ≠ k) →
    b.slots[k]? = if k < a.size then a.slots[k]? else if k < b.size then some .empty else none
  elementShape : b.elementShape = (writes.head?.elim a fun w => a.pin w.2.shape).elementShape
  fits : ∀ w ∈ writes, b.elementShape.admits w.2.shape = true

namespace Filled

variable {a b : TensorArray} {writes : List (Int × Tensor)} {i : Int} {x : Tensor}

theorem refl (a : TensorArray) : Filled a [] a where
  others := rfl
  nonneg := by simp
  size := rfl
  written := fun _ _ h => absurd h not_lastOf_nil
  rest := fun k _ => by
    by_cases hk : k < a.size
    · rw [if_pos hk]
    · rw [if_neg hk, if_neg hk]
      exact List.getElem?_eq_none (Nat.not_lt.mp hk)
  elementShape := rfl
  fits := by simp

theorem eq_of_nil (h : Filled a [] b) : b = a := by
  have hsize : b.size = a.size := h.size
  have hslots : b.slots = a.slots := by
    refine List.ext_getElem? fun k => ?_
    have hk := h.rest k (by simp)
    rw [hsize] at hk
    by_cases hlt : k < a.size
    · rwa [if_pos hlt] at hk
    · rw [if_neg hlt, if_neg hlt] at hk
      rw [hk]
      exact (List.getElem?_eq_none (Nat.not_lt.mp hlt)).symm
  have helement : b.elementShape = a.elementShape := h.elementShape
  rw [h.others, hslots, helement]

theorem le_size (h : Filled a writes b) : a.size ≤ b.size := by
  have hle : ∀ n, n ≤ writes.foldl (fun n w => max n (w.1.toNat + 1)) n := by
    clear h
    induction writes with
    | nil => exact fun n => Nat.le_refl n
    | cons w writes ih => exact fun n => Nat.le_trans (Nat.le_max_left _ _) (ih _)
  rw [h.size]
  exact hle a.size

theorem dtype (h : Filled a writes b) : b.dtype = a.dtype := by rw [h.others]

theorem closed (h : Filled a writes b) : b.closed = a.closed := by rw [h.others]

/-- The first write has fixed the element shape where it is to be fixed at all. -/
theorem elementShape_concat (h : Filled a writes b) (hne : writes ≠ []) (k : Nat) (x : Tensor) :
    (b.written k x).elementShape = b.elementShape := by
  obtain ⟨w, writes, rfl⟩ := List.exists_cons_of_ne_nil hne
  have hidentical : b.identical = a.identical := by rw [h.others]
  have helement : b.elementShape = (a.pin w.2.shape).elementShape := h.elementShape
  have hkeep : (b.identical && !b.elementShape.isDefined) = false := by
    rw [hidentical, helement, pin]
    cases hid : a.identical with
    | false => rfl
    | true =>
      cases hdefined : a.elementShape.isDefined with
      | false => simp
      | true => simp [hdefined]
  rw [elementShape_written, hkeep]
  rfl

theorem concat {dtype : String} (h : Filled a writes b) (hdtype : a.dtype = .text dtype)
    (hwrite : b.writable i x = .ok ()) : Filled a (writes ++ [(i, x)]) (b.written i.toNat x) := by
  obtain ⟨-, -, hadmits, h0, -⟩ := (writable_eq_ok (h.dtype.trans hdtype)).mp hwrite
  obtain ⟨k, rfl⟩ := Int.eq_ofNat_of_zero_le h0
  rw [Int.toNat_natCast]
  have hsize : (b.written k x).size = max b.size (k + 1) := size_written
  have hle : a.size ≤ b.size := h.le_size
  refine ⟨?_, fun w hw => ?_, ?_, fun j y hy => ?_, fun j hj => ?_, ?_, fun w hw => ?_⟩
  · rw [written_with, h.others]
  · rcases List.mem_append.mp hw with hw | hw
    · exact h.nonneg w hw
    · rw [List.mem_singleton.mp hw]
      exact h0
  · rw [hsize, List.foldl_append, ← h.size]
    rfl
  · rw [slots_written]
    rcases lastOf_concat.mp hy with ⟨-, hnew⟩ | ⟨hother, hlast⟩
    · cases hnew
      rw [if_pos rfl]
    · have hjk : j ≠ k := fun hjk => hother (congrArg Int.ofNat hjk.symm)
      have hslot := h.written j y hlast
      have hlt : j < b.size := (List.getElem?_eq_some_iff.mp hslot).1
      rw [if_neg hjk, if_pos hlt, hslot]
  · have hjk : j ≠ k := fun hjk => hj (k, x) (by simp) (congrArg Int.ofNat hjk.symm)
    have hbefore := h.rest j fun w hw => hj w (List.mem_append_left _ hw)
    rw [slots_written, if_neg hjk, hsize, hbefore]
    by_cases hja : j < a.size
    · rw [if_pos (Nat.lt_of_lt_of_le hja hle), if_pos hja, if_pos hja]
    · by_cases hjb : j < b.size
      · have hmax : j < max b.size (k + 1) := Nat.lt_of_lt_of_le hjb (Nat.le_max_left _ _)
        simp only [hja, hjb, hmax, if_true, if_false]
      · have hmax : j < max b.size (k + 1) ↔ j < k := by omega
        simp only [hja, hjb, hmax, if_false]
  · cases writes with
    | nil =>
      obtain rfl := h.eq_of_nil
      rw [elementShape_written]
      show _ = (b.pin x.shape).elementShape
      unfold pin
      split <;> rfl
    | cons w writes =>
      rw [h.elementShape_concat (List.cons_ne_nil _ _) k x]
      exact h.elementShape
  · rcases List.mem_append.mp hw with hw | hw
    · rw [h.elementShape_concat (List.ne_nil_of_mem hw) k x]
      exact h.fits w hw
    · rw [List.mem_singleton.mp hw]
      exact admits_written hadmits

/-- Writes one after another, up to the first that fails, go on from the writes before them. -/
theorem effective {dtype : String} (h : Filled a writes b) (hdtype : a.dtype = .text dtype)
    (more : List (Int × Tensor)) :
    ∃ done, done <+: more ∧ TensorArray.effective (more.map .put) b = done.map .put ∧
      Filled a (writes ++ done) (performEach (more.map .put) b).2 := by
  induction more generalizing writes b with
  | nil => exact ⟨[], List.nil_prefix, rfl, by rwa [List.append_nil]⟩
  | cons w more ih =>
    rw [List.map_cons, performEach_cons, TensorArray.effective]
    rcases hw : (Step.put w).outcome b with e | ⟨⟩
    · exact ⟨[], List.nil_prefix, rfl, by rwa [List.append_nil]⟩
    · obtain ⟨done, hdone, heffective, hfilled⟩ := ih (h.concat hdtype hw)
      refine ⟨w :: done, (List.prefix_cons_inj w).mpr hdone, congrArg (Step.put w :: ·) heffective, ?_⟩
      rwa [List.append_assoc] at hfilled

end Filled

/-! ### Calls that write several slots -/

/-- A call that puts the parts of one tensor into several slots. -/
def Call.Distributes : Call → Prop
  | .scatter _ _ | .split _ _ => True
  | _ => False

theorem Call.Distributes.ne_clearAndClose {c : Call} (hc : c.Distributes) : c ≠ .clearAndClose := by
  rintro rfl
  exact hc

theorem checkElementType_eq_ok {dtype what : String} {x : Tensor} {s : Shape}
    (h : checkElementType (.text dtype) (.tensor x) what = .ok s) : x.dtype.name = dtype ∧ s = x.shape := by
  obtain ⟨hdtype, hshape⟩ := of_checkElementType h
  exact ⟨(Value.text.inj (name_of_checkDType nofun hdtype)).symm, hshape⟩

theorem zipWith_write (is : List Int) (xs : List Tensor) :
    List.zipWith Step.write is xs = (is.zip xs).map .put := by
  rw [List.zip, List.map_zipWith]
  rfl

/-- The writes that an array is to take from a call. Its size and its element type allow them; the rows of a tensor have
    one shape, and its consecutive parts go to the slots from the first one on. -/
structure Distribution (a : TensorArray) (dtype : String) (c : Call) (writes : List (Int × Tensor)) : Prop where
  opened : a.closed = false
  dtype : ∀ w ∈ writes, w.2.dtype.name = dtype
  room : ∀ w ∈ writes, w.1 < a.size ∨ a.dynamicSize.truth = true
  rows : ∀ is x, c = .scatter is x →
    (∀ w ∈ writes, w.1 ∈ is.members) ∧ ∀ v ∈ writes, ∀ w ∈ writes, v.2.shape = w.2.shape
  parts : ∀ ns x, c = .split ns x → ∀ w ∈ writes, 0 ≤ w.1

section
variable {a b : TensorArray} {dtype : String} {ts : List Step} {x : Tensor}

/-- A scatter that is accepted writes the rows of its tensor, one for each index, and there is room for them. -/
theorem steps_scatter_eq_ok {is : Sequence Int} (hdtype : a.dtype = .text dtype)
    (h : (Call.scatter is x).steps a = .ok ts) :
    a.closed = false ∧ x.dtype.name = dtype ∧ (∃ s, x.shape = is.length :: s) ∧
      (∀ i ∈ is.members, i < a.size ∨ a.dynamicSize.truth = true) ∧
      ∃ rows, x.rowsUpTo is.length = .ok rows ∧ ts = (is.members.zip rows).map .put := by
  rw [Call.steps, hdtype] at h
  obtain ⟨⟨⟩, hopened, h⟩ := Outcome.bind_eq_ok.mp h
  obtain ⟨shape, hshape, h⟩ := Outcome.bind_eq_ok.mp h
  obtain ⟨hname, rfl⟩ := checkElementType_eq_ok hshape
  dsimp only at h
  split at h
  · cases h
  rename_i hcount
  refine ⟨closed_of_opened hopened, hname, List.head?_eq_some_iff.mp (Decidable.not_not.mp hcount), ?_⟩
  split at h
  · rename_i hnone
    cases h
    have hempty : is.members = [] := List.max?_eq_none_iff.mp hnone
    have hlength : is.length = 0 := congrArg List.length hempty
    exact ⟨by simp [hempty], [], by rw [hlength]; rfl, by simp [hempty]⟩
  rename_i last hlast
  split at h
  · cases h
  rename_i hroom
  obtain ⟨rows, hrows, h⟩ := Outcome.bind_eq_ok.mp h
  cases h
  refine ⟨fun i hi => ?_, rows, hrows, zipWith_write _ _⟩
  cases hdynamic : a.dynamicSize.truth with
  | true => exact Or.inr rfl
  | false =>
    rw [hdynamic] at hroom
    have hlt : last < a.size := by simpa using hroom
    exact Or.inl (Int.lt_of_le_of_lt ((List.max?_eq_some_iff.mp hlast).2 i hi) hlt)

theorem steps_scatter {is : Sequence Int} (hdtype : a.dtype = .text dtype)
    (h : (Call.scatter is x).steps a = .ok ts) :
    ∃ writes, ts = writes.map .put ∧ Distribution a dtype (.scatter is x) writes := by
  obtain ⟨hopen, hname, ⟨s, hx⟩, hroom, rows, hrows, hts⟩ := steps_scatter_eq_ok hdtype h
  have hrow : ∀ w ∈ is.members.zip rows, x.IsRow s w.2 := fun w hw =>
    Tensor.isRow_rowsUpTo hx hrows (List.of_mem_zip hw).2
  have hindex : ∀ w ∈ is.members.zip rows, w.1 ∈ is.members := fun w hw => (List.of_mem_zip hw).1
  refine ⟨is.members.zip rows, hts, hopen, fun w hw => ?_, fun w hw => hroom _ (hindex w hw), fun _ _ hc => ?_, nofun⟩
  · rw [(hrow w hw).dtype, hname]
  · cases hc
    exact ⟨hindex, fun v hv w hw => (hrow v hv).shape.trans (hrow w hw).shape.symm⟩

/-- The first slots, as many as there are parts, each with its part. -/
def partWrites (n : Nat) (parts : List Tensor) : List (Int × Tensor) :=
  ((List.range n).map fun (k : Nat) => (k : Int)).zip parts

/-- A split that is accepted writes the parts of its tensor, and there is room for them. -/
theorem steps_split_eq_ok {ns : Sequence Int} (hdtype : a.dtype = .text dtype)
    (h : (Call.split ns x).steps a = .ok ts) :
    a.closed = false ∧ x.dtype.name = dtype ∧ x.shape ≠ [] ∧ (ns.length ≤ a.size ∨ a.dynamicSize.truth = true) ∧
      ∃ parts, x.split (.int 0) ns.members = .ok parts ∧ ts = (partWrites ns.length parts).map .put := by
  rw [Call.steps, hdtype] at h
  obtain ⟨⟨⟩, hopened, h⟩ := Outcome.bind_eq_ok.mp h
  obtain ⟨shape, hshape, h⟩ := Outcome.bind_eq_ok.mp h
  obtain ⟨hname, rfl⟩ := checkElementType_eq_ok hshape
  split at h
  · cases h
  rename_i hx
  dsimp only at h
  split at h
  · obtain ⟨-, -, h⟩ := Outcome.bind_eq_ok.mp h
    cases h
  split at h
  · cases h
  rename_i hroom
  obtain ⟨parts, hparts, h⟩ := Outcome.bind_eq_ok.mp h
  cases h
  refine ⟨closed_of_opened hopened, hname, ?_, ?_, parts, hparts, zipWith_write _ _⟩
  · rw [hx]
    exact List.cons_ne_nil _ _
  · cases hdynamic : a.dynamicSize.truth with
    | true => exact Or.inr rfl
    | false =>
      rw [hdynamic] at hroom
      exact Or.inl (by simpa using hroom)

theorem steps_split {ns : Sequence Int} (hdtype : a.dtype = .text dtype) (h : (Call.split ns x).steps a = .ok ts) :
    ∃ writes, ts = writes.map .put ∧ Distribution a dtype (.split ns x) writes := by
  obtain ⟨hopen, hname, -, hroom, parts, hparts, hts⟩ := steps_split_eq_ok hdtype h
  have hindex : ∀ w ∈ partWrites ns.length parts, ∃ k < ns.length, w.1 = (k : Nat) := by
    intro w hw
    obtain ⟨k, hk, hkw⟩ := List.mem_map.mp (List.of_mem_zip hw).1
    exact ⟨k, List.mem_range.mp hk, hkw.symm⟩
  refine ⟨_, hts, hopen, fun w hw => ?_, fun w hw => ?_, nofun, fun _ _ _ w hw => ?_⟩
  · rw [Tensor.dtype_split hparts (List.of_mem_zip hw).2, hname]
  · obtain ⟨k, hk, hkw⟩ := hindex w hw
    rw [hkw]
    exact hroom.imp_left fun hle => Int.ofNat_lt.mpr (Nat.lt_of_lt_of_le hk hle)
  · obtain ⟨k, -, hkw⟩ := hindex w hw
    rw [hkw]
    exact Int.natCast_nonneg k

theorem Call.Distributes.steps {c : Call} (hc : c.Distributes) (hdtype : a.dtype = .text dtype)
    (h : c.steps a = .ok ts) : ∃ writes, ts = writes.map .put ∧ Distribution a dtype c writes := by
  cases c with
  | scatter is x => exact steps_scatter hdtype h
  | split ns x => exact steps_split hdtype h
  | _ => cases hc

end

end Dataflow.TensorArray
