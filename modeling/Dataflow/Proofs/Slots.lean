import Dataflow.Proofs.Integers
import Dataflow.TensorArray.Basic

/-! Reads and writes of one slot, by an integer index and of a tensor. Everything that can go wrong is looked at before
    anything changes: a read or a write that fails leaves the array as it is, and one that succeeds changes its slot,
    the size where the array grows, and the element shape where this is fixed. -/

namespace Dataflow

/-! ### Checks of a tensor -/

/-- A value equals a text only if it is this text. -/
theorem Value.eq_text {v : Value} {s : String} (h : v.equals (.text s) = .ok true) : v = .text s := by
  cases v with
  | text t => simpa [equals, equalAtoms] using h
  | nothing | flag | int | real | bytes | list | tuple | tensor => simp [equals, equalAtoms, align, number?] at h
  | scalar => simp [equals, equalAtoms, align, alignScalar] at h

theorem Value.eq_tensor {v : Value} {x : Tensor} (h : v.toTensor = .ok x) : v = .tensor x := by
  cases v <;> cases h
  rfl

theorem checkElementType_tensor (expected : Value) (x : Tensor) (what : String) :
    checkElementType expected (.tensor x) what = do
      checkDType expected (.text x.dtype.name) what
      return x.shape := rfl

theorem checkDType_text (expected actual what : String) :
    checkDType (.text expected) (.text actual) what =
      if expected = actual then .ok ()
      else .error (.refused (.dtypeMismatch what (.text expected) (.text actual))) := by
  simp only [checkDType, Value.equals_text, Outcome.ok_bind, decide_eq_true_eq]
  rfl

theorem name_of_checkDType {d : Value} {name what : String} (hd : d ≠ .nothing)
    (h : checkDType d (.text name) what = .ok ()) : d = .text name := by
  unfold checkDType at h
  split at h
  · exact absurd rfl hd
  · obtain ⟨same, hsame, h⟩ := Outcome.bind_eq_ok.mp h
    cases same with
    | false => cases h
    | true => exact Value.eq_text hsame

theorem of_checkElementType {d : Value} {x : Tensor} {what : String} {s : Shape}
    (h : checkElementType d (.tensor x) what = .ok s) :
    checkDType d (.text x.dtype.name) what = .ok () ∧ s = x.shape := by
  rw [checkElementType_tensor] at h
  obtain ⟨⟨⟩, hdtype, hshape⟩ := Outcome.bind_eq_ok.mp h
  exact ⟨hdtype, (Except.ok.inj hshape).symm⟩

namespace TensorArray

/-- The failure of an operation that an array refuses. -/
def refusal (a : TensorArray) (cause : ArrayRefusal) : Failure := .refused (.array a.name cause)

theorem refuse_apply {α : Type} (cause : ArrayRefusal) (a : TensorArray) :
    (refuse cause : Action TensorArray α) a = (.error (a.refusal cause), a) := rfl

/-! ### Reading -/

/-- What a slot of an array gives to a read. -/
def answer (a : TensorArray) (i : Int) (slot : Slot) : Outcome Tensor :=
  if slot.cleared then .error (a.refusal (.alreadyRead (.int i)))
  else match slot.tensor with
    | some x => .ok x
    | none => .error (a.refusal (.neverWritten (.int i)))

/-- What a read answers with. -/
def readable (i : Int) (a : TensorArray) : Outcome Tensor :=
  if a.closed then .error (a.refusal .closed)
  else if i < 0 then .error (a.refusal (.negativeIndex (.int i)))
  else if a.size ≤ i then .error (a.refusal (.readPastEnd (.int i) a.size))
  else match a.slots[i.toNat]? with
    | some slot => a.answer i slot
    | none => .error .indexOutOfRange

/-- The array after a slot has been read. -/
def released (k : Nat) (a : TensorArray) : TensorArray := if a.clearAfterRead then a.onSlot k .release else a

theorem requireOpen_apply (a : TensorArray) :
    requireOpen a = (if a.closed then .error (a.refusal .closed) else .ok (), a) := by
  simp only [requireOpen, Action.bind_apply, Action.get_apply]
  by_cases h : a.closed <;> simp [h, refuse_apply]

theorem checkReadIndex_apply (i : Int) (a : TensorArray) :
    checkReadIndex (.int i) a =
      (if i < 0 then .error (a.refusal (.negativeIndex (.int i)))
        else if a.size ≤ i then .error (a.refusal (.readPastEnd (.int i) a.size))
        else .ok (), a) := by
  simp only [checkReadIndex, Action.bind_apply, Value.isNegative_int, Value.less_int, Action.lift_apply]
  by_cases hneg : i < 0
  · simp [hneg, Action.bind_apply, refuse_apply]
  · by_cases hsize : i < a.size
    · have hle : ¬(a.size : Int) ≤ i := Int.not_le.mpr hsize
      simp [hneg, hsize, hle, Action.bind_apply]
    · have hle : (a.size : Int) ≤ i := Int.not_lt.mp hsize
      simp [hneg, hsize, hle, Action.bind_apply, refuse_apply]

theorem read_eq (i : Int) (a : TensorArray) :
    read (.int i) a = match a.readable i with
      | .ok x => (.ok x, a.released i.toNat)
      | .error e => (.error e, a) := by
  unfold readable read
  simp only [Action.bind_apply, requireOpen_apply, checkReadIndex_apply, Value.position, Action.lift_apply,
    Action.get_apply]
  by_cases hclosed : a.closed = true
  · simp [hclosed]
  by_cases hneg : i < 0
  · simp [hclosed, hneg]
  by_cases hsize : (a.size : Int) ≤ i
  · simp [hclosed, hneg, hsize]
  have hlt : i.toNat < a.slots.length := by
    have : (a.size : Int) = a.slots.length := rfl
    omega
  simp only [hclosed, hneg, hsize, Bool.false_eq_true, if_false, List.getElem?_eq_getElem hlt]
  rcases a.slots[i.toNat] with ⟨_ | x, _ | _⟩ <;> rfl

/-! ### Writing -/

/-- What a write answers with. -/
def writable (i : Int) (x : Tensor) (a : TensorArray) : Outcome Unit := do
  if a.closed then throw (a.refusal .closed)
  checkDType a.dtype (.text x.dtype.name) (a.label "write")
  checkShape a.elementShape x.shape (a.label "write at index " ++ (Value.int i).plain)
  if i < 0 then throw (a.refusal (.negativeIndex (.int i)))
  if a.size ≤ i ∧ a.dynamicSize.truth = false then throw (a.refusal (.writePastEnd (.int i) a.size))

/-- The array after a slot has been written. -/
def written (k : Nat) (x : Tensor) (a : TensorArray) : TensorArray :=
  ((a.growBy (k + 1 - a.size)).pin x.shape).onSlot k (.store x)

theorem growBy_zero (a : TensorArray) : a.growBy 0 = a := by simp [growBy]

theorem size_growBy (n : Nat) (a : TensorArray) : (a.growBy n).size = a.size + n := by simp [size, growBy]

theorem size_pin (s : Shape) (a : TensorArray) : (a.pin s).size = a.size := by
  unfold pin
  split <;> rfl

theorem checkWriteIndex_apply (i : Int) (a : TensorArray) :
    checkWriteIndex (.int i) a =
      if i < 0 then (.error (a.refusal (.negativeIndex (.int i))), a)
      else if a.size ≤ i ∧ a.dynamicSize.truth = false then (.error (a.refusal (.writePastEnd (.int i) a.size)), a)
      else (.ok (), a.growBy (i.toNat + 1 - a.size)) := by
  simp only [checkWriteIndex, Action.bind_apply, Value.isNegative_int, Action.lift_apply]
  by_cases hneg : i < 0
  · simp [hneg, Action.bind_apply, refuse_apply]
  by_cases hsize : i < a.size
  · have hle : ¬(a.size : Int) ≤ i := Int.not_le.mpr hsize
    have hgrow : i.toNat + 1 - a.size = 0 := by omega
    simp [hneg, hsize, hle, hgrow, growBy_zero, Action.bind_apply]
  · have hle : (a.size : Int) ≤ i := Int.not_lt.mp hsize
    have hgrow : (i + 1 - a.size).toNat = i.toNat + 1 - a.size := by omega
    cases hdynamic : a.dynamicSize.truth
    · simp [hneg, hsize, hle, hdynamic, Action.bind_apply, refuse_apply]
    · simp [hneg, hsize, hle, hdynamic, Action.bind_apply, Value.missing, hgrow]

theorem placeOf_apply {i : Int} {a : TensorArray} (h : i.toNat < a.size) : placeOf (.int i) a = (.ok i.toNat, a) := by
  simp [placeOf, Action.bind_apply, Value.position, Nat.not_le.mpr h]

theorem write_eq (i : Int) (x : Tensor) (a : TensorArray) :
    write (.int i) (.tensor x) a = match a.writable i x with
      | .ok () => (.ok (), a.written i.toNat x)
      | .error e => (.error e, a) := by
  unfold writable write requireElementType
  simp only [Action.bind_apply, requireOpen_apply, Action.get_apply, Action.lift_apply, checkElementType_tensor,
    checkWriteIndex_apply]
  by_cases hclosed : a.closed = true
  · simp [hclosed]
  rcases hdtype : checkDType a.dtype (.text x.dtype.name) (a.label "write") with e | ⟨⟩
  · simp [hclosed, hdtype]
  rcases hshape : checkShape a.elementShape x.shape (a.label "write at index " ++ (Value.int i).plain) with e | ⟨⟩
  · simp [hclosed, hdtype, hshape]
  by_cases hneg : i < 0
  · simp [hclosed, hdtype, hshape, hneg]
  by_cases hfixed : a.size ≤ i ∧ a.dynamicSize.truth = false
  · simp [hclosed, hdtype, hshape, hneg, hfixed]
  have hplace : i.toNat < ((a.growBy (i.toNat + 1 - a.size)).pin x.shape).size := by
    rw [size_pin, size_growBy]
    omega
  simp only [hclosed, hdtype, hshape, hneg, hfixed, Bool.false_eq_true, if_false,
    Action.modify_apply, placeOf_apply hplace, Outcome.pure_eq, Outcome.ok_bind]
  rfl

/-- A write succeeds on an open array if the tensor fits and the array has the slot or may grow. -/
theorem writable_eq_ok {i : Int} {x : Tensor} {a : TensorArray} {dtype : String} (hdtype : a.dtype = .text dtype) :
    a.writable i x = .ok () ↔
      a.closed = false ∧ x.dtype.name = dtype ∧ a.elementShape.admits x.shape = true ∧ 0 ≤ i ∧
        (i < a.size ∨ a.dynamicSize.truth = true) := by
  unfold writable
  rw [hdtype, checkDType_text, checkShape]
  by_cases hclosed : a.closed = true
  · simp [hclosed]
  by_cases hname : dtype ≠ x.dtype.name
  · simp [hclosed, hname, hname.symm]
  rw [Decidable.not_not] at hname
  by_cases hshape : a.elementShape.admits x.shape = false
  · simp [hclosed, hname, hshape]
  rw [Bool.not_eq_false] at hshape
  by_cases hneg : i < 0
  · have : ¬0 ≤ i := by omega
    simp [hclosed, hname, hshape, hneg, this]
  by_cases hfixed : a.size ≤ i ∧ a.dynamicSize.truth = false
  · have : ¬i < a.size := by omega
    simp [hclosed, hname, hshape, hneg, hfixed, this]
  · have h0 : 0 ≤ i := by omega
    have hlast : i < a.size ∨ a.dynamicSize.truth = true := by
      by_cases hsize : i < a.size
      · exact Or.inl hsize
      · exact Or.inr (by simpa using fun h => hfixed ⟨by omega, h⟩)
    simp [hclosed, hname, hshape, hneg, hfixed, h0, hlast]

theorem readable_eq_ok {i : Int} {a : TensorArray} {x : Tensor} :
    a.readable i = .ok x ↔
      a.closed = false ∧ 0 ≤ i ∧ i < a.size ∧ a.slots[i.toNat]? = some ⟨some x, false⟩ := by
  unfold readable
  by_cases hclosed : a.closed = true
  · simp [hclosed]
  by_cases hneg : i < 0
  · have : ¬0 ≤ i := by omega
    simp [hclosed, hneg, this]
  by_cases hsize : (a.size : Int) ≤ i
  · have : ¬i < a.size := by omega
    simp [hclosed, hneg, hsize, this]
  have h0 : 0 ≤ i := by omega
  have hlt : i < a.size := by omega
  simp only [hclosed, hneg, hsize, if_false, h0, hlt, true_and, Bool.false_eq_true]
  rcases a.slots[i.toNat]? with _ | ⟨_ | y, _ | _⟩ <;> simp [answer]

/-! ### The array after a read or a write -/

section After
variable {k : Nat} {x : Tensor} {a : TensorArray}

theorem written_with :
    a.written k x = { a with slots := (a.written k x).slots, elementShape := (a.written k x).elementShape } := by
  unfold written pin
  split <;> rfl

theorem elementShape_written :
    (a.written k x).elementShape =
      if a.identical && !a.elementShape.isDefined then .ofShape x.shape else a.elementShape := by
  unfold written pin
  split <;> rename_i h
  · exact (if_pos h).symm
  · exact (if_neg h).symm

theorem slots_written (j : Nat) :
    (a.written k x).slots[j]? =
      if j = k then some ⟨some x, false⟩
      else if j < a.size then a.slots[j]? else if j < k then some .empty else none := by
  have hslots : (a.written k x).slots =
      (a.slots ++ List.replicate (k + 1 - a.size) Slot.empty).modify k (.store x) := by
    unfold written pin onSlot growBy
    split <;> rfl
  have hsize : a.size = a.slots.length := rfl
  rw [hslots]
  by_cases hj : j = k
  · have hlt : k < (a.slots ++ List.replicate (k + 1 - a.size) Slot.empty).length := by
      rw [List.length_append, List.length_replicate]
      omega
    rw [if_pos hj, hj, List.getElem?_modify_eq, List.getElem?_eq_getElem hlt]
    rfl
  · rw [if_neg hj, List.getElem?_modify_ne _ _ (Ne.symm hj), List.getElem?_append, List.getElem?_replicate, hsize]
    by_cases hlt : j < a.slots.length
    · simp [hlt]
    · have : j - a.slots.length < k + 1 - a.slots.length ↔ j < k := by omega
      simp only [hlt, if_false, this]

/-- A slot after a write is the one written, one from before it, or an empty one that the array has grown by. -/
theorem slot_of_written {j : Nat} {slot : Slot} (hj : (a.written k x).slots[j]? = some slot) :
    (j = k ∧ slot = ⟨some x, false⟩) ∨ (j ≠ k ∧ a.slots[j]? = some slot) ∨
      (j ≠ k ∧ a.size ≤ j ∧ slot = .empty) := by
  rw [slots_written] at hj
  by_cases hjk : j = k
  · rw [if_pos hjk] at hj
    exact Or.inl ⟨hjk, (Option.some.inj hj).symm⟩
  rw [if_neg hjk] at hj
  by_cases hlt : j < a.size
  · rw [if_pos hlt] at hj
    exact Or.inr (Or.inl ⟨hjk, hj⟩)
  rw [if_neg hlt] at hj
  by_cases hlast : j < k
  · rw [if_pos hlast] at hj
    exact Or.inr (Or.inr ⟨hjk, Nat.not_lt.mp hlt, (Option.some.inj hj).symm⟩)
  · rw [if_neg hlast] at hj
    cases hj

theorem admits_written (h : a.elementShape.admits x.shape = true) :
    (a.written k x).elementShape.admits x.shape = true := by
  rw [elementShape_written]
  split
  · exact PartialShape.admits_ofShape x.shape
  · exact h

theorem size_written : (a.written k x).size = max a.size (k + 1) := by
  show (((a.growBy (k + 1 - a.size)).pin x.shape).slots.modify k _).length = _
  rw [List.length_modify]
  show ((a.growBy (k + 1 - a.size)).pin x.shape).size = _
  rw [size_pin, size_growBy]
  omega

theorem released_with : a.released k = { a with slots := (a.released k).slots } := by
  unfold released
  split <;> rfl

theorem size_released : (a.released k).size = a.size := by
  unfold released
  split
  · exact List.length_modify ..
  · rfl

theorem slots_released (j : Nat) :
    (a.released k).slots[j]? =
      if a.clearAfterRead = true ∧ j = k ∧ k < a.size then some ⟨none, true⟩ else a.slots[j]? := by
  unfold released
  by_cases hclear : a.clearAfterRead = true
  · rw [if_pos hclear]
    show (a.slots.modify k .release)[j]? = _
    by_cases hj : j = k
    · subst hj
      rw [List.getElem?_modify_eq]
      by_cases hlt : j < a.slots.length
      · rw [if_pos ⟨hclear, rfl, hlt⟩, List.getElem?_eq_getElem hlt]
        rfl
      · rw [if_neg fun h => hlt h.2.2, List.getElem?_eq_none (Nat.not_lt.mp hlt)]
        rfl
    · rw [if_neg fun h => hj h.2.1, List.getElem?_modify_ne _ _ (Ne.symm hj)]
  · rw [if_neg hclear, if_neg fun h => hclear h.1]

/-- A slot after a read is the one before it, or the one that the read has cleared. -/
theorem slot_of_released {j : Nat} {slot : Slot} (hk : k < a.size) (hj : (a.released k).slots[j]? = some slot) :
    (a.clearAfterRead = true ∧ j = k ∧ slot = ⟨none, true⟩) ∨
      (a.slots[j]? = some slot ∧ ¬(a.clearAfterRead = true ∧ j = k)) := by
  rw [slots_released] at hj
  by_cases hc : a.clearAfterRead = true ∧ j = k
  · rw [if_pos ⟨hc.1, hc.2, hk⟩] at hj
    exact Or.inl ⟨hc.1, hc.2, (Option.some.inj hj).symm⟩
  · rw [if_neg fun h => hc ⟨h.1, h.2.1⟩] at hj
    exact Or.inr ⟨hj, hc⟩

end After

end TensorArray

end Dataflow
