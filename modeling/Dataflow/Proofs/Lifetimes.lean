import Dataflow.Proofs.History
import Dataflow.Proofs.Making

/-! Lifetimes of tensor arrays: an array as it is made, and the calls after that. The reads and writes that have taken
    effect are its history, and the slots, the size and the element shape are what the history says. -/

namespace Dataflow.TensorArray

/-! ### Histories -/

namespace Step

def index : Step → Int
  | .read i => i
  | .write i _ => i

/-- A step that decides what a slot is like after it: a write, or a read that clears. -/
def Decides (clearing : Bool) (k : Int) : Step → Prop
  | .read i => clearing = true ∧ i = k
  | .write i _ => i = k

/-- The least size of an array that has room for a step. -/
def reach : Step → Nat
  | .read _ => 0
  | .write i _ => i.toNat + 1

end Step

/-- An array in use. -/
structure Life where
  session : Session
  array : TensorArray
  /-- The reads and writes that have taken effect, the latest last. -/
  events : List Step

namespace Life

/-- After one more call, which may fail. -/
def after (l : Life) (c : Call) : Life :=
  let p := (c.perform (l.session, l.array)).2
  let new := match c.steps l.array with
    | .ok ts => effective ts l.array
    | .error _ => []
  ⟨p.1, p.2, l.events ++ new⟩

/-- After calls one after another. -/
def of (s : Session) (a : TensorArray) (cs : List Call) : Life := cs.foldl after ⟨s, a, []⟩

theorem of_concat (s : Session) (a : TensorArray) (cs : List Call) (c : Call) :
    of s a (cs ++ [c]) = (of s a cs).after c := by
  rw [of, List.foldl_append]
  rfl

end Life

/-- What the history says of a slot. One that is cleared does not hold anything. -/
def Explained (clearing : Bool) (events : List Step) (k : Int) : Slot → Prop
  | ⟨none, false⟩ => ∀ t ∈ events, t.index ≠ k
  | ⟨some x, false⟩ => LastOf (Step.Decides clearing k) events (.write k x)
  | ⟨none, true⟩ => LastOf (Step.Decides clearing k) events (.read k)
  | ⟨some _, true⟩ => False

/-- The size that an array was made with, or that the largest index written asks for. -/
def Making.extent (m : Making) (events : List Step) : Nat :=
  events.foldl (fun n t => max n t.reach) m.size.toNat

/-- An array with the settings that it was made with. -/
structure Keeps (m : Making) (a : TensorArray) : Prop where
  name : a.name = .text m.name
  dtype : a.dtype = .text m.dtype
  identical : a.identical = m.identical
  dynamicSize : a.dynamicSize = .flag m.dynamicSize
  clearAfterRead : a.clearAfterRead = m.clearAfterRead

/-- An array as its history explains it. -/
structure Inv (m : Making) (a : TensorArray) (events : List Step) : Prop extends Keeps m a where
  slots : ∀ (k : Nat) (slot : Slot), a.slots[k]? = some slot → Explained m.clearAfterRead events k slot
  inside : a.closed = false → ∀ t ∈ events, 0 ≤ t.index ∧ t.index < a.size
  readAfterWrite : ∀ i, .read i ∈ events → ∃ x, .write i x ∈ events
  elements : ∀ (k : Nat) (slot : Slot) (x : Tensor), a.slots[k]? = some slot → slot.tensor = some x →
    x.dtype.name = m.dtype ∧ a.elementShape.admits x.shape = true
  pinned : m.identical = true → ∀ i x, .write i x ∈ events → a.elementShape = .ofShape x.shape
  unpinned : m.identical = false → a.elementShape = m.shape
  extent : a.closed = false → a.size = m.extent events
  fixed : m.dynamicSize = false → m.extent events = m.size.toNat

theorem inv_array (m : Making) : Inv m m.array [] where
  name := rfl
  dtype := rfl
  identical := rfl
  dynamicSize := rfl
  clearAfterRead := rfl
  slots := fun k slot h => by
    rw [List.eq_of_mem_replicate (List.mem_of_getElem? h)]
    simp [Explained, Slot.empty]
  inside := by simp
  readAfterWrite := by simp
  elements := fun k slot x h hx => by
    rw [List.eq_of_mem_replicate (List.mem_of_getElem? h)] at hx
    cases hx
  pinned := by simp
  unpinned := fun _ => rfl
  extent := fun _ => List.length_replicate
  fixed := fun _ => rfl

variable {m : Making} {a : TensorArray} {events : List Step}

theorem Keeps.released (h : Keeps m a) (k : Nat) : Keeps m (a.released k) := by
  rw [released_with]
  exact ⟨h.name, h.dtype, h.identical, h.dynamicSize, h.clearAfterRead⟩

theorem Keeps.written (h : Keeps m a) (k : Nat) (x : Tensor) : Keeps m (a.written k x) := by
  rw [written_with]
  exact ⟨h.name, h.dtype, h.identical, h.dynamicSize, h.clearAfterRead⟩

theorem extent_concat (t : Step) : m.extent (events ++ [t]) = max (m.extent events) t.reach := by
  rw [Making.extent, List.foldl_append]
  rfl

theorem Explained.concat {clearing : Bool} {k : Int} {slot : Slot} {t : Step} (h : Explained clearing events k slot)
    (hempty : slot = .empty → t.index ≠ k) (ht : ¬t.Decides clearing k) :
    Explained clearing (events ++ [t]) k slot := by
  rcases slot with ⟨_ | x, _ | _⟩
  · intro u hu
    rcases List.mem_append.mp hu with hu | hu
    · exact h u hu
    · rw [List.mem_singleton.mp hu]
      exact hempty rfl
  · exact (lastOf_concat_of_not_kind ht).mpr h
  · exact (lastOf_concat_of_not_kind ht).mpr h
  · exact h

theorem Explained.write_mem {clearing : Bool} {k : Int} {slot : Slot} {x : Tensor}
    (h : Explained clearing events k slot) (hx : slot.tensor = some x) : .write k x ∈ events := by
  rcases slot with ⟨_ | y, _ | _⟩ <;> cases hx
  · exact LastOf.mem h
  · exact h.elim

theorem Explained.tensor_eq_none {clearing : Bool} {k : Int} {slot : Slot} (h : Explained clearing events k slot)
    (hcleared : slot.cleared = true) : slot.tensor = none := by
  rcases slot with ⟨_ | y, _ | _⟩ <;> cases hcleared
  · rfl
  · exact h.elim

theorem Inv.read (h : Inv m a events) {i : Int} {x : Tensor} (hread : a.readable i = .ok x) :
    Inv m (a.released i.toNat) (events ++ [.read i]) := by
  obtain ⟨hopen, h0, hlt, hslot⟩ := readable_eq_ok.mp hread
  obtain ⟨k, rfl⟩ := Int.eq_ofNat_of_zero_le h0
  rw [Int.toNat_natCast] at hslot ⊢
  have hk : k < a.size := Int.ofNat_lt.mp hlt
  have hwritten : LastOf (Step.Decides m.clearAfterRead k) events (.write k x) := h.slots k ⟨some x, false⟩ hslot
  have hsize : (a.released k).size = a.size := size_released
  -- A read reaches nothing beyond the array.
  have hextent : m.extent (events ++ [.read k]) = m.extent events := by
    rw [extent_concat]
    exact Nat.max_eq_left (Nat.zero_le _)
  refine ⟨h.released k, fun j slot hj => ?_, fun _ t ht => ?_, fun i hi => ?_, fun j slot y hj hheld => ?_,
    fun hid i y hy => ?_, fun hid => ?_, fun _ => ?_, fun hfixed => ?_⟩
  · rcases slot_of_released hk hj with ⟨hclear, rfl, rfl⟩ | ⟨hj, hc⟩
    · rw [h.clearAfterRead] at hclear
      exact (lastOf_concat_of_kind ⟨hclear, rfl⟩).mpr rfl
    · rw [h.clearAfterRead] at hc
      refine (h.slots j slot hj).concat (fun hempty hjk => ?_) fun hdec => hc ⟨hdec.1, ?_⟩
      · obtain rfl : k = j := Int.natCast_inj.mp hjk
        rw [hslot, hempty] at hj
        cases hj
      · exact (Int.natCast_inj.mp hdec.2).symm
  · rw [hsize]
    rcases List.mem_append.mp ht with ht | ht
    · exact h.inside hopen t ht
    · rw [List.mem_singleton.mp ht]
      exact ⟨h0, hlt⟩
  · rcases List.mem_append.mp hi with hi | hi
    · obtain ⟨y, hy⟩ := h.readAfterWrite i hi
      exact ⟨y, List.mem_append_left _ hy⟩
    · cases List.mem_singleton.mp hi
      exact ⟨x, List.mem_append_left _ hwritten.mem⟩
  · rw [released_with]
    rcases slot_of_released hk hj with ⟨-, -, rfl⟩ | ⟨hj, -⟩
    · cases hheld
    · exact h.elements j slot y hj hheld
  · rw [released_with]
    refine h.pinned hid i y ?_
    simpa using hy
  · rw [released_with]
    exact h.unpinned hid
  · rw [hsize, hextent, h.extent hopen]
  · rw [hextent, h.fixed hfixed]

theorem Inv.elementShape_written (h : Inv m a events) {k : Nat} {x : Tensor} {i : Int} {y : Tensor}
    (hy : .write i y ∈ events) : (a.written k x).elementShape = a.elementShape := by
  rw [TensorArray.elementShape_written, h.identical]
  cases hid : m.identical with
  | false => rfl
  | true =>
    rw [h.pinned hid i y hy, PartialShape.isDefined_ofShape]
    rfl

theorem Inv.write (h : Inv m a events) {i : Int} {x : Tensor} (hwrite : a.writable i x = .ok ()) :
    Inv m (a.written i.toNat x) (events ++ [.write i x]) := by
  obtain ⟨hopen, hname, hadmits, h0, hroom⟩ := (writable_eq_ok h.dtype).mp hwrite
  obtain ⟨k, rfl⟩ := Int.eq_ofNat_of_zero_le h0
  rw [Int.toNat_natCast]
  have hsize : (a.written k x).size = max a.size (k + 1) := size_written
  have hnew : (a.written k x).elementShape.admits x.shape = true := admits_written hadmits
  refine ⟨h.written k x, fun j slot hj => ?_, fun _ t ht => ?_, fun i hi => ?_, fun j slot y hj hheld => ?_,
    fun hm i y hy => ?_, fun hm => ?_, fun _ => ?_, fun hfixed => ?_⟩
  · rcases slot_of_written hj with ⟨rfl, rfl⟩ | ⟨hjk, hj⟩ | ⟨hjk, hlast, rfl⟩
    · have hdecides : Step.Decides m.clearAfterRead j (.write j x) := rfl
      exact (lastOf_concat_of_kind hdecides).mpr rfl
    · have hne : (k : Int) ≠ j := fun hkj => hjk (Int.natCast_inj.mp hkj).symm
      exact (h.slots j slot hj).concat (fun _ => hne) hne
    · intro t ht
      rcases List.mem_append.mp ht with ht | ht
      · have := (h.inside hopen t ht).2
        omega
      · rw [List.mem_singleton.mp ht]
        exact fun hkj => hjk (Int.natCast_inj.mp hkj).symm
  · rw [hsize]
    rcases List.mem_append.mp ht with ht | ht
    · have := h.inside hopen t ht
      omega
    · rw [List.mem_singleton.mp ht]
      show 0 ≤ (k : Int) ∧ (k : Int) < (max a.size (k + 1) : Nat)
      omega
  · have hi : .read i ∈ events := by simpa using hi
    obtain ⟨y, hy⟩ := h.readAfterWrite i hi
    exact ⟨y, List.mem_append_left _ hy⟩
  · rcases slot_of_written hj with ⟨-, rfl⟩ | ⟨-, hj⟩ | ⟨-, -, rfl⟩
    · cases hheld
      exact ⟨hname, hnew⟩
    · rw [h.elementShape_written ((h.slots j slot hj).write_mem hheld)]
      exact h.elements j slot y hj hheld
    · cases hheld
  · rcases List.mem_append.mp hy with hy | hy
    · rw [h.elementShape_written hy]
      exact h.pinned hm i y hy
    · -- The write fixes the shape unless it is fixed already, and the tensor fits it either way.
      cases List.mem_singleton.mp hy
      refine PartialShape.eq_ofShape_of_isDefined ?_ hnew
      rw [TensorArray.elementShape_written, h.identical, hm]
      cases hdefined : a.elementShape.isDefined
      · exact PartialShape.isDefined_ofShape x.shape
      · exact hdefined
  · rw [TensorArray.elementShape_written, h.identical, hm]
    exact h.unpinned hm
  · rw [hsize, extent_concat, h.extent hopen]
    rfl
  · -- An array that may not grow has room for the write.
    have hlt : k < a.size := by
      rcases hroom with hlt | hgrows
      · exact Int.ofNat_lt.mp hlt
      · rw [h.dynamicSize, hfixed] at hgrows
        cases hgrows
    have hreach : (Step.write k x).reach = k + 1 := rfl
    rw [extent_concat, hreach, h.fixed hfixed]
    have hextent := h.extent hopen
    rw [h.fixed hfixed] at hextent
    omega

theorem Inv.step (h : Inv m a events) {t : Step} (ht : t.outcome a = .ok ()) : Inv m (t.result a) (events ++ [t]) := by
  cases t with
  | read i =>
    cases hread : a.readable i with
    | error e => rw [Step.outcome, hread] at ht; cases ht
    | ok x => exact h.read hread
  | write i x => exact h.write ht

theorem Inv.performEach (h : Inv m a events) (ts : List Step) :
    Inv m (TensorArray.performEach ts a).2 (events ++ effective ts a) := by
  induction ts generalizing a events with
  | nil => rwa [effective, List.append_nil]
  | cons t ts ih =>
    rw [performEach_cons, effective]
    rcases ht : t.outcome a with e | ⟨⟩
    · rwa [List.append_nil]
    · rw [List.append_cons]
      exact ih (h.step ht)

theorem Inv.clearAndClose (h : Inv m a events) : Inv m { a with slots := [], closed := true } events where
  name := h.name
  dtype := h.dtype
  identical := h.identical
  dynamicSize := h.dynamicSize
  clearAfterRead := h.clearAfterRead
  slots := fun _ _ hslot => nomatch hslot
  inside := fun hopen => nomatch hopen
  readAfterWrite := h.readAfterWrite
  elements := fun _ _ _ hslot => nomatch hslot
  pinned := h.pinned
  unpinned := h.unpinned
  extent := fun hopen => nomatch hopen
  fixed := h.fixed

theorem Inv.after {l : Life} (h : Inv m l.array l.events) (c : Call) : Inv m (l.after c).array (l.after c).events := by
  by_cases hc : c = .clearAndClose
  · subst hc
    have harray : (l.after .clearAndClose).array = { l.array with slots := [], closed := true } :=
      Call.perform_clearAndClose l.session l.array
    have hevents : (l.after .clearAndClose).events = l.events := List.append_nil _
    rw [harray, hevents]
    exact h.clearAndClose
  · have hperforms := c.performs hc l.session l.array
    cases hsteps : c.steps l.array with
    | error e =>
      have harray : (l.after c).array = l.array := (hperforms.refused e hsteps).2
      have hevents : (l.after c).events = l.events := by
        rw [Life.after]
        simp [hsteps]
      rwa [harray, hevents]
    | ok ts =>
      have harray : (l.after c).array = (TensorArray.performEach ts l.array).2 := hperforms.array ts hsteps
      have hevents : (l.after c).events = l.events ++ effective ts l.array := by
        rw [Life.after]
        simp [hsteps]
      rw [harray, hevents]
      exact h.performEach ts

/-- An array is as its history explains it after whatever calls. -/
theorem inv_of (m : Making) (s : Session) (cs : List Call) :
    Inv m (Life.of s m.array cs).array (Life.of s m.array cs).events := by
  induction cs using List.reverseRecOn with
  | nil => exact inv_array m
  | append_singleton cs c ih =>
    rw [Life.of_concat]
    exact ih.after c

end Dataflow.TensorArray
