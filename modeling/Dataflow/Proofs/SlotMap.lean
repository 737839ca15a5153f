import Dataflow.Proofs.Lifetimes

/-! A tensor array as a map of slots. A call is a sequence of reads and writes of slots, and what a read answers with
    depends on the reads and writes of its slot alone: it is the tensor written last, unless a read has cleared the slot
    since. An array that was closed answers nothing any more. -/

namespace Dataflow.TensorArray

/-! ### Arrays that are closed -/

theorem closed_result (t : Step) (a : TensorArray) : (t.result a).closed = a.closed := by
  cases t with
  | read i => rw [Step.result, released_with]
  | write i x => rw [Step.result, written_with]

theorem closed_performEach (ts : List Step) (a : TensorArray) : (performEach ts a).2.closed = a.closed := by
  rw [performEach_effective]
  induction effective ts a generalizing a with
  | nil => rfl
  | cons t ts ih => rw [List.foldl_cons, ih, closed_result]

theorem closed_after {l : Life} (h : l.array.closed = true) (c : Call) : (l.after c).array.closed = true := by
  by_cases hc : c = .clearAndClose
  · subst hc
    exact congrArg TensorArray.closed (Call.perform_clearAndClose l.session l.array)
  · have hperforms := c.performs hc l.session l.array
    cases hsteps : c.steps l.array with
    | error e => exact (congrArg TensorArray.closed (hperforms.refused e hsteps).2).trans h
    | ok ts => exact (congrArg TensorArray.closed (hperforms.array ts hsteps)).trans ((closed_performEach ts _).trans h)

theorem closed_of_mem {s : Session} {a : TensorArray} {cs : List Call} (h : .clearAndClose ∈ cs) :
    (Life.of s a cs).array.closed = true := by
  induction cs using List.reverseRecOn with
  | nil => cases h
  | append_singleton cs c ih =>
    rw [Life.of_concat]
    rcases List.mem_append.mp h with h | h
    · exact closed_after (ih h) c
    · cases List.mem_singleton.mp h
      exact congrArg TensorArray.closed (Call.perform_clearAndClose _ _)

/-- Calls that an array answers only while it is open, whatever their arguments are. -/
def Call.needsOpen : Call → Bool
  | .readMany _ | .writeMany _ _ | .clearAndClose => false
  | _ => true

theorem opened_of_closed {a : TensorArray} (h : a.closed = true) : a.opened = .error (a.refusal .closed) := if_pos h

theorem readable_of_closed {a : TensorArray} (h : a.closed = true) (i : Int) :
    a.readable i = .error (a.refusal .closed) := if_pos h

theorem writable_of_closed {a : TensorArray} (h : a.closed = true) (i : Int) (x : Tensor) :
    a.writable i x = .error (a.refusal .closed) := by
  simp [writable, h]

theorem Call.perform_of_closed {c : Call} (hc : c.needsOpen = true) {s : Session} {a : TensorArray}
    (h : a.closed = true) : (c.perform (s, a)).1 = .error (a.refusal .closed) := by
  have hperforms := c.performs (by rintro rfl; cases hc) s a
  cases c with
  | size =>
    rw [Call.perform_eq]
    show ((openSize.onSecond >>= fun n => pure (Value.int n) : Action _ Value) (s, a)).1 = _
    have hsize : openSize.onSecond (s, a) = (.error (a.refusal .closed), s, a) := by
      rw [Action.onSecond_apply, openSize, Action.bind_apply, requireOpen_apply, if_pos h]
    rw [Action.bind_error hsize]
  | read i =>
    refine hperforms.failure _ _ rfl ?_
    rw [performEach_cons, Step.outcome, readable_of_closed h]
    rfl
  | write i x =>
    refine hperforms.failure _ _ rfl ?_
    rw [performEach_cons, Step.outcome, writable_of_closed h]
  | gather is dtype => exact (hperforms.refused _ (by rw [Call.steps, opened_of_closed h]; rfl)).1
  | scatter is x => exact (hperforms.refused _ (by rw [Call.steps, opened_of_closed h]; rfl)).1
  | concat dtype => exact (hperforms.refused _ (by rw [Call.steps, opened_of_closed h]; rfl)).1
  | split ns x => exact (hperforms.refused _ (by rw [Call.steps, opened_of_closed h]; rfl)).1
  | readMany is => cases hc
  | writeMany is xs => cases hc
  | clearAndClose => cases hc

/-! ### What a read answers with -/

section Reads
variable {m : Making} {a : TensorArray} {events : List Step}

theorem readable_of_slot {i : Int} {slot : Slot} (hopen : a.closed = false) (h0 : 0 ≤ i)
    (hslot : a.slots[i.toNat]? = some slot) : a.readable i = a.answer i slot := by
  have hlt : i.toNat < a.size := (List.getElem?_eq_some_iff.mp hslot).1
  have hneg : ¬i < 0 := by omega
  have hle : ¬(a.size : Int) ≤ i := by omega
  simp only [readable, hopen, hneg, hle, Bool.false_eq_true, if_false, hslot]

theorem Inv.slot (h : Inv m a events) {i : Int} (h0 : 0 ≤ i) (hlt : i < a.size) :
    ∃ slot, a.slots[i.toNat]? = some slot ∧ Explained m.clearAfterRead events i slot := by
  have hk : i.toNat < a.slots.length := by
    have : a.size = a.slots.length := rfl
    omega
  refine ⟨a.slots[i.toNat], List.getElem?_eq_getElem hk, ?_⟩
  have hexplained := h.slots i.toNat _ (List.getElem?_eq_getElem hk)
  rwa [Int.toNat_of_nonneg h0] at hexplained

/-- A read gives the tensor that was written last where no read has cleared the slot since. -/
theorem Inv.readable_iff (h : Inv m a events) {i : Int} {x : Tensor} :
    a.readable i = .ok x ↔
      a.closed = false ∧ 0 ≤ i ∧ i < a.size ∧ LastOf (Step.Decides m.clearAfterRead i) events (.write i x) := by
  constructor
  · intro hread
    obtain ⟨hopen, h0, hlt, hslot⟩ := readable_eq_ok.mp hread
    have hlast : LastOf (Step.Decides m.clearAfterRead i.toNat) events (.write i.toNat x) := h.slots _ _ hslot
    rw [Int.toNat_of_nonneg h0] at hlast
    exact ⟨hopen, h0, hlt, hlast⟩
  · rintro ⟨hopen, h0, hlt, hlast⟩
    obtain ⟨slot, hslot, hexplained⟩ := h.slot h0 hlt
    rw [readable_of_slot hopen h0 hslot]
    rcases slot with ⟨_ | y, _ | _⟩
    · exact absurd rfl (hexplained _ hlast.mem)
    · cases hlast.unique hexplained
    · cases hlast.unique hexplained
      rfl
    · exact hexplained.elim

theorem refusal_eq (h : Inv m a events) (cause : ArrayRefusal) :
    a.refusal cause = .refused (.array (.text m.name) cause) := by
  rw [refusal, h.name]

/-- A slot counts as cleared where a read of it came last. -/
theorem Inv.readable_alreadyRead_iff (h : Inv m a events) {i : Int} (hopen : a.closed = false) (h0 : 0 ≤ i)
    (hlt : i < a.size) :
    a.readable i = .error (.refused (.array (.text m.name) (.alreadyRead (.int i)))) ↔
      LastOf (Step.Decides m.clearAfterRead i) events (.read i) := by
  obtain ⟨slot, hslot, hexplained⟩ := h.slot h0 hlt
  rw [readable_of_slot hopen h0 hslot]
  rcases slot with ⟨_ | y, _ | _⟩
  · refine ⟨fun he => ?_, fun hlast => absurd rfl (hexplained _ hlast.mem)⟩
    simp [answer, refusal_eq h] at he
  · exact ⟨fun _ => hexplained, fun _ => congrArg Except.error (refusal_eq h _)⟩
  · exact ⟨fun he => (by cases he), fun hlast => by cases hlast.unique hexplained⟩
  · exact hexplained.elim

/-- A slot counts as not written where it never was. -/
theorem Inv.readable_neverWritten_iff (h : Inv m a events) {i : Int} (hopen : a.closed = false) (h0 : 0 ≤ i)
    (hlt : i < a.size) :
    a.readable i = .error (.refused (.array (.text m.name) (.neverWritten (.int i)))) ↔
      ∀ x, .write i x ∉ events := by
  obtain ⟨slot, hslot, hexplained⟩ := h.slot h0 hlt
  rw [readable_of_slot hopen h0 hslot]
  rcases slot with ⟨_ | y, _ | _⟩
  · exact ⟨fun _ x hx => hexplained _ hx rfl, fun _ => congrArg Except.error (refusal_eq h _)⟩
  · refine ⟨fun he => ?_, fun hnever => ?_⟩
    · simp [answer, refusal_eq h] at he
    · obtain ⟨x, hx⟩ := h.readAfterWrite i (LastOf.mem hexplained)
      exact absurd hx (hnever x)
  · exact ⟨fun he => (by cases he), fun hnever => absurd (LastOf.mem hexplained) (hnever y)⟩
  · exact hexplained.elim

end Reads

theorem read_answer (i : Int) (a : TensorArray) : (TensorArray.read (.int i) a).1 = a.readable i := by
  rw [read_eq]
  cases a.readable i <;> rfl

theorem Step.perform_error {t : Step} {a : TensorArray} {e : Failure} (h : (t.perform a).1 = .error e) :
    (t.perform a).2 = a := by
  rw [Step.perform_eq] at h ⊢
  rcases ht : t.outcome a with e' | ⟨⟩
  · rfl
  · rw [ht] at h
    cases h

/-- After whatever calls, a call does its reads and writes of slots one after another up to the first that fails, or
    nothing if it does not accept its arguments; a read or a write that fails does nothing. A read gives the tensor that
    was written last and not cleared since, and otherwise says whether the slot was cleared or never written. An array
    that has been closed is closed to every call that needs its slots. -/
theorem slots_follow_history {m : Making} {s : Session} {a : TensorArray} (hmake : ofArguments s m.arguments [] = .ok a)
    (cs : List Call) :
    let l := Life.of s a cs
    (∀ c : Call, c ≠ .clearAndClose → Performs Prod.snd c.perform (c.steps l.array) (l.session, l.array)) ∧
    (∀ (t : Step) (e : Failure), (t.perform l.array).1 = .error e → (t.perform l.array).2 = l.array) ∧
    (∀ (i : Int) (x : Tensor), (read (.int i) l.array).1 = .ok x ↔
      l.array.closed = false ∧ 0 ≤ i ∧ i < l.array.size ∧
        LastOf (Step.Decides m.clearAfterRead i) l.events (.write i x)) ∧
    (∀ i : Int, l.array.closed = false → 0 ≤ i → i < l.array.size →
      ((read (.int i) l.array).1 = .error (.refused (.array (.text m.name) (.alreadyRead (.int i)))) ↔
        LastOf (Step.Decides m.clearAfterRead i) l.events (.read i)) ∧
      ((read (.int i) l.array).1 = .error (.refused (.array (.text m.name) (.neverWritten (.int i)))) ↔
        ∀ x, .write i x ∉ l.events)) ∧
    (.clearAndClose ∈ cs → ∀ c : Call, c.needsOpen = true →
      (c.perform (l.session, l.array)).1 = .error (.refused (.array (.text m.name) .closed))) := by
  intro l
  obtain rfl := Making.eq_array hmake
  have inv : Inv m l.array l.events := inv_of m s cs
  refine ⟨fun c hc => c.performs hc _ _, fun t e => Step.perform_error, fun i x => ?_, fun i hopen h0 hlt => ?_,
    fun hclose c hc => ?_⟩
  · rw [read_answer]
    exact inv.readable_iff
  · rw [read_answer]
    exact ⟨inv.readable_alreadyRead_iff hopen h0 hlt, inv.readable_neverWritten_iff hopen h0 hlt⟩
  · rw [Call.perform_of_closed hc (closed_of_mem hclose), refusal_eq inv]

/-- A slot that has been written gives its tensor once, where reads clear. -/
theorem slots_follow_history_read_twice :
    let m : Making := ⟨"a", "float32", 2, none, false, false, true⟩
    let s := Session.initial [] false false
    let x := Tensor.scalar .host .float32 (.real (.ofInt 1))
    let before := Life.of s m.array [.write 1 x]
    let after := Life.of s m.array [.write 1 x, .read 1]
    ofArguments s m.arguments [] = .ok m.array ∧
      (read (.int 1) before.array).1 = .ok x ∧
      (read (.int 1) after.array).1 = .error (.refused (.array (.text "a") (.alreadyRead (.int 1)))) := by
  have hmake : ofArguments (.initial [] false false) (Making.mk "a" "float32" 2 none false false true).arguments [] =
      .ok (Making.mk "a" "float32" 2 none false false true).array := rfl
  obtain ⟨-, -, hread, -, -⟩ := slots_follow_history hmake [.write 1 (.scalar .host .float32 (.real (.ofInt 1)))]
  obtain ⟨-, -, -, hagain, -⟩ :=
    slots_follow_history hmake [.write 1 (.scalar .host .float32 (.real (.ofInt 1))), .read 1]
  refine ⟨hmake, (hread 1 _).mpr ⟨rfl, by decide, by decide, ?_⟩, (hagain 1 rfl (by decide) (by decide)).1.mpr ?_⟩
  · exact ⟨[], [], rfl, rfl, by simp⟩
  · exact ⟨[.write 1 _], [], rfl, ⟨rfl, rfl⟩, by simp⟩

/-- A tensor whose rows are to be scattered past the end is refused as a whole, though its first row has a slot that a
    write would fill. -/
theorem scatter_refused_as_a_whole :
    let m : Making := ⟨"a", "float32", 2, none, false, false, true⟩
    let s := Session.initial [] false false
    let row (n : Int) : Tensor := ⟨.host, .float32, [1], [.real (.ofInt n)], rfl⟩
    let x : Tensor := ⟨.host, .float32, [2, 1], [.real (.ofInt 1), .real (.ofInt 2)], rfl⟩
    ofArguments s m.arguments [] = .ok m.array ∧
      x.rowsUpTo 2 = .ok [row 1, row 2] ∧
      (Call.perform (.scatter ⟨false, [0, 5]⟩ x) (s, m.array)).2.2.slots = [.empty, .empty] ∧
      (performEach [.write 0 (row 1), .write 5 (row 2)] m.array).2.slots = [⟨some (row 1), false⟩, .empty] :=
  ⟨rfl, rfl, rfl, rfl⟩

end Dataflow.TensorArray
