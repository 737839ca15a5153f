import Dataflow.Proofs.BatchReads
import Dataflow.Proofs.BatchWrites
import Dataflow.Proofs.Rows

/-! Calls on several slots that succeed. All writes of a distribution have been performed, and a collection makes its
    tensor of what the slots hold. Every slot gives its tensor as often as it is asked for, unless reads clear. -/

namespace Dataflow

theorem Tensor.any_scalar (xs : List Tensor) : xs.any (·.rank = 0) = true ↔ ¬∀ x ∈ xs, x.shape ≠ [] := by
  simp [Tensor.rank]

namespace TensorArray

variable {a : TensorArray} {s : Session} {v : Value} {xs : List Tensor}

/-- A call that succeeds has performed all its steps. -/
theorem Call.steps_of_ok {c : Call} (hc : c ≠ .clearAndClose) (h : (c.perform (s, a)).1 = .ok v) :
    ∃ ts, c.steps a = .ok ts ∧ (performEach ts a).1 = .ok () ∧ (c.perform (s, a)).2.2 = (performEach ts a).2 := by
  have hperforms := c.performs hc s a
  cases hsteps : c.steps a with
  | error e =>
    have hfail := (hperforms.refused e hsteps).1
    rw [h] at hfail
    cases hfail
  | ok ts =>
    refine ⟨ts, rfl, ?_, hperforms.array ts hsteps⟩
    rcases hstep : (performEach ts a).1 with e | ⟨⟩
    · have hfail := hperforms.failure ts e hsteps hstep
      rw [h] at hfail
      cases hfail
    · rfl

theorem filled_of_ok {writes : List (Int × Tensor)} {dtype : String} (hdtype : a.dtype = .text dtype)
    (h : (performEach (writes.map .put) a).1 = .ok ()) : Filled a writes (performEach (writes.map .put) a).2 := by
  -- Where no write fails, the writes that take effect are all of them.
  obtain ⟨done, -, heffective, hfilled⟩ := (Filled.refl a).effective hdtype writes
  have hinj : Function.Injective Step.put := fun v w hvw =>
    Prod.ext (Step.write.inj hvw).1 (Step.write.inj hvw).2
  obtain rfl : writes = done := by
    rw [effective_of_ok h] at heffective
    exact (List.map_injective_iff.mpr hinj) heffective
  exact hfilled

/-- A call of writes that succeeds leaves what all of them have written. -/
theorem Call.filled_of_ok {c : Call} (hc : c ≠ .clearAndClose) {dtype : String} (hdtype : a.dtype = .text dtype)
    (h : (c.perform (s, a)).1 = .ok v) :
    ∃ ts, c.steps a = .ok ts ∧ ∀ writes, ts = writes.map .put → Filled a writes (c.perform (s, a)).2.2 := by
  obtain ⟨ts, hsteps, hdone, hafter⟩ := Call.steps_of_ok hc h
  refine ⟨ts, hsteps, ?_⟩
  rintro writes rfl
  rw [hafter]
  exact TensorArray.filled_of_ok hdtype hdone

/-- Writes to the first slots do not make an array larger than they ask for. -/
theorem Filled.size_le {b : TensorArray} {writes : List (Int × Tensor)} {n : Nat} (h : Filled a writes b)
    (hn : ∀ w ∈ writes, w.1.toNat < n) : b.size ≤ max a.size n := by
  have hfold : ∀ k, writes.foldl (fun n w => max n (w.1.toNat + 1)) k ≤ max k n := by
    clear h
    induction writes with
    | nil => exact fun k => Nat.le_max_left k n
    | cons w writes ih =>
      intro k
      have hw := hn w List.mem_cons_self
      have hrest := ih (fun v hv => hn v (List.mem_cons_of_mem _ hv)) (max k (w.1.toNat + 1))
      rw [List.foldl_cons]
      omega
  rw [h.size]
  exact hfold a.size

/-- A slot has what was written at the last position of its index. -/
theorem Filled.slot_of_last {b : TensorArray} {is : List Int} {k : Nat} {i : Int} {x : Tensor}
    (h : Filled a (is.zip xs) b) (hi : is[k]? = some i) (hlast : ∀ j, k < j → is[j]? ≠ some i)
    (hx : xs[k]? = some x) : 0 ≤ i ∧ b.slots[i.toNat]? = some ⟨some x, false⟩ := by
  have hwrite : (is.zip xs)[k]? = some (i, x) := List.getElem?_zip_eq_some.mpr ⟨hi, hx⟩
  have h0 : 0 ≤ i := h.nonneg _ (List.mem_of_getElem? hwrite)
  refine ⟨h0, h.written i.toNat x (lastOf_of_getElem? (k := k) ?_ ?_ fun j w hj hw hwi => ?_)⟩
  · rw [Int.toNat_of_nonneg h0]
    exact hwrite
  · rfl
  · rw [Int.toNat_of_nonneg h0] at hwi
    exact hlast j hj (hwi ▸ (List.getElem?_zip_eq_some.mp hw).1)

/-! ### Reading several slots -/

theorem readable_released {i j : Int} {x : Tensor} (hi : 0 ≤ i) (hj : a.readable j = .ok x)
    (hagain : a.clearAfterRead = false ∨ i ≠ j) : (a.released i.toNat).readable j = .ok x := by
  obtain ⟨hopen, hj0, hlt, hslot⟩ := readable_eq_ok.mp hj
  refine readable_eq_ok.mpr ⟨?_, hj0, ?_, ?_⟩
  · rw [released_with]
    exact hopen
  · rw [size_released]
    exact hlt
  · rw [slots_released, if_neg, hslot]
    rintro ⟨hclear, heq, -⟩
    rcases hagain with hkeep | hne
    · rw [hkeep] at hclear
      cases hclear
    · omega

/-- Slots that can be read one by one can be read one after another. -/
theorem readEach_ok {is : List Int} (h : List.Forall₂ (fun i x => a.readable i = .ok x) is xs)
    (hagain : a.clearAfterRead = false ∨ is.Nodup) : (readEach (is.map .int) a).1 = .ok xs := by
  induction is generalizing a xs with
  | nil =>
    cases h
    rfl
  | cons i is ih =>
    obtain ⟨x, xs, hi, his, rfl⟩ := List.forall₂_cons_left_iff.mp h
    have h0 : 0 ≤ i := (readable_eq_ok.mp hi).2.1
    -- The first read leaves what the later ones ask for, unless it clears a slot that is asked for again.
    have hother : ∀ j ∈ is, a.clearAfterRead = false ∨ i ≠ j := fun j hj => hagain.imp_right fun hnodup => by
      rintro rfl
      exact (List.nodup_cons.mp hnodup).1 hj
    have hrest : List.Forall₂ (fun j y => (a.released i.toNat).readable j = .ok y) is xs :=
      ((List.forall₂_and_left _ _).mpr ⟨hother, his⟩).imp fun j y h => readable_released h0 h.2 h.1
    have hclear : (a.released i.toNat).clearAfterRead = a.clearAfterRead := by rw [released_with]
    have htail := ih hrest (hagain.imp (fun hkeep => hclear.trans hkeep) fun hnodup => (List.nodup_cons.mp hnodup).2)
    rw [List.map_cons, readEach, Action.bind_apply, read_eq, hi]
    show ((readEach (is.map .int) >>= fun ys => pure (x :: ys) : Action TensorArray (List Tensor)) _).1 = _
    rw [Action.bind_apply, show readEach (is.map .int) (a.released i.toNat) = (.ok xs, _) from Prod.ext htail rfl]
    rfl

/-- A gather asks whether it may, reads, and stacks what it has read; asked for nothing, it makes an empty tensor. -/
theorem gather_fst (is : Sequence Int) (dtype : Option String) (s : Session) (a : TensorArray) :
    (gather (is.toValue .int) (optionalText dtype) (s, a)).1 =
      a.opened >>= fun _ => checkDType (optionalText dtype) a.dtype (a.label "gather") >>= fun _ =>
        if is.members = [] then (nothingOf false (s, a)).1
        else (readEach (is.members.map .int) a).1 >>= fun xs => Tensor.stack xs (.int 0) := by
  have hitems : (liftM (is.toValue .int).items : Action (Session × TensorArray) (List Value)) (s, a) =
      (.ok (is.members.map .int), s, a) := by
    rw [Sequence.items_toValue, Action.lift_apply]
  have hasked : (checkAsked "gather" (optionalText dtype)).onSecond (s, a) =
      (checkDType (optionalText dtype) a.dtype (a.label "gather"), s, a) := rfl
  rw [gather, Action.bind_apply, requireOpen_onSecond]
  rcases a.opened with e | ⟨⟩
  · rfl
  simp only [Outcome.ok_bind]
  rw [Action.bind_apply, hasked]
  rcases checkDType (optionalText dtype) a.dtype (a.label "gather") with e | ⟨⟩
  · rfl
  simp only [Outcome.ok_bind]
  have hempty : (is.members.map Value.int).isEmpty = true ↔ is.members = [] := by simp
  rw [Action.bind_ok hitems]
  by_cases hnil : is.members = []
  · rw [if_pos (hempty.mpr hnil), if_pos hnil]
  rw [if_neg (mt hempty.mp hnil), if_neg hnil, Action.bind_apply, Action.onSecond_apply]
  cases (readEach (is.members.map .int) a).1 <;> rfl

theorem gather_eq {is : Sequence Int} (hopen : a.closed = false) (hne : is.members ≠ [])
    (hread : (readEach (is.members.map .int) a).1 = .ok xs) (s : Session) :
    ((Call.gather is none).perform (s, a)).1 = .tensor <$> Tensor.stack xs (.int 0) := by
  have hopened : a.opened = .ok () := if_neg (by simp [hopen])
  have hgather : (gather (is.toValue .int) .nothing (s, a)).1 = Tensor.stack xs (.int 0) := by
    have hfst := gather_fst is none s a
    rw [hopened, if_neg hne, hread] at hfst
    exact hfst
  rw [Call.perform_eq]
  exact (Action.fst_bind_pure _ _ _).trans (congrArg (Value.tensor <$> ·) hgather)

/-! ### The slots that hold a tensor -/

theorem forall₂_filter {α β : Type} (f : α → Option β) (l : List α) :
    List.Forall₂ (fun a b => f a = some b) (l.filter fun a => (f a).isSome) (l.filterMap f) := by
  induction l with
  | nil => exact .nil
  | cons a l ih =>
    cases ha : f a with
    | none => simpa [ha] using ih
    | some b =>
      rw [List.filter_cons_of_pos (by simp [ha]), List.filterMap_cons_some ha]
      exact .cons ha ih

/-- The slots that hold a tensor, in order, have the tensors that are held. -/
theorem forall₂_held (a : TensorArray) :
    List.Forall₂ (fun (k : Nat) x => a.slots[k]?.bind Slot.tensor = some x) a.held (a.slots.filterMap Slot.tensor) := by
  have hrange : (List.range a.slots.length).filterMap (a.slots[·]?) = a.slots :=
    Tensor.filterMap_range fun _ _ => rfl
  have hheld := forall₂_filter (fun (k : Nat) => a.slots[k]?.bind Slot.tensor) (List.range a.size)
  have htensors : (List.range a.size).filterMap (fun (k : Nat) => a.slots[k]?.bind Slot.tensor) =
      a.slots.filterMap Slot.tensor := by
    conv_rhs => rw [← hrange, List.filterMap_filterMap]
    rfl
  rwa [htensors] at hheld

theorem Inv.readEach_held {m : Making} {events : List Step} (h : Inv m a events) (hopen : a.closed = false) :
    (readEach (indices a.held) a).1 = .ok (a.slots.filterMap Slot.tensor) := by
  rw [indices_eq]
  refine readEach_ok (List.forall₂_map_left_iff.mpr ((forall₂_held a).imp fun k x hx => ?_)) (Or.inr ?_)
  · have hslot := h.slot_of_tensor hx
    exact readable_eq_ok.mpr
      ⟨hopen, Int.natCast_nonneg k, Int.ofNat_lt.mpr (List.getElem?_eq_some_iff.mp hslot).1, hslot⟩
  · exact (nodup_held a).map fun j k hjk => Int.natCast_inj.mp hjk

/-- A concat asks whether it may, reads what is held, and ties it unless there is a scalar among it. -/
theorem concat_fst (dtype : Option String) (s : Session) (a : TensorArray) :
    (TensorArray.concat (optionalText dtype) (s, a)).1 =
      a.opened >>= fun _ => checkDType (optionalText dtype) a.dtype (a.label "concat") >>= fun _ =>
        if a.held = [] then (nothingOf true (s, a)).1
        else (readEach (indices a.held) a).1 >>= fun xs =>
          if xs.any (·.rank = 0) then .error ((readEach (indices a.held) a).2.refusal .scalarConcat)
          else Tensor.tie xs (.int 0) := by
  have hasked : (checkAsked "concat" (optionalText dtype)).onSecond (s, a) =
      (checkDType (optionalText dtype) a.dtype (a.label "concat"), s, a) := rfl
  rw [TensorArray.concat, Action.bind_apply, requireOpen_onSecond]
  rcases a.opened with e | ⟨⟩
  · rfl
  simp only [Outcome.ok_bind]
  rw [Action.bind_apply, hasked]
  rcases checkDType (optionalText dtype) a.dtype (a.label "concat") with e | ⟨⟩
  · rfl
  simp only [Outcome.ok_bind]
  rw [Action.bind_ok (Action.get_apply (s, a))]
  by_cases hnil : a.held = []
  · rw [if_pos (List.isEmpty_iff.mpr hnil), if_pos hnil]
  rw [if_neg (mt List.isEmpty_iff.mp hnil), if_neg hnil, Action.bind_apply, Action.onSecond_apply]
  cases (readEach (indices a.held) a).1 with
  | error e => rfl
  | ok xs =>
    by_cases hscalar : xs.any (·.rank = 0) = true
    · simp only [Outcome.ok_bind, if_pos hscalar]
      rfl
    · simp only [Outcome.ok_bind, if_neg hscalar]
      rfl

theorem concat_eq (hopen : a.closed = false) (hne : a.held ≠ []) (hread : (readEach (indices a.held) a).1 = .ok xs)
    (s : Session) : ((Call.concat none).perform (s, a)).1 =
      if xs.any (·.rank = 0) then .error ((readEach (indices a.held) a).2.refusal .scalarConcat)
      else .tensor <$> Tensor.tie xs (.int 0) := by
  have hopened : a.opened = .ok () := if_neg (by simp [hopen])
  have hconcat : (TensorArray.concat .nothing (s, a)).1 =
      if xs.any (·.rank = 0) then .error ((readEach (indices a.held) a).2.refusal .scalarConcat)
      else Tensor.tie xs (.int 0) := by
    have hfst := concat_fst none s a
    rw [hopened, if_neg hne, hread] at hfst
    exact hfst
  rw [Call.perform_eq]
  refine (Action.fst_bind_pure _ _ _).trans ((congrArg (Value.tensor <$> ·) hconcat).trans ?_)
  split <;> rfl

/-- A concat ties what the slots hold, unless there is a scalar among it. -/
theorem Inv.concat_eq_ok {m : Making} {events : List Step} (h : Inv m a events) (hopen : a.closed = false)
    (hne : a.slots.filterMap Slot.tensor ≠ []) (s : Session) :
    ((Call.concat none).perform (s, a)).1 = .ok v ↔
      (∀ x ∈ a.slots.filterMap Slot.tensor, x.shape ≠ []) ∧
        ∃ z, Tensor.tie (a.slots.filterMap Slot.tensor) (.int 0) = .ok z ∧ v = .tensor z := by
  have hheld : a.held ≠ [] := by
    rw [← List.length_pos_iff, (forall₂_held a).length_eq]
    exact List.length_pos_iff.mpr hne
  rw [concat_eq hopen hheld (h.readEach_held hopen)]
  generalize a.slots.filterMap Slot.tensor = xs
  by_cases hranked : ∀ x ∈ xs, x.shape ≠ []
  · rw [if_neg (mt (Tensor.any_scalar xs).mp (not_not_intro hranked)), and_iff_right hranked]
    cases Tensor.tie xs (.int 0) <;> simp [eq_comm]
  · rw [if_pos ((Tensor.any_scalar xs).mpr hranked)]
    refine ⟨fun h => ?_, fun h => absurd h.1 hranked⟩
    cases h

end TensorArray

end Dataflow
