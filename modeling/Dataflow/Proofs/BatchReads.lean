import Dataflow.Proofs.Lifetimes
import Mathlib.Data.List.Nodup

/-! Reads of several slots in one call. Nothing brings back what the reads before a failure have cleared: a call that
    fails has taken the tensors of exactly the slots that it had read by then. -/

namespace Dataflow.TensorArray

theorem readable_of_outcome {i : Int} {a : TensorArray} {e : Failure} (h : (Step.read i).outcome a = .error e) :
    a.readable i = .error e := by
  rw [Step.outcome] at h
  cases hread : a.readable i with
  | error e' =>
    rw [hread] at h
    exact congrArg Except.error (Except.error.inj h)
  | ok x =>
    rw [hread] at h
    cases h

/-! ### What reads leave -/

/-- An array after reads of slots that held something. -/
structure Cleared (a : TensorArray) (reads : List Int) (b : TensorArray) : Prop where
  others : b = { a with slots := b.slots }
  slots : ∀ j : Nat, b.slots[j]? =
    if a.clearAfterRead = true ∧ (j : Int) ∈ reads then some ⟨none, true⟩ else a.slots[j]?
  held : ∀ i ∈ reads, 0 ≤ i ∧ ∃ x, a.slots[i.toNat]? = some ⟨some x, false⟩

namespace Cleared

variable {a b : TensorArray} {reads : List Int}

theorem refl (a : TensorArray) : Cleared a [] a where
  others := rfl
  slots := by simp
  held := by simp

theorem cons {i : Int} {x : Tensor} (hread : a.readable i = .ok x) (h : Cleared (a.released i.toNat) reads b) :
    Cleared a (i :: reads) b := by
  obtain ⟨-, h0, hlt, hslot⟩ := readable_eq_ok.mp hread
  obtain ⟨k, rfl⟩ := Int.eq_ofNat_of_zero_le h0
  rw [Int.toNat_natCast] at h hslot
  have hk : k < a.size := Int.ofNat_lt.mp hlt
  have hclear : (a.released k).clearAfterRead = a.clearAfterRead := by rw [released_with]
  refine ⟨?_, fun j => ?_, fun i hi => ?_⟩
  · have hothers := h.others
    rw [released_with] at hothers
    exact hothers
  · rw [h.slots, hclear, slots_released]
    cases hc : a.clearAfterRead with
    | false => simp
    | true =>
      by_cases hj : j = k
      · simp [hj, hk]
      · have hcast : ¬(j : Int) = k := mt Int.natCast_inj.mp hj
        simp only [List.mem_cons, hcast, hj, false_or, false_and, and_false, if_false]
  · rcases List.mem_cons.mp hi with rfl | hi
    · exact ⟨h0, x, hslot⟩
    -- A slot that still holds something after a read held it before.
    · obtain ⟨hi0, y, hy⟩ := h.held i hi
      rcases slot_of_released hk hy with ⟨-, -, hcleared⟩ | ⟨hy, -⟩
      · cases hcleared
      · exact ⟨hi0, y, hy⟩

theorem eq_iff (h : Cleared a reads b) : b = a ↔ a.clearAfterRead = false ∨ reads = [] := by
  constructor
  · rintro rfl
    cases reads with
    | nil => exact Or.inr rfl
    | cons i reads =>
      obtain ⟨h0, x, hx⟩ := h.held i List.mem_cons_self
      have hslot := h.slots i.toNat
      rw [Int.toNat_of_nonneg h0, hx] at hslot
      refine Or.inl (Bool.eq_false_iff.mpr fun hc => ?_)
      rw [if_pos ⟨hc, List.mem_cons_self⟩] at hslot
      cases hslot
  · intro hnone
    have hslots : b.slots = a.slots := by
      refine List.ext_getElem? fun j => (h.slots j).trans (if_neg ?_)
      rcases hnone with hc | rfl
      · simp [hc]
      · simp
    rw [h.others, hslots]

end Cleared

theorem cleared_effective (is : List Int) (a : TensorArray) :
    ∃ reads, effective (is.map .read) a = reads.map .read ∧
      Cleared a reads (performEach (is.map .read) a).2 := by
  induction is generalizing a with
  | nil => exact ⟨[], rfl, .refl a⟩
  | cons i is ih =>
    rw [List.map_cons, performEach_cons, effective, Step.outcome]
    cases hread : a.readable i with
    | error e => exact ⟨[], rfl, .refl a⟩
    | ok x =>
      obtain ⟨reads, heffective, hcleared⟩ := ih (a.released i.toNat)
      exact ⟨i :: reads, congrArg (Step.read i :: ·) heffective, hcleared.cons hread⟩

/-! ### Calls that read several slots -/

/-- A call that makes one tensor of the elements of several slots. -/
def Call.Collects : Call → Prop
  | .gather _ _ | .concat _ => True
  | _ => False

theorem Call.Collects.steps {c : Call} (hc : c.Collects) {a : TensorArray} {ts : List Step}
    (h : c.steps a = .ok ts) : ∃ is : List Int, ts = is.map .read := by
  cases c with
  | gather is dtype =>
    rw [Call.steps] at h
    obtain ⟨-, -, h⟩ := Outcome.bind_eq_ok.mp h
    obtain ⟨-, -, h⟩ := Outcome.bind_eq_ok.mp h
    exact ⟨is.members, (Except.ok.inj h).symm⟩
  | concat dtype =>
    rw [Call.steps] at h
    obtain ⟨-, -, h⟩ := Outcome.bind_eq_ok.mp h
    obtain ⟨-, -, h⟩ := Outcome.bind_eq_ok.mp h
    refine ⟨a.held.map fun (k : Nat) => (k : Int), ?_⟩
    rw [List.map_map]
    exact (Except.ok.inj h).symm
  | _ => cases hc

theorem Call.Collects.ne_clearAndClose {c : Call} (hc : c.Collects) : c ≠ .clearAndClose := by
  rintro rfl
  exact hc

theorem nodup_held (a : TensorArray) : a.held.Nodup := List.nodup_range.filter _

/-- A slot that holds something has not been cleared. -/
theorem Inv.slot_of_tensor {m : Making} {a : TensorArray} {events : List Step} {k : Nat} {x : Tensor}
    (h : Inv m a events) (hx : a.slots[k]?.bind Slot.tensor = some x) : a.slots[k]? = some ⟨some x, false⟩ := by
  obtain ⟨slot, hslot, htensor⟩ := Option.bind_eq_some_iff.mp hx
  cases hc : slot.cleared with
  | true =>
    rw [(h.slots k slot hslot).tensor_eq_none hc] at htensor
    cases htensor
  | false => rw [hslot, ← hc, ← htensor]

/-- Every slot that holds something can be read, whatever other slots have been read before. -/
theorem Inv.readable_of_held {m : Making} {a b : TensorArray} {events : List Step} {reads : List Int} {k : Nat}
    (h : Inv m a events) (hopen : a.closed = false) (hk : k ∈ a.held) (hreads : (k : Int) ∉ reads)
    (hcleared : Cleared a reads b) : ∃ x, b.readable k = .ok x := by
  obtain ⟨hrange, hheld⟩ := List.mem_filter.mp hk
  obtain ⟨x, hx⟩ := Option.isSome_iff_exists.mp hheld
  have hfull : a.slots[k]? = some ⟨some x, false⟩ := h.slot_of_tensor hx
  have hafter : b.slots[k]? = some ⟨some x, false⟩ := by
    rw [hcleared.slots, if_neg fun hc => hreads hc.2, hfull]
  refine ⟨x, readable_eq_ok.mpr ⟨?_, Int.natCast_nonneg k, ?_, hafter⟩⟩
  · rw [hcleared.others]
    exact hopen
  · exact Int.ofNat_lt.mpr (List.getElem?_eq_some_iff.mp hafter).1

theorem Inv.readable_of_concat {m : Making} {a b : TensorArray} {events ts rest : List Step} {reads : List Int}
    {i : Int} {dtype : Option String} (h : Inv m a events) (hsteps : (Call.concat dtype).steps a = .ok ts)
    (hts : ts = reads.map .read ++ .read i :: rest) (hcleared : Cleared a reads b) : ∃ x, b.readable i = .ok x := by
  rw [Call.steps] at hsteps
  obtain ⟨⟨⟩, hopened, hsteps⟩ := Outcome.bind_eq_ok.mp hsteps
  obtain ⟨-, -, hsteps⟩ := Outcome.bind_eq_ok.mp hsteps
  have hopen : a.closed = false := closed_of_opened hopened
  have hheld : a.held.map (fun (k : Nat) => Step.read k) = reads.map .read ++ .read i :: rest :=
    (Except.ok.inj hsteps).trans hts
  obtain ⟨k, hk, hki⟩ : ∃ k ∈ a.held, Step.read k = .read i := by
    refine List.mem_map.mp ?_
    rw [hheld]
    exact List.mem_append_right _ List.mem_cons_self
  obtain rfl : (k : Int) = i := Step.read.inj hki
  -- No slot is asked for twice.
  have hnodup : (reads.map Step.read ++ .read k :: rest).Nodup := by
    rw [← hheld]
    exact (nodup_held a).map fun j k hjk => Int.natCast_inj.mp (Step.read.inj hjk)
  have hnew : (k : Int) ∉ reads := fun hmem =>
    (List.nodup_append.mp hnodup).2.2 _ (List.mem_map_of_mem hmem) _ List.mem_cons_self rfl
  exact h.readable_of_held hopen hk hnew hcleared

/-- After whatever calls, a gather or concat that fails has changed the array in nothing but the slots that it read
    before it failed: each of them held a tensor, which is gone if reads clear. The call was refused before it read
    anything, or stopped at a read that fails, or read all that it asks for and could not make one tensor of it. -/
theorem failed_collection_clears {m : Making} {s : Session} {a : TensorArray}
    (hmake : ofArguments s m.arguments [] = .ok a) (cs : List Call) {c : Call} (hc : c.Collects) {e : Failure}
    (hfail : (c.perform ((Life.of s a cs).session, (Life.of s a cs).array)).1 = .error e) :
    let before := (Life.of s a cs).array
    let after := (c.perform ((Life.of s a cs).session, before)).2.2
    ∃ reads, Cleared before reads after ∧
      (after = before ↔ m.clearAfterRead = false ∨ reads = []) ∧
      ((c.steps before = .error e ∧ reads = []) ∨
        (∃ i rest, c.steps before = .ok (reads.map .read ++ .read i :: rest) ∧ after.readable i = .error e) ∨
        c.steps before = .ok (reads.map .read)) ∧
      (∀ dtype, c = .concat dtype → c.steps before = .error e ∨ c.steps before = .ok (reads.map .read)) := by
  intro before after
  obtain rfl := Making.eq_array hmake
  have inv : Inv m before (Life.of s m.array cs).events := inv_of m s cs
  have hperforms := c.performs hc.ne_clearAndClose (Life.of s m.array cs).session before
  rw [← inv.clearAfterRead]
  cases hsteps : c.steps before with
  | error e' =>
    obtain ⟨herror, harray⟩ := hperforms.refused e' hsteps
    obtain rfl : e' = e := Except.error.inj (herror.symm.trans hfail)
    have hsame : Cleared before [] after := by
      rw [show after = before from harray]
      exact .refl before
    exact ⟨[], hsame, hsame.eq_iff, Or.inl ⟨rfl, rfl⟩, fun _ _ => Or.inl rfl⟩
  | ok ts =>
    obtain ⟨is, rfl⟩ := hc.steps hsteps
    obtain ⟨reads, heffective, hcleared⟩ := cleared_effective is before
    rw [← show after = (performEach (is.map .read) before).2 from hperforms.array _ hsteps] at hcleared
    refine ⟨reads, hcleared, hcleared.eq_iff, ?_⟩
    rcases hreads : (performEach (is.map .read) before).1 with e' | ⟨⟩
    · obtain rfl : e' = e := Except.error.inj ((hperforms.failure _ _ hsteps hreads).symm.trans hfail)
      obtain ⟨t, rest, hts, ht⟩ := effective_of_error hreads
      rw [heffective] at hts
      obtain ⟨i, -, rfl⟩ : ∃ i ∈ is, Step.read i = t := by
        have hmem : t ∈ reads.map .read ++ t :: rest := List.mem_append_right _ List.mem_cons_self
        rw [← hts] at hmem
        exact List.mem_map.mp hmem
      rw [← show after = (performEach (is.map .read) before).2 from hperforms.array _ hsteps] at ht
      have hread : after.readable i = .error e' := readable_of_outcome ht
      refine ⟨Or.inr (Or.inl ⟨i, rest, congrArg Except.ok hts, hread⟩), ?_⟩
      rintro dtype rfl
      obtain ⟨x, hx⟩ := inv.readable_of_concat hsteps hts hcleared
      rw [hread] at hx
      cases hx
    · have hall : is.map Step.read = reads.map Step.read := by rw [← heffective, effective_of_ok hreads]
      rw [hall]
      exact ⟨Or.inr (Or.inr rfl), fun _ _ => Or.inr rfl⟩

/-- A concat of scalars is refused when they are gone. -/
theorem failed_collection_clears_scalars :
    let m : Making := ⟨"a", "float32", 1, none, false, false, true⟩
    let s := Session.initial [] false false
    let x := Tensor.scalar .host .float32 (.real (.ofInt 1))
    let l := Life.of s m.array [.write 0 x]
    let after := ((Call.concat none).perform (l.session, l.array)).2.2
    ofArguments s m.arguments [] = .ok m.array ∧ (Call.concat none).Collects ∧
      ((Call.concat none).perform (l.session, l.array)).1 = .error (l.array.refusal .scalarConcat) ∧
      ∃ reads, Cleared l.array reads after ∧ (Call.concat none).steps l.array = .ok (reads.map .read) ∧
        after ≠ l.array := by
  intro m s x l after
  have hmake : ofArguments s m.arguments [] = .ok m.array := rfl
  have hfail : ((Call.concat none).perform (l.session, l.array)).1 = .error (l.array.refusal .scalarConcat) := rfl
  have hasked : (Call.concat none).steps l.array = .ok [.read 0] := rfl
  -- Without the abbreviations what follows agrees as it is written, and no call has to be evaluated again.
  subst after l
  obtain ⟨reads, hcleared, hsame, -, hall⟩ :=
    failed_collection_clears hmake [.write 0 x] (c := .concat none) trivial hfail
  rcases hall none rfl with hrefused | hsteps
  · rw [hasked] at hrefused
    cases hrefused
  have hsome : reads ≠ [] := by
    rintro rfl
    rw [hasked] at hsteps
    cases hsteps
  have hlost : ¬(m.clearAfterRead = false ∨ reads = []) := not_or.mpr ⟨nofun, hsome⟩
  exact ⟨hmake, trivial, hfail, reads, hcleared, hsteps, mt hsame.mp hlost⟩

/-- A gather that meets a slot without a tensor loses the tensor that it read before. -/
theorem gather_of_unwritten_loses_tensor :
    let m : Making := ⟨"a", "float32", 2, none, false, false, true⟩
    let s := Session.initial [] false false
    let x := Tensor.scalar .host .float32 (.real (.ofInt 1))
    let l := Life.of s m.array [.write 0 x]
    ofArguments s m.arguments [] = .ok m.array ∧
      ((Call.gather ⟨false, [0, 1]⟩ none).perform (l.session, l.array)).1 =
        .error (.refused (.array (.text "a") (.neverWritten (.int 1)))) ∧
      l.array.slots = [⟨some x, false⟩, .empty] ∧
      ((Call.gather ⟨false, [0, 1]⟩ none).perform (l.session, l.array)).2.2.slots = [⟨none, true⟩, .empty] :=
  ⟨rfl, rfl, rfl, rfl⟩

end Dataflow.TensorArray
