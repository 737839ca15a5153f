import Mathlib.Data.List.Induction

/-! Histories: lists of what has happened, the latest last. The last entry of a kind is the one that counts for it, and
    it changes only with an entry of that kind. -/

namespace Dataflow

variable {α : Type} {p : α → Prop} {l : List α} {x y : α}

/-- The last entry of a kind. -/
def LastOf (p : α → Prop) (l : List α) (x : α) : Prop :=
  ∃ before after, l = before ++ x :: after ∧ p x ∧ ∀ y ∈ after, ¬p y

namespace LastOf

theorem mem (h : LastOf p l x) : x ∈ l := by
  obtain ⟨before, after, rfl, -⟩ := h
  simp

end LastOf

theorem not_lastOf_nil : ¬LastOf p [] x := fun h => nomatch h.mem

/-- A new entry is the last of its kinds, and leaves the last entries of other kinds in place. -/
theorem lastOf_concat {e : α} : LastOf p (l ++ [e]) x ↔ p e ∧ e = x ∨ ¬p e ∧ LastOf p l x := by
  constructor
  · rintro ⟨before, after, heq, hx, hafter⟩
    rcases List.eq_nil_or_concat after with rfl | ⟨after, e', rfl⟩
    · obtain ⟨-, he⟩ := List.append_inj' heq rfl
      cases he
      exact Or.inl ⟨hx, rfl⟩
    · rw [List.concat_eq_append, ← List.cons_append, ← List.append_assoc] at heq
      obtain ⟨rfl, he⟩ := List.append_inj' heq rfl
      cases he
      exact Or.inr ⟨hafter e (by simp), before, after, rfl, hx, fun y hy => hafter y (by simp [hy])⟩
  · rintro (⟨he, rfl⟩ | ⟨he, before, after, rfl, hx, hafter⟩)
    · exact ⟨l, [], rfl, he, by simp⟩
    · refine ⟨before, after ++ [e], by simp, hx, fun y hy => ?_⟩
      rcases List.mem_append.mp hy with hy | hy
      · exact hafter y hy
      · rwa [List.mem_singleton.mp hy]

theorem lastOf_concat_of_kind {e : α} (he : p e) : LastOf p (l ++ [e]) x ↔ e = x := by
  simp [lastOf_concat, he]

theorem lastOf_concat_of_not_kind {e : α} (he : ¬p e) : LastOf p (l ++ [e]) x ↔ LastOf p l x := by
  simp [lastOf_concat, he]

theorem lastOf_of_getElem? {k : Nat} (hk : l[k]? = some x) (hx : p x)
    (hlater : ∀ j y, k < j → l[j]? = some y → ¬p y) : LastOf p l x := by
  obtain ⟨hlt, rfl⟩ := List.getElem?_eq_some_iff.mp hk
  refine ⟨l.take k, l.drop (k + 1), ?_, hx, fun y hy => ?_⟩
  · rw [List.getElem_cons_drop, List.take_append_drop]
  · obtain ⟨j, hj⟩ := List.getElem?_of_mem hy
    rw [List.getElem?_drop] at hj
    exact hlater _ y (by omega) hj

theorem LastOf.unique (hx : LastOf p l x) (hy : LastOf p l y) : x = y := by
  induction l using List.reverseRecOn with
  | nil => exact absurd hx not_lastOf_nil
  | append_singleton l e ih =>
    by_cases he : p e
    · rw [lastOf_concat_of_kind he] at hx hy
      rw [← hx, hy]
    · rw [lastOf_concat_of_not_kind he] at hx hy
      exact ih hx hy

end Dataflow
