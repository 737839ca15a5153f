import Dataflow.Proofs.Joining
import Dataflow.Proofs.QueueLives

/-! Dequeues that fail. A dequeue that is refused leaves the queue alone. One that fails after its tuples are taken has
    lost them: the components of some column do not make a stack, though the column let in each of them. -/

namespace Dataflow

theorem Session.record_error {source : LogSource} {text : Outcome String} {s t : Session} {e : Failure}
    (h : record source text s = (.error e, t)) : s.logs = true ∧ text = .error e := by
  rw [record, Action.bind_ok (Action.get_apply s)] at h
  by_cases hlogs : s.logs = true
  · rw [if_pos hlogs] at h
    cases text with
    | ok line => cases h
    | error e' =>
      cases h
      exact ⟨hlogs, rfl⟩
  · rw [if_neg hlogs] at h
    cases h

/-- Tensors that no stack can be made of: two of them differ in more than their elements, or an array cannot hold the
    stack. -/
def Tensor.Unstackable (xs : List Tensor) : Prop :=
  (∃ x ∈ xs, ∃ y ∈ xs, x.device ≠ y.device ∨ x.dtype ≠ y.dtype ∨ x.shape ≠ y.shape) ∨
    ∃ x ∈ xs, Shape.axisLimit ≤ x.rank ∨ Shape.fits (xs.length :: x.shape) x.dtype.size = false

theorem Tensor.unstackable_of_error {xs : List Tensor} {e : Failure} (hne : xs ≠ [])
    (h : Tensor.stack xs (.int 0) = .error e) : Unstackable xs := by
  obtain ⟨x, hx⟩ := List.exists_mem_of_ne_nil xs hne
  by_contra hnot
  rw [Unstackable, not_or] at hnot
  obtain ⟨hagree, hlimits⟩ := hnot
  have hxs : ∀ y ∈ xs, y.device = x.device ∧ y.dtype = x.dtype ∧ y.shape = x.shape := by
    intro y hy
    by_contra hdiffer
    exact hagree ⟨y, hy, x, hx, by tauto⟩
  have hrank : x.rank < Shape.axisLimit := by
    by_contra hrank
    exact hlimits ⟨x, hx, Or.inl (Nat.not_lt.mp hrank)⟩
  have hroom : Shape.fits (xs.length :: x.shape) x.dtype.size = true := by
    by_contra hroom
    exact hlimits ⟨x, hx, Or.inr (Bool.not_eq_true _ ▸ hroom)⟩
  obtain ⟨z, hz, -⟩ := stack_ok hne hxs (fun _ => hrank) fun _ => hroom
  rw [hz] at h
  cases h

namespace Queue

theorem componentsAt_ne_nil {tuples : List (List Tensor)} {k : Nat} (hne : tuples ≠ [])
    (hk : ∀ t ∈ tuples, k < t.length) : componentsAt tuples k ≠ [] := by
  obtain ⟨t, tuples, rfl⟩ := List.exists_cons_of_ne_nil hne
  rw [componentsAt_cons (List.getElem?_eq_getElem (hk t List.mem_cons_self))]
  exact List.cons_ne_nil _ _

theorem drop_eq_self {q : Queue} {n : Nat} (h : q.tuples.take n = []) : q.drop n = q := by
  have htuples : q.tuples.drop n = q.tuples := by
    have hsplit := List.take_append_drop n q.tuples
    rwa [h, List.nil_append] at hsplit
  rw [drop, htuples]

theorem collected_error {q : Queue} {tuples : List (List Tensor)} {s : Session} {e : Failure} (hne : tuples ≠ [])
    (h : (q.collected tuples s).1 = .error e) : ∃ k < q.dtypes.length, column tuples k = .error e := by
  have hempty : ¬tuples.isEmpty = true := fun hnil => hne (List.isEmpty_iff.mp hnil)
  rw [collected, if_neg hempty, Action.lift_apply] at h
  obtain ⟨k, hk, he⟩ := Outcome.mapM_error h
  exact ⟨k, List.mem_range.mp hk, he⟩

/-- Where a dequeue fails once it is due to take a number of tuples. -/
theorem dequeueUpTo_error {num dtypes : Value} {s : Session} {q : Queue} {n : Nat} {e : Failure}
    (hdue : q.due num dtypes = .ok n) (hne : q.tuples.take n ≠ [])
    (h : (dequeueUpTo num dtypes (s, q)).1 = .error e) :
    (s.logs = true ∧ takenLine n num (q.drop n) = .error e) ∨
      ∃ k < q.dtypes.length, column (q.tuples.take n) k = .error e := by
  rw [dequeueUpTo_eq, hdue] at h
  dsimp only at h
  rcases hrecord : Session.record .queue (takenLine n num (q.drop n)) s with ⟨e' | ⟨⟩, t⟩
  · rw [hrecord] at h
    cases h
    exact Or.inl (Session.record_error hrecord)
  · rw [hrecord] at h
    exact Or.inr (collected_error hne h)

/-- After whatever happened to it, a queue keeps its tuples in a dequeue that fails, or loses exactly those that the
    dequeue took off the front. Then an entry of the log could not be written, or the components that were lost in some
    column do not make a stack. -/
theorem failed_dequeue_loses {s₀ : Session} {byPosition : List Value} {byName : List (String × Value)} {q : Queue}
    (hmake : ofArguments s₀ byPosition byName = .ok q) (s : Session) (es : List Event) (num dtypes : Value)
    {e : Failure} {t : Session} {after : Queue}
    (hfail : dequeueUpTo num dtypes ((Life.of s q es).session, (Life.of s q es).queue) = (.error e, t, after)) :
    let before := Life.of s q es
    after = before.queue ∨
      ∃ n, before.queue.due num dtypes = .ok n ∧ after = before.queue.drop n ∧ before.queue.tuples.take n ≠ [] ∧
        ((before.session.logs = true ∧ takenLine n num after = .error e) ∨
          ∃ k < q.dtypes.length, column (before.queue.tuples.take n) k = .error e ∧
            Tensor.Unstackable (componentsAt (before.queue.tuples.take n) k)) := by
  intro before
  have hafter := dequeueUpTo_queue num dtypes before.session before.queue
  rw [hfail] at hafter
  cases hdue : before.queue.due num dtypes with
  | error e' =>
    rw [hdue] at hafter
    exact Or.inl hafter
  | ok n =>
    rw [hdue] at hafter
    by_cases hne : before.queue.tuples.take n = []
    · exact Or.inl (hafter.trans (drop_eq_self hne))
    refine Or.inr ⟨n, rfl, hafter, hne, ?_⟩
    rw [show after = before.queue.drop n from hafter]
    rcases dequeueUpTo_error hdue hne (congrArg Prod.fst hfail) with hline | ⟨k, hk, he⟩
    · exact Or.inl hline
    have hlength : k < q.dtypes.length := by rwa [Life.dtypes_of] at hk
    have hcomponents : componentsAt (before.queue.tuples.take n) k ≠ [] := by
      refine componentsAt_ne_nil hne fun t ht => ?_
      rw [Life.length_of_mem_tuples (fresh_of_arguments hmake).tuples s es (List.mem_of_mem_take ht)]
      exact hlength
    exact Or.inr ⟨k, hlength, he, Tensor.unstackable_of_error hcomponents he⟩

/-- Two rows of different lengths, in a column that leaves the length open, are lost together. -/
theorem failed_dequeue_loses_both_rows :
    let s := Session.initial [] false false
    let args : List Value := [.list [.text "float32"], .list [.list [.nothing]]]
    let q : Queue := ⟨none, [.text "float32"], [some [none]], .int 0, .text "", .text "", []⟩
    let x : Tensor := ⟨.host, .float32, [2], [.real (.ofInt 1), .real (.ofInt 2)], rfl⟩
    let y : Tensor := ⟨.host, .float32, [1], [.real (.ofInt 3)], rfl⟩
    let l := Life.of s q [.enqueue [.tensor x], .enqueue [.tensor y]]
    ofArguments s args [] = .ok q ∧ l.queue.tuples = [[x], [y]] ∧
      dequeueUpTo (.int 2) .nothing (l.session, l.queue) = (.error .badValue, s, l.queue.drop 2) ∧
      l.queue.drop 2 ≠ l.queue ∧ ∃ n, l.queue.drop 2 = l.queue.drop n ∧ ∃ k < 1,
        Tensor.Unstackable (componentsAt (l.queue.tuples.take n) k) := by
  intro s args q x y l
  have hmake : ofArguments s args [] = .ok q := rfl
  have htuples : l.queue.tuples = [[x], [y]] := rfl
  have hdue : l.queue.due (.int 2) .nothing = .ok 2 := due_natCast rfl 2
  have hrecord : Session.record .queue (takenLine 2 (.int 2) (l.queue.drop 2)) l.session = (.ok (), s) := rfl
  have hcollected : l.queue.collected [[x], [y]] s = (.error .badValue, s) := rfl
  have hfail : dequeueUpTo (.int 2) .nothing (l.session, l.queue) = (.error .badValue, s, l.queue.drop 2) := by
    rw [dequeueUpTo_eq, hdue]
    dsimp only
    rw [hrecord, htuples]
    dsimp only
    rw [show [[x], [y]].take 2 = [[x], [y]] from rfl, hcollected]
  have hlost : l.queue.drop 2 ≠ l.queue := fun hsame => by
    have hnone : (l.queue.drop 2).tuples = [] := rfl
    rw [hsame, htuples] at hnone
    cases hnone
  refine ⟨hmake, htuples, hfail, hlost, ?_⟩
  rcases failed_dequeue_loses hmake s [.enqueue [.tensor x], .enqueue [.tensor y]] (.int 2) .nothing hfail with
    hkept | ⟨n, -, hdrop, -, hline | ⟨k, hk, -, hcolumn⟩⟩
  · exact absurd hkept hlost
  · cases hline.1
  · exact ⟨n, hdrop, k, hk, hcolumn⟩

end Queue

end Dataflow
