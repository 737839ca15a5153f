import Dataflow.Proofs.Slots
import Dataflow.Queue.Method

/-! What is put into a queue and taken out of it. Everything that can keep a tuple out is looked at before the queue
    changes. Of what can make a dequeue fail, some is looked at before any tuple is taken, and the rest only after. -/

namespace Dataflow

namespace Action

variable {σ τ α β : Type}

theorem mapM_onFirst (f : α → Action σ β) (l : List α) (s : σ) (t : τ) :
    (l.mapM fun x => (f x).onFirst) (s, t) = ((l.mapM f s).1, (l.mapM f s).2, t) := by
  induction l generalizing s with
  | nil => rfl
  | cons x l ih =>
    rw [List.mapM_cons, List.mapM_cons, bind_apply, bind_apply, onFirst_apply]
    rcases f x s with ⟨e | y, s'⟩
    · rfl
    · simp only [bind_apply, ih]
      rcases l.mapM f s' with ⟨e | ys, s''⟩ <;> rfl

theorem mapM_lift (f : α → Outcome β) (l : List α) (s : σ) :
    (l.mapM fun x => (liftM (f x) : Action σ β)) s = (l.mapM f, s) := by
  induction l with
  | nil => rfl
  | cons x l ih =>
    rw [List.mapM_cons, List.mapM_cons, bind_apply, lift_apply]
    cases f x with
    | error e => rfl
    | ok y =>
      simp only [bind_apply, ih]
      cases l.mapM f <;> rfl

end Action

namespace Queue

/-! ### Putting tuples in -/

/-- The failure of an operation that a queue refuses. -/
def refusal (q : Queue) (cause : QueueRefusal) : Failure := .refused (.queue q.name cause)

theorem refuse_apply {α : Type} (cause : QueueRefusal) (q : Queue) :
    (refuse cause : Action Queue α) q = (.error (q.refusal cause), q) := rfl

/-- The tuple that enters a queue for some values. -/
def admitted (q : Queue) (xs : List Value) : Outcome (List Tensor) := do
  if xs.length ≠ q.dtypes.length then throw (q.refusal (.componentCount q.dtypes.length xs.length))
  if ← q.bounded then
    if ← (Value.int q.size).atLeast q.capacity then throw (q.refusal (.full q.capacity))
  q.checkComponents 0 (xs.zip q.columns)
  Value.toTensors xs

theorem enqueue_eq (xs : List Value) (q : Queue) :
    enqueue xs q = match q.admitted xs with
      | .ok ts => (.ok (), q.push ts)
      | .error e => (.error e, q) := by
  unfold enqueue admitted
  simp only [Action.bind_apply, Action.get_apply]
  by_cases hlength : xs.length ≠ q.dtypes.length
  · simp [hlength, Action.bind_apply, refuse_apply]
  simp only [hlength, if_false]
  cases hbounded : q.bounded with
  | error e => rfl
  | ok bounded =>
    have hrest : (do
        liftM (q.checkComponents 0 (xs.zip q.columns))
        let ts ← liftM (Value.toTensors xs)
        modify (push ts) : Action Queue Unit) q =
          match (do q.checkComponents 0 (xs.zip q.columns); Value.toTensors xs : Outcome (List Tensor)) with
          | .ok ts => (.ok (), q.push ts)
          | .error e => (.error e, q) := by
      simp only [Action.bind_apply, Action.lift_apply]
      rcases q.checkComponents 0 (xs.zip q.columns) with e | ⟨⟩
      · rfl
      · cases Value.toTensors xs <;> rfl
    cases bounded with
    | false => exact hrest
    | true =>
      rcases hfull : (Value.int q.size).atLeast q.capacity with e | full
      · rfl
      · cases full with
        | false => exact hrest
        | true => rfl

/-! ### Taking tuples out -/

/-- The element types that are asked for are those of the columns, unless none are asked for. -/
def checkDTypes (q : Queue) : Value → Outcome Unit
  | .nothing => .ok ()
  | v => do
    let ds ← v.items
    if ds.isEmpty then return ()
    if ds.length ≠ q.dtypes.length then throw (q.refusal (.dtypeCount q.dtypes.length ds.length))
    q.checkAsked 0 (ds.zip q.dtypes)

/-- The number of tuples that a dequeue takes. -/
def due (q : Queue) (num dtypes : Value) : Outcome Nat := do
  if ← num.isNegative then throw (q.refusal (.negativeCount num))
  q.checkDTypes dtypes
  takenFor num q.size

theorem takenFor_natCast (n available : Nat) : takenFor (.int n) available = .ok (min n available) := by
  rw [takenFor, Value.less_int, Outcome.ok_bind]
  by_cases h : available < n
  · rw [if_pos (decide_eq_true (Int.ofNat_lt.mpr h)), Nat.min_eq_right (Nat.le_of_lt h)]
    rfl
  · rw [if_neg (by simpa using h), Nat.min_eq_left (Nat.not_lt.mp h)]
    rfl

theorem due_natCast {q : Queue} {dtypes : Value} (h : q.checkDTypes dtypes = .ok ()) (n : Nat) :
    q.due (.int n) dtypes = .ok (min n q.size) := by
  rw [due, Value.isNegative_int, Outcome.ok_bind, if_neg (by simp), h, Outcome.ok_bind, takenFor_natCast]

/-- A dequeue that takes a number of tuples, up to the entry of the log. -/
def taking (n : Nat) (num : Value) (s : Session) (q : Queue) : Outcome (List (List Tensor)) × Session × Queue :=
  match Session.record .queue (takenLine n num (q.drop n)) s with
  | (.ok (), t) => (.ok (q.tuples.take n), t, q.drop n)
  | (.error e, t) => (.error e, t, q.drop n)

theorem takeUpTo_eq (num dtypes : Value) (s : Session) (q : Queue) :
    takeUpTo num dtypes (s, q) = match q.due num dtypes with
      | .ok n => taking n num s q
      | .error e => (.error e, s, q) := by
  -- Whatever element types are asked for, what follows the checks is the same.
  have hrest : (do
      let n ← liftM (takenFor num q.size)
      modify fun p => (p.1, p.2.drop n)
      (Session.record .queue (takenLine n num (q.drop n))).onFirst
      return q.tuples.take n : Action (Session × Queue) (List (List Tensor))) (s, q) =
        match takenFor num q.size with
        | .ok n => taking n num s q
        | .error e => (.error e, s, q) := by
    rw [Action.bind_apply, Action.lift_apply]
    cases takenFor num q.size with
    | error e => rfl
    | ok n =>
      simp only [Action.bind_apply, Action.modify_apply, Action.onFirst_apply, taking]
      rcases Session.record .queue (takenLine n num (q.drop n)) s with ⟨e | ⟨⟩, t⟩ <;> rfl
  unfold takeUpTo due
  rw [Action.bind_apply, Action.lift_apply]
  rcases num.isNegative with e | negative
  · rfl
  cases negative with
  | true => rfl
  | false =>
    cases dtypes with
    | nothing =>
      simp only [checkDTypes]
      rw [if_neg Bool.false_ne_true, Action.bind_ok (Action.get_apply _), Outcome.ok_bind, if_neg Bool.false_ne_true,
        Outcome.ok_bind]
      exact hrest
    | _ =>
      simp only [checkDTypes]
      generalize Value.items _ = items
      rcases items with e | ds
      · rfl
      rw [if_neg Bool.false_ne_true, Action.bind_ok (Action.get_apply _), Action.bind_ok (Action.lift_apply _ _),
        Outcome.ok_bind, if_neg Bool.false_ne_true, Outcome.ok_bind]
      cases hempty : ds.isEmpty with
      | true =>
        simp only [Bool.not_true, Bool.false_eq_true, if_false, if_true]
        exact hrest
      | false =>
        simp only [Bool.not_false, Bool.false_eq_true, if_false, if_true]
        by_cases hlength : ds.length ≠ q.dtypes.length
        · rw [if_pos hlength, if_pos hlength]
          rfl
        rw [if_neg hlength, if_neg hlength]
        rcases hasked : q.checkAsked 0 (ds.zip q.dtypes) with e | ⟨⟩
        · rfl
        · exact hrest

/-- The tensors that are made of tuples, one for each column. -/
def collected (q : Queue) (tuples : List (List Tensor)) : Action Session (List Tensor) :=
  if tuples.isEmpty then
    q.columns.mapM fun (dtype, shape) => Session.empty (Shape.toValue (0 :: shape.collapse 0)) dtype Session.auto
  else liftM ((List.range q.dtypes.length).mapM (column tuples))

/-- Once its tuples are taken, nothing that fails in a dequeue puts them back. -/
theorem dequeueUpTo_eq (num dtypes : Value) (s : Session) (q : Queue) :
    dequeueUpTo num dtypes (s, q) = match q.due num dtypes with
      | .error e => (.error e, s, q)
      | .ok n => match Session.record .queue (takenLine n num (q.drop n)) s with
        | (.error e, t) => (.error e, t, q.drop n)
        | (.ok (), t) => ((q.collected (q.tuples.take n) t).1, (q.collected (q.tuples.take n) t).2, q.drop n) := by
  rw [dequeueUpTo, Action.bind_apply, takeUpTo_eq]
  cases q.due num dtypes with
  | error e => rfl
  | ok n =>
    simp only [taking]
    rcases Session.record .queue (takenLine n num (q.drop n)) s with ⟨e | ⟨⟩, t⟩
    · rfl
    simp only [Action.bind_apply, Action.get_apply, collected]
    by_cases hempty : (q.tuples.take n).isEmpty = true
    · simp only [if_pos hempty]
      exact Action.mapM_onFirst _ _ _ _
    · simp only [if_neg hempty]
      exact Action.mapM_lift _ _ _

theorem dequeueUpTo_queue (num dtypes : Value) (s : Session) (q : Queue) :
    (dequeueUpTo num dtypes (s, q)).2.2 = match q.due num dtypes with
      | .error _ => q
      | .ok n => q.drop n := by
  rw [dequeueUpTo_eq]
  cases q.due num dtypes with
  | error e => rfl
  | ok n =>
    dsimp only
    rcases Session.record .queue (takenLine n num (q.drop n)) s with ⟨e | ⟨⟩, t⟩ <;> rfl

end Queue

end Dataflow
