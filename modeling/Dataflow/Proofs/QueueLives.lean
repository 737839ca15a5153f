import Dataflow.Proofs.QueueSteps
import Dataflow.Proofs.Rows
import Mathlib.Data.List.Forall2
import Mathlib.Data.List.Induction

/-! Lives of queues: a queue as it is made, and what is put in and taken out after that. Its columns stay as they were
    made, and every tuple in it has a component for each of them. -/

namespace Dataflow

namespace Outcome

variable {α β : Type} {f : α → Outcome β}

theorem forall₂_of_mapM {l : List α} {ys : List β} (h : l.mapM f = .ok ys) :
    List.Forall₂ (fun x y => f x = .ok y) l ys := by
  induction l generalizing ys with
  | nil =>
    cases h
    exact .nil
  | cons x l ih =>
    rw [List.mapM_cons] at h
    obtain ⟨y, hy, h⟩ := bind_eq_ok.mp h
    obtain ⟨zs, hzs, h⟩ := bind_eq_ok.mp h
    cases h
    exact .cons hy (ih hzs)

theorem ok_of_forM {l : List α} (h : (l.forM fun x => do let _ ← f x) = .ok ()) : ∀ x ∈ l, ∃ y, f x = .ok y := by
  induction l with
  | nil => simp
  | cons x l ih =>
    rw [List.forM_eq_forM, List.forM_cons] at h
    obtain ⟨⟨⟩, hx, h⟩ := bind_eq_ok.mp h
    obtain ⟨y, hy, -⟩ := bind_eq_ok.mp hx
    intro z hz
    rcases List.mem_cons.mp hz with rfl | hz
    · exact ⟨y, hy⟩
    · exact ih h z hz

end Outcome

theorem Value.toTensors_map (ts : List Tensor) : Value.toTensors (ts.map .tensor) = .ok ts :=
  Outcome.mapM_map_ok (f := toTensor) (fun _ => rfl) ts

namespace Queue

/-- What is done with a queue. -/
inductive Event where
  | enqueue (components : List Value)
  | dequeue (num dtypes : Value)

/-- A queue in use. -/
structure Life where
  session : Session
  queue : Queue
  /-- The tuples that were let in, the latest last. -/
  entered : List (List Tensor)
  /-- The number of tuples that were taken off. -/
  taken : Nat
  /-- What was given out, one tensor for each column, the latest last. -/
  answers : List (List Tensor)

namespace Life

def start (s : Session) (q : Queue) : Life := ⟨s, q, [], 0, []⟩

/-- After one more event, which may fail. -/
def after (l : Life) : Event → Life
  | .enqueue xs =>
    let (o, q) := enqueue xs l.queue
    { l with queue := q, entered := l.entered ++ (do o; Value.toTensors xs).toOption.toList }
  | .dequeue num dtypes =>
    let (o, s, q) := dequeueUpTo num dtypes (l.session, l.queue)
    ⟨s, q, l.entered, l.taken + (l.queue.size - q.size), l.answers ++ o.toOption.toList⟩

/-- After events one after another. -/
def of (s : Session) (q : Queue) (es : List Event) : Life := es.foldl after (start s q)

theorem of_append (s : Session) (q : Queue) (es fs : List Event) : of s q (es ++ fs) = fs.foldl after (of s q es) :=
  List.foldl_append

theorem of_concat (s : Session) (q : Queue) (es : List Event) (e : Event) : of s q (es ++ [e]) = (of s q es).after e :=
  of_append s q es [e]

/-- The rows of what was given out for a column. -/
def given (l : Life) (k : Nat) : List Tensor := l.answers.flatMap fun ys => (ys[k]?.map Tensor.slices).getD []

end Life

/-- The components of tuples in one column. -/
def componentsAt (tuples : List (List Tensor)) (k : Nat) : List Tensor := tuples.filterMap (·[k]?)

theorem componentsAt_cons {t : List Tensor} {x : Tensor} {k : Nat} (hx : t[k]? = some x)
    (tuples : List (List Tensor)) : componentsAt (t :: tuples) k = x :: componentsAt tuples k :=
  List.filterMap_cons_some hx

theorem componentsAt_append (tuples others : List (List Tensor)) (k : Nat) :
    componentsAt (tuples ++ others) k = componentsAt tuples k ++ componentsAt others k := List.filterMap_append

/-! ### Queues as they are made -/

variable {s : Session} {q : Queue}

/-- A queue without tuples, with a registered element type and a shape for each column. -/
structure Fresh (s : Session) (q : Queue) : Prop where
  tuples : q.tuples = []
  shapes : q.shapes.length = q.dtypes.length
  dtypes : ∀ d ∈ q.dtypes, ∃ i, s.dtypeInfo d = .ok i

theorem fresh_of_make {spec : Spec} (h : make s spec = .ok q) : Fresh s q := by
  rw [make] at h
  obtain ⟨ds, -, h⟩ := Outcome.bind_eq_ok.mp h
  obtain ⟨⟨⟩, hds, h⟩ := Outcome.bind_eq_ok.mp h
  obtain ⟨given, -, h⟩ := Outcome.bind_eq_ok.mp h
  by_cases hlength : given.length ≠ ds.length
  · rw [if_pos hlength] at h
    cases h
  rw [if_neg hlength] at h
  obtain ⟨shapes, hshapes, h⟩ := Outcome.bind_eq_ok.mp h
  cases h
  refine ⟨rfl, ?_, Outcome.ok_of_forM hds⟩
  rw [← (Outcome.forall₂_of_mapM hshapes).length_eq]
  exact Decidable.not_not.mp hlength

theorem id_of_make {spec : Spec} (h : make s spec = .ok q) : q.id = none := by
  rw [make] at h
  obtain ⟨ds, -, h⟩ := Outcome.bind_eq_ok.mp h
  obtain ⟨⟨⟩, -, h⟩ := Outcome.bind_eq_ok.mp h
  obtain ⟨given, -, h⟩ := Outcome.bind_eq_ok.mp h
  split at h
  · cases h
  · obtain ⟨shapes, -, h⟩ := Outcome.bind_eq_ok.mp h
    cases h
    rfl

theorem fresh_of_arguments {byPosition : List Value} {byName : List (String × Value)}
    (h : ofArguments s byPosition byName = .ok q) : Fresh s q := by
  rw [ofArguments] at h
  obtain ⟨args, -, h⟩ := Outcome.bind_eq_ok.mp h
  split at h
  · exact fresh_of_make h
  · cases h

/-! ### Tuples that are let in -/

/-- A component that a column lets in. -/
structure LetsIn (c : Value × PartialShape Nat) (x : Tensor) : Prop where
  dtype : ∃ what, checkDType c.1 (.text x.dtype.name) what = .ok ()
  shape : c.2.admits x.shape = true

theorem eq_map_of_toTensors {xs : List Value} {ts : List Tensor} (h : Value.toTensors xs = .ok ts) :
    xs = ts.map .tensor := by
  have hall : List.Forall₂ (fun x t => Value.toTensor x = .ok t) xs ts := Outcome.forall₂_of_mapM h
  clear h
  induction hall with
  | nil => rfl
  | @cons x t xs ts hx _ ih =>
    obtain rfl := Value.eq_tensor hx
    rw [List.map_cons, ← ih]

theorem checkComponents_ok {k : Nat} {cs : List (Value × Value × PartialShape Nat)}
    (h : q.checkComponents k cs = .ok ()) {x : Tensor} {c : Value × PartialShape Nat} (hx : (.tensor x, c) ∈ cs) :
    LetsIn c x := by
  induction cs generalizing k with
  | nil => cases hx
  | cons c' cs ih =>
    obtain ⟨v, dtype, shape⟩ := c'
    rw [checkComponents] at h
    obtain ⟨s, hs, h⟩ := Outcome.bind_eq_ok.mp h
    obtain ⟨⟨⟩, hshape, h⟩ := Outcome.bind_eq_ok.mp h
    rcases List.mem_cons.mp hx with heq | hx
    · cases heq
      obtain ⟨hdtype, rfl⟩ := of_checkElementType hs
      refine ⟨⟨_, hdtype⟩, ?_⟩
      by_contra hadmits
      rw [checkShape, if_neg hadmits] at hshape
      cases hshape
    · exact ih h hx

theorem admitted_ok {xs : List Value} {ts : List Tensor} (h : q.admitted xs = .ok ts) :
    xs = ts.map .tensor ∧ ts.length = q.dtypes.length ∧ ∀ p ∈ ts.zip q.columns, LetsIn p.2 p.1 := by
  unfold admitted at h
  by_cases hlength : xs.length ≠ q.dtypes.length
  · rw [if_pos hlength] at h
    cases h
  rw [if_neg hlength] at h
  obtain ⟨bounded, -, h⟩ := Outcome.bind_eq_ok.mp h
  have hrest : (do q.checkComponents 0 (xs.zip q.columns); Value.toTensors xs) = .ok ts := by
    cases bounded with
    | false => exact h
    | true =>
      obtain ⟨full, -, h⟩ := Outcome.bind_eq_ok.mp h
      cases full with
      | false => exact h
      | true => cases h
  obtain ⟨⟨⟩, hcomponents, htensors⟩ := Outcome.bind_eq_ok.mp hrest
  obtain rfl := eq_map_of_toTensors htensors
  refine ⟨rfl, ?_, fun p hp => checkComponents_ok hcomponents ?_⟩
  · rw [← Decidable.not_not.mp hlength, List.length_map]
  · rw [List.zip_map_left]
    exact List.mem_map_of_mem hp

theorem letsIn_of_admitted {xs : List Value} {ts : List Tensor} (h : q.admitted xs = .ok ts)
    (hshapes : q.shapes.length = q.dtypes.length) {k : Nat} {d : Value} {x : Tensor} (hd : q.dtypes[k]? = some d)
    (hx : ts[k]? = some x) : ∃ shape, LetsIn (d, shape) x := by
  obtain ⟨-, -, hletsIn⟩ := admitted_ok h
  have hk : k < q.shapes.length := hshapes ▸ (List.getElem?_eq_some_iff.mp hd).1
  have hcolumn : q.columns[k]? = some (d, q.shapes[k]) :=
    List.getElem?_zip_eq_some.mpr ⟨hd, List.getElem?_eq_getElem hk⟩
  have hpair : (x, d, q.shapes[k]) ∈ ts.zip q.columns :=
    List.mem_of_getElem? (List.getElem?_zip_eq_some.mpr ⟨hx, hcolumn⟩)
  exact ⟨q.shapes[k], hletsIn _ hpair⟩

/-! ### Events -/

namespace Life

theorem after_enqueue (l : Life) (xs : List Value) :
    l.after (.enqueue xs) = match l.queue.admitted xs with
      | .ok ts => { l with queue := l.queue.push ts, entered := l.entered ++ [ts] }
      | .error _ => l := by
  rw [after, enqueue_eq]
  cases hadmitted : l.queue.admitted xs with
  | ok ts =>
    obtain ⟨rfl, -, -⟩ := admitted_ok hadmitted
    have htensors : Value.toTensors (ts.map .tensor) = .ok ts := Value.toTensors_map ts
    simp only [Outcome.ok_bind, htensors]
    rfl
  | error e =>
    show ({ l with entered := l.entered ++ [] } : Life) = l
    rw [List.append_nil]

/-- An event lets a tuple in, or takes some off the front, or both fail. -/
theorem queue_after (l : Life) (e : Event) :
    (∃ xs ts, e = .enqueue xs ∧ l.queue.admitted xs = .ok ts ∧ (l.after e).queue = l.queue.push ts) ∨
      ∃ n, (l.after e).queue = l.queue.drop n := by
  cases e with
  | enqueue xs =>
    rw [after_enqueue]
    cases hadmitted : l.queue.admitted xs with
    | ok ts => exact Or.inl ⟨xs, ts, rfl, hadmitted, rfl⟩
    | error e => exact Or.inr ⟨0, rfl⟩
  | dequeue num dtypes =>
    refine Or.inr ?_
    show ∃ n, (dequeueUpTo num dtypes (l.session, l.queue)).2.2 = l.queue.drop n
    rw [dequeueUpTo_queue]
    cases l.queue.due num dtypes with
    | error e => exact ⟨0, rfl⟩
    | ok n => exact ⟨n, rfl⟩

theorem dtypes_after (l : Life) (e : Event) : (l.after e).queue.dtypes = l.queue.dtypes := by
  rcases l.queue_after e with ⟨xs, ts, -, -, h⟩ | ⟨n, h⟩ <;> rw [h] <;> rfl

theorem shapes_after (l : Life) (e : Event) : (l.after e).queue.shapes = l.queue.shapes := by
  rcases l.queue_after e with ⟨xs, ts, -, -, h⟩ | ⟨n, h⟩ <;> rw [h] <;> rfl

theorem dtypes_of (s : Session) (q : Queue) (es : List Event) : (of s q es).queue.dtypes = q.dtypes := by
  induction es using List.reverseRecOn with
  | nil => rfl
  | append_singleton es e ih => rw [of_concat, dtypes_after, ih]

theorem shapes_of (s : Session) (q : Queue) (es : List Event) : (of s q es).queue.shapes = q.shapes := by
  induction es using List.reverseRecOn with
  | nil => rfl
  | append_singleton es e ih => rw [of_concat, shapes_after, ih]

theorem length_of_mem_tuples (hq : q.tuples = []) (s : Session) (es : List Event) {t : List Tensor}
    (ht : t ∈ (of s q es).queue.tuples) : t.length = q.dtypes.length := by
  induction es using List.reverseRecOn with
  | nil =>
    rw [show (of s q []).queue.tuples = q.tuples from rfl, hq] at ht
    cases ht
  | append_singleton es e ih =>
    rw [of_concat] at ht
    rcases (of s q es).queue_after e with ⟨xs, ts, -, hts, h⟩ | ⟨n, h⟩
    · rw [h] at ht
      rcases List.mem_append.mp ht with ht | ht
      · exact ih ht
      · rw [List.mem_singleton.mp ht, (admitted_ok hts).2.1, dtypes_of]
    · rw [h] at ht
      exact ih (List.mem_of_mem_drop ht)

end Life

end Queue

end Dataflow
