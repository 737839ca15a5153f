import Dataflow.Proofs.QueueLives

/-! What a queue lets in, and therefore what it holds. The tuples of a queue conform to its columns and are no more than
    its capacity, if that is a bound at all; and a tuple is let in just when both still hold afterwards. -/

namespace Dataflow.Queue

/-- A tuple with one tensor for each column, of the element type and a shape of the column. -/
structure Conforms (q : Queue) (ts : List Tensor) : Prop where
  dtypes : List.Forall₂ (fun x d => d = .text x.dtype.name) ts q.dtypes
  shapes : List.Forall₂ (fun x p => PartialShape.admits p x.shape = true) ts q.shapes

theorem conforms_congr {q r : Queue} {ts : List Tensor} (hdtypes : r.dtypes = q.dtypes) (hshapes : r.shapes = q.shapes) :
    r.Conforms ts ↔ q.Conforms ts :=
  ⟨fun h => ⟨hdtypes ▸ h.dtypes, hshapes ▸ h.shapes⟩, fun h => ⟨hdtypes ▸ h.dtypes, hshapes ▸ h.shapes⟩⟩

/-- There is room for one more tuple. Only a positive capacity is a bound. -/
def HasPlace (n : Int) (q : Queue) : Prop := 0 < n → q.size < n

/-- A queue as it is declared: the element types are given by their names, the capacity is an integer, and every column
    has a shape. -/
structure Declared (n : Int) (q : Queue) : Prop where
  dtypes : ∀ d ∈ q.dtypes, ∃ name, d = .text name
  shapes : q.shapes.length = q.dtypes.length
  capacity : q.capacity = .int n

variable {s : Session} {q : Queue} {n : Int} {ts : List Tensor} {vs : List Value}

/-! ### The checks -/

theorem checkComponents_cons {x : Tensor} {name : String} {p : PartialShape Nat} (k : Nat)
    (rest : List (Value × Value × PartialShape Nat)) :
    q.checkComponents k ((.tensor x, .text name, p) :: rest) = .ok () ↔
      name = x.dtype.name ∧ p.admits x.shape = true ∧ q.checkComponents (k + 1) rest = .ok () := by
  rw [checkComponents, checkElementType_tensor, checkDType_text]
  by_cases hname : name = x.dtype.name
  · rw [if_pos hname, Outcome.ok_bind]
    by_cases hshape : p.admits x.shape = true
    · simp [checkShape, hname, hshape]
    · simp [checkShape, hshape]
  · rw [if_neg hname]
    simp [hname]

theorem checkComponents_ok_iff {ds : List Value} {ps : List (PartialShape Nat)} (k : Nat)
    (hds : ∀ d ∈ ds, ∃ name, d = .text name) (hlength : ts.length = ds.length) (hshapes : ps.length = ds.length) :
    q.checkComponents k ((ts.map .tensor).zip (ds.zip ps)) = .ok () ↔
      List.Forall₂ (fun x d => d = .text x.dtype.name) ts ds ∧
        List.Forall₂ (fun x p => PartialShape.admits p x.shape = true) ts ps := by
  induction ts generalizing k ds ps with
  | nil =>
    obtain rfl := List.eq_nil_of_length_eq_zero hlength.symm
    obtain rfl := List.eq_nil_of_length_eq_zero hshapes
    simp [checkComponents]
  | cons x ts ih =>
    obtain ⟨d, ds, rfl⟩ := List.exists_cons_of_length_eq_add_one hlength.symm
    obtain ⟨p, ps, rfl⟩ := List.exists_cons_of_length_eq_add_one hshapes
    obtain ⟨⟨name, rfl⟩, hrest⟩ := List.forall_mem_cons.mp hds
    have hts : ts.length = ds.length := by simpa using hlength
    have hps : ps.length = ds.length := by simpa using hshapes
    rw [List.map_cons, List.zip_cons_cons, List.zip_cons_cons, checkComponents_cons, ih (k + 1) hrest hts hps,
      List.forall₂_cons, List.forall₂_cons, Value.text.injEq]
    tauto

theorem admitted_eq (h : Declared n q) (vs : List Value) :
    q.admitted vs =
      if vs.length ≠ q.dtypes.length then .error (q.refusal (.componentCount q.dtypes.length vs.length))
      else if 0 < n ∧ n ≤ q.size then .error (q.refusal (.full q.capacity))
      else q.checkComponents 0 (vs.zip q.columns) >>= fun _ => Value.toTensors vs := by
  have hbounded : q.bounded = .ok (decide (0 < n)) := by rw [bounded, h.capacity, Value.less_int]
  have hfull : (Value.int q.size).atLeast q.capacity = .ok (decide (n ≤ q.size)) := by
    rw [h.capacity, Value.atLeast_int]
  rw [admitted, hbounded, hfull]
  by_cases hlength : vs.length ≠ q.dtypes.length
  · rw [if_pos hlength, if_pos hlength]
    rfl
  · rw [if_neg hlength, if_neg hlength]
    by_cases hpositive : 0 < n <;> by_cases hsize : n ≤ q.size <;> simp [hpositive, hsize]

theorem admitted_ok_iff (h : Declared n q) :
    q.admitted vs = .ok ts ↔ vs = ts.map .tensor ∧ q.Conforms ts ∧ q.HasPlace n := by
  have hcolumns (hlength : ts.length = q.dtypes.length) :
      q.checkComponents 0 ((ts.map .tensor).zip q.columns) = .ok () ↔ q.Conforms ts :=
    (checkComponents_ok_iff 0 h.dtypes hlength h.shapes).trans
      ⟨fun ⟨hdtypes, hshapes⟩ => ⟨hdtypes, hshapes⟩, fun hconforms => ⟨hconforms.dtypes, hconforms.shapes⟩⟩
  constructor
  · intro hadmitted
    obtain ⟨rfl, hlength, -⟩ := admitted_ok hadmitted
    rw [admitted_eq h, if_neg (by simpa using hlength)] at hadmitted
    split at hadmitted
    · cases hadmitted
    rename_i hplace
    obtain ⟨⟨⟩, hcomponents, -⟩ := Outcome.bind_eq_ok.mp hadmitted
    refine ⟨rfl, (hcolumns hlength).mp hcomponents, fun hpositive => ?_⟩
    omega
  · rintro ⟨rfl, hconforms, hplace⟩
    have hlength : ts.length = q.dtypes.length := hconforms.dtypes.length_eq
    have hnotFull : ¬(0 < n ∧ n ≤ q.size) := fun ⟨hpositive, hsize⟩ => Int.not_lt.mpr hsize (hplace hpositive)
    rw [admitted_eq h, if_neg (by simpa using hlength), if_neg hnotFull, (hcolumns hlength).mpr hconforms]
    exact Value.toTensors_map ts

/-! ### Why a tuple is kept out -/

theorem checkElementType_error {name what : String} {v : Value} {e : Failure}
    (h : checkElementType (.text name) v what = .error e) :
    e = .missingMember ∨ ∃ actual, e = .refused (.dtypeMismatch what (.text name) actual) := by
  obtain hv | ⟨⟨d, shape⟩, hv, h⟩ := Outcome.bind_eq_error.mp h
  · cases v <;> cases hv <;> exact Or.inl rfl
  have hmismatch : (checkDType (.text name) (.text d.name) what >>= fun _ => .ok shape) = .error e →
      e = .refused (.dtypeMismatch what (.text name) (.text d.name)) := by
    rw [checkDType_text]
    intro herror
    split at herror <;> cases herror
    rfl
  refine Or.inr ⟨.text d.name, hmismatch ?_⟩
  dsimp only at h
  split at h
  · split at h
    · cases h
    · exact h
  · exact h

theorem checkComponents_error {k : Nat} {cs : List (Value × Value × PartialShape Nat)} {e : Failure}
    (hcs : ∀ c ∈ cs, ∃ name, c.2.1 = .text name) (h : q.checkComponents k cs = .error e) :
    e = .missingMember ∨ (∃ what expected actual, e = .refused (.dtypeMismatch what expected actual)) ∨
      ∃ what expected actual, e = .refused (.shapeMismatch what expected actual) := by
  induction cs generalizing k with
  | nil => cases h
  | cons c cs ih =>
    obtain ⟨v, d, p⟩ := c
    obtain ⟨⟨name, rfl⟩, hrest⟩ := List.forall_mem_cons.mp hcs
    obtain hdtype | ⟨shape, -, h⟩ := Outcome.bind_eq_error.mp h
    · rcases checkElementType_error hdtype with rfl | ⟨actual, rfl⟩
      · exact Or.inl rfl
      · exact Or.inr (Or.inl ⟨_, _, _, rfl⟩)
    obtain hshape | ⟨⟨⟩, -, h⟩ := Outcome.bind_eq_error.mp h
    · rw [checkShape] at hshape
      split at hshape <;> cases hshape
      exact Or.inr (Or.inr ⟨_, _, _, rfl⟩)
    · exact ih hrest h

/-- A tuple is kept out as a full queue does it only if the capacity is reached. -/
theorem not_hasPlace_of_full (h : Declared n q) {name capacity : Value}
    (hfull : q.admitted vs = .error (.refused (.queue name (.full capacity)))) : ¬q.HasPlace n := by
  intro hplace
  rw [admitted_eq h] at hfull
  split at hfull
  · cases hfull
  split at hfull
  · rename_i hreached
    exact Int.not_lt.mpr hreached.2 (hplace hreached.1)
  obtain hcomponents | ⟨⟨⟩, -, htensors⟩ := Outcome.bind_eq_error.mp hfull
  · have htexts : ∀ c ∈ vs.zip q.columns, ∃ name, c.2.1 = .text name := fun c hc =>
      h.dtypes _ (List.of_mem_zip (List.of_mem_zip hc).2).1
    rcases checkComponents_error htexts hcomponents with h | ⟨_, _, _, h⟩ | ⟨_, _, _, h⟩ <;> cases h
  · obtain ⟨v, -, hv⟩ := Outcome.mapM_error htensors
    cases v <;> cases hv

/-! ### Lives -/

namespace Life

theorem capacity_after (l : Life) (e : Event) : (l.after e).queue.capacity = l.queue.capacity := by
  rcases l.queue_after e with ⟨xs, ts, -, -, h⟩ | ⟨n, h⟩ <;> rw [h] <;> rfl

theorem capacity_of (s : Session) (q : Queue) (es : List Event) : (of s q es).queue.capacity = q.capacity := by
  induction es using List.reverseRecOn with
  | nil => rfl
  | append_singleton es e ih => rw [of_concat, capacity_after, ih]

theorem declared_of (hq : Declared n q) (s : Session) (es : List Event) : Declared n (of s q es).queue where
  dtypes := dtypes_of s q es ▸ hq.dtypes
  shapes := by rw [dtypes_of, shapes_of, hq.shapes]
  capacity := (capacity_of s q es).trans hq.capacity

theorem conforms_of_iff (s : Session) (es : List Event) : (of s q es).queue.Conforms ts ↔ q.Conforms ts :=
  conforms_congr (dtypes_of s q es) (shapes_of s q es)

/-- Every tuple conforms to the columns, and the capacity is kept. -/
structure Kept (n : Int) (q : Queue) : Prop where
  conforms : ∀ ts ∈ q.tuples, q.Conforms ts
  size : 0 < n → q.size ≤ n

theorem Kept.push (h : Kept n q) (hconforms : q.Conforms ts) (hplace : q.HasPlace n) : Kept n (q.push ts) where
  conforms us hus := by
    rw [conforms_congr (r := q.push ts) (q := q) rfl rfl]
    rcases List.mem_append.mp hus with hus | hus
    · exact h.conforms us hus
    · exact List.mem_singleton.mp hus ▸ hconforms
  size hpositive := by
    have hsize : (q.push ts).size = q.size + 1 := by simp [Queue.push, Queue.size]
    rw [hsize]
    exact hplace hpositive

theorem Kept.drop (h : Kept n q) (k : Nat) : Kept n (q.drop k) where
  conforms us hus := (conforms_congr (r := q.drop k) (q := q) rfl rfl).mpr (h.conforms us (List.mem_of_mem_drop hus))
  size hpositive := by
    have hsize : (q.drop k).size ≤ q.size := by simp [Queue.drop, Queue.size]
    exact Int.le_trans (Int.ofNat_le.mpr hsize) (h.size hpositive)

theorem Kept.after {l : Life} (h : Kept n l.queue) (hl : Declared n l.queue) (e : Event) :
    Kept n (l.after e).queue := by
  rcases l.queue_after e with ⟨xs, ts, -, hts, hqueue⟩ | ⟨k, hqueue⟩
  · obtain ⟨-, hconforms, hplace⟩ := (admitted_ok_iff hl).mp hts
    exact hqueue ▸ h.push hconforms hplace
  · exact hqueue ▸ h.drop k

theorem kept_of (hq : Declared n q) (hempty : q.tuples = []) (s : Session) (es : List Event) :
    Kept n (of s q es).queue := by
  induction es using List.reverseRecOn with
  | nil =>
    have hsize : q.size = 0 := congrArg List.length hempty
    refine ⟨fun ts hts => ?_, fun hpositive => ?_⟩
    · rw [show (of s q []).queue.tuples = q.tuples from rfl, hempty] at hts
      cases hts
    · show (q.size : Int) ≤ n
      omega
  | append_singleton es e ih =>
    rw [of_concat]
    exact ih.after (declared_of hq s es) e

end Life

/-! ### Enqueues -/

theorem enqueue_ok_iff (h : Declared n q) :
    (enqueue vs q).1 = .ok () ↔ ∃ ts, vs = ts.map .tensor ∧ q.Conforms ts ∧ q.HasPlace n := by
  simp only [← admitted_ok_iff h, enqueue_eq]
  cases q.admitted vs <;> simp

theorem enqueue_tensors (h : (enqueue (ts.map .tensor) q).1 = .ok ()) :
    (enqueue (ts.map .tensor) q).2 = q.push ts := by
  rw [enqueue_eq] at h ⊢
  rcases hadmitted : q.admitted (ts.map .tensor) with e | us
  · rw [hadmitted] at h
    cases h
  · have hmap : ts.map Value.tensor = us.map Value.tensor := (admitted_ok hadmitted).1
    rw [(List.map_inj_right fun _ _ => Value.tensor.inj).mp hmap]

theorem enqueue_error {e : Failure} (h : (enqueue vs q).1 = .error e) :
    (enqueue vs q).2 = q ∧ q.admitted vs = .error e := by
  rw [enqueue_eq] at h ⊢
  rcases hadmitted : q.admitted vs with e' | us
  · rw [hadmitted] at h
    exact ⟨rfl, congrArg Except.error (Except.error.inj h)⟩
  · rw [hadmitted] at h
    cases h

/-- Whatever was done with a queue, its tuples conform to the columns that it was made with, and are no more than a
    positive capacity. Some values enter just when they are a tuple that conforms and there is room for it; then that
    tuple is the last one, and otherwise the queue stays as it was. A capacity that is not positive is never reached. -/
theorem holds_what_conforms {s₀ : Session} {byPosition : List Value} {byName : List (String × Value)}
    (hmake : ofArguments s₀ byPosition byName = .ok q) (hdtypes : ∀ d ∈ q.dtypes, ∃ name, d = .text name)
    (hcapacity : q.capacity = .int n) (s : Session) (es : List Event) :
    let now := (Life.of s q es).queue
    (∀ ts ∈ now.tuples, q.Conforms ts) ∧ (0 < n → now.size ≤ n) ∧
      (∀ vs, (enqueue vs now).1 = .ok () ↔ ∃ ts, vs = ts.map .tensor ∧ q.Conforms ts ∧ (0 < n → now.size < n)) ∧
      (∀ ts, (enqueue (ts.map .tensor) now).1 = .ok () →
        (enqueue (ts.map .tensor) now).2 = { now with tuples := now.tuples ++ [ts] }) ∧
      (∀ vs e, (enqueue vs now).1 = .error e → (enqueue vs now).2 = now) ∧
      (n ≤ 0 → ∀ vs name capacity, (enqueue vs now).1 ≠ .error (.refused (.queue name (.full capacity)))) := by
  intro now
  have hfresh := fresh_of_arguments hmake
  have hdeclared : Declared n q := ⟨hdtypes, hfresh.shapes, hcapacity⟩
  have hnow : Declared n now := Life.declared_of hdeclared s es
  have hkept : Life.Kept n now := Life.kept_of hdeclared hfresh.tuples s es
  refine ⟨fun ts hts => (Life.conforms_of_iff s es).mp (hkept.conforms ts hts), hkept.size, fun vs => ?_,
    fun ts => enqueue_tensors, fun vs e he => (enqueue_error he).1, fun hn vs name capacity he => ?_⟩
  · rw [enqueue_ok_iff hnow]
    simp only [now, Life.conforms_of_iff, HasPlace]
  · refine not_hasPlace_of_full hnow (enqueue_error he).2 fun hpositive => ?_
    omega

/-- A queue for a single vector of any length lets in the first one and has no room for the next. -/
theorem holds_what_conforms_one_vector :
    let s := Session.initial [] false false
    let args : List Value := [.list [.text "float32"], .list [.list [.nothing]], .int 1]
    let q : Queue := ⟨none, [.text "float32"], [some [none]], .int 1, .text "", .text "", []⟩
    let x : Tensor := ⟨.host, .float32, [2], [.real (.ofInt 1), .real (.ofInt 2)], rfl⟩
    let y : Tensor := ⟨.host, .float32, [1], [.real (.ofInt 3)], rfl⟩
    let now := (Life.of s q [.enqueue [.tensor x]]).queue
    ofArguments s args [] = .ok q ∧ (∀ d ∈ q.dtypes, ∃ name, d = .text name) ∧ q.capacity = .int 1 ∧
      (enqueue [.tensor x] q).1 = .ok () ∧ now.tuples = [[x]] ∧ q.Conforms [x] ∧ (now.size : Int) ≤ 1 ∧
      (enqueue [.tensor y] now).1 ≠ .ok () := by
  intro s args q x y now
  have hmake : ofArguments s args [] = .ok q := rfl
  have hdtypes : ∀ d ∈ q.dtypes, ∃ name, d = .text name := fun d hd => ⟨_, List.mem_singleton.mp hd⟩
  have htuples : now.tuples = [[x]] := rfl
  obtain ⟨hconforms, hsize, henqueue, -⟩ := holds_what_conforms hmake hdtypes rfl s [.enqueue [.tensor x]]
  obtain ⟨-, -, hfirst, -⟩ := holds_what_conforms hmake hdtypes rfl s []
  have hx : q.Conforms [x] := hconforms [x] (by rw [htuples]; exact List.mem_singleton_self _)
  refine ⟨hmake, hdtypes, rfl, (hfirst _).mpr ⟨[x], rfl, hx, fun _ => by decide⟩, htuples, hx, hsize (by decide),
    fun hok => ?_⟩
  obtain ⟨ts, -, -, hplace⟩ := (henqueue _).mp hok
  exact absurd (hplace (by decide)) (by decide)

end Dataflow.Queue
