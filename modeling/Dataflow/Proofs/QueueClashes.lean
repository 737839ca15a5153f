import Dataflow.Proofs.Clashes

/-! Dequeues that ask for what cannot be made, and with them all failures of tensor arrays and queues that are no
    refusals. A column that is left open lets components of different shapes in, and a dequeue compares nothing before it
    stacks them. -/

namespace Dataflow

open Outcome (Escapes not_escapes_ok not_escapes_refused not_escapes_bind not_escapes_refuse_if escapes_after escapes_map)

theorem Action.fst_mapM {σ α β : Type} {f : α → Action σ β} {g : α → Outcome β} {I : σ → Prop} {l : List α}
    (h : ∀ x ∈ l, ∀ s, I s → (f x s).1 = g x ∧ I (f x s).2) {s : σ} (hs : I s) : (l.mapM f s).1 = l.mapM g := by
  induction l generalizing s with
  | nil => rfl
  | cons x l ih =>
    obtain ⟨hx, ht⟩ := h x List.mem_cons_self s hs
    have hfx : f x s = (g x, (f x s).2) := Prod.ext hx rfl
    rw [List.mapM_cons, List.mapM_cons]
    cases hg : g x with
    | error e =>
      rw [hg] at hfx
      rw [bind_error hfx]
      rfl
    | ok y =>
      rw [hg] at hfx
      rw [bind_ok hfx, fst_bind_pure, ih (fun z hz => h z (List.mem_cons_of_mem _ hz)) ht]
      rfl

namespace Queue

variable {q : Queue} {s : Session}

/-! ### Putting tuples in -/

/-- A queue as it can be made: its element types are of the standard ones, and its capacity is a number. -/
structure Plain (q : Queue) : Prop where
  dtypes : ∀ d ∈ q.dtypes, ∃ e ∈ DType.standard, d = .text e.name
  capacity : ∃ n, q.capacity = .int n

theorem Plain.column (h : Plain q) {c : Value × PartialShape Nat} (hc : c ∈ q.columns) :
    ∃ d ∈ DType.standard, c.1 = .text d.name := h.dtypes c.1 (List.of_mem_zip hc).1

theorem not_escapes_checkComponents (q : Queue) {cols : List (Value × PartialShape Nat)}
    (hcols : ∀ c ∈ cols, ∃ d ∈ DType.standard, c.1 = .text d.name) (k : Nat) (xs : List Tensor) :
    ¬(q.checkComponents k ((xs.map .tensor).zip cols)).Escapes := by
  induction xs generalizing k cols with
  | nil => exact not_escapes_ok ()
  | cons x xs ih =>
    cases cols with
    | nil => exact not_escapes_ok ()
    | cons col cols =>
      obtain ⟨⟨d, -, hd⟩, hcols⟩ := List.forall_mem_cons.mp hcols
      rw [List.map_cons, List.zip_cons_cons, checkComponents, hd]
      exact not_escapes_bind (not_escapes_checkElementType d.name _ x) fun _ _ =>
        not_escapes_bind (not_escapes_checkShape _ _ _) fun _ _ => ih hcols (k + 1)

theorem not_escapes_enqueue (h : Plain q) (xs : List Tensor) : ¬Escapes (enqueue (xs.map .tensor) q).1 := by
  obtain ⟨n, hn⟩ := h.capacity
  have hadmitted : ¬(q.admitted (xs.map .tensor)).Escapes := by
    have hrest : ¬(do
        q.checkComponents 0 ((xs.map .tensor).zip q.columns)
        Value.toTensors (xs.map .tensor) : Outcome (List Tensor)).Escapes := by
      refine not_escapes_bind (not_escapes_checkComponents q (fun _ => h.column) 0 xs) fun _ _ => ?_
      rw [Value.toTensors_map]
      exact not_escapes_ok xs
    unfold admitted
    refine not_escapes_refuse_if fun _ => ?_
    rw [bounded, hn, Value.less_int, Outcome.ok_bind]
    split
    · rw [Value.atLeast_int, Outcome.ok_bind]
      exact not_escapes_refuse_if fun _ => hrest
    · exact hrest
  have henqueue : (enqueue (xs.map .tensor) q).1 = (fun _ => ()) <$> q.admitted (xs.map .tensor) := by
    rw [enqueue_eq]
    cases q.admitted (xs.map .tensor) <;> rfl
  rwa [henqueue, escapes_map]

/-! ### Taking tuples out -/

/-- Element types that are asked for, or nothing. -/
def asking (asked : Option (Sequence String)) : Value := (asked.map (·.toValue .text)).getD .nothing

theorem not_escapes_checkAsked (q : Queue) (names : List String) {ds : List Value}
    (hds : ∀ d ∈ ds, ∃ e ∈ DType.standard, d = .text e.name) (k : Nat) :
    ¬(q.checkAsked k ((names.map Value.text).zip ds)).Escapes := by
  induction names generalizing k ds with
  | nil => exact not_escapes_ok ()
  | cons name names ih =>
    cases ds with
    | nil => exact not_escapes_ok ()
    | cons d ds =>
      obtain ⟨⟨e, -, rfl⟩, hrest⟩ := List.forall_mem_cons.mp hds
      rw [List.map_cons, List.zip_cons_cons, checkAsked]
      exact not_escapes_bind (not_escapes_checkDType (some name) e.name _) fun _ _ => ih hrest (k + 1)

theorem not_escapes_due (h : Plain q) (n : Int) (asked : Option (Sequence String)) :
    ¬(q.due (.int n) (asking asked)).Escapes := by
  have hasked : ¬(q.checkDTypes (asking asked)).Escapes := by
    cases asked with
    | none => exact not_escapes_ok ()
    | some names =>
      show ¬(q.checkDTypes (names.toValue .text)).Escapes
      rw [checkDTypes_of_items (Sequence.items_toValue _ _)]
      split
      · exact not_escapes_ok ()
      split
      · exact not_escapes_refused _
      · exact not_escapes_checkAsked q names.members h.dtypes 0
  rw [due, Value.isNegative_int, Outcome.ok_bind]
  refine not_escapes_refuse_if fun hneg => not_escapes_bind hasked fun _ _ => ?_
  obtain ⟨k, rfl⟩ := Int.eq_ofNat_of_zero_le (by simpa using hneg : 0 ≤ n)
  rw [takenFor_natCast]
  exact not_escapes_ok _

/-- No array of the host is the empty tensor of a column. -/
def VastColumn (c : Value × PartialShape Nat) : Prop :=
  ∃ d ∈ DType.standard, c.1 = .text d.name ∧ Shape.Excessive (0 :: c.2.collapse 0) d.size

/-- A dequeue that is to make the tensors of the columns where one cannot be made: the components that are taken clash as
    they are stacked, or nothing is taken and no array is the empty tensor. -/
def Clashes (q : Queue) (n : Int) (asked : Option (Sequence String)) : Prop :=
  ∃ k, q.due (.int n) (asking asked) = .ok k ∧
    (q.tuples.take k = [] ∧ (∃ c ∈ q.columns, VastColumn c) ∨
      ∃ j < q.dtypes.length, Tensor.ClashStacked (componentsAt (q.tuples.take k) j))

/-- All tuples have a component for each column, and these are tensors of the host of the element type of the column. -/
def HostTuples (q : Queue) : Prop := ∀ t ∈ q.tuples, t.length = q.dtypes.length ∧
  ∀ (j : Nat) (x : Tensor), t[j]? = some x → x.device = .host ∧ q.dtypes[j]? = some (.text x.dtype.name)

theorem collected_nil_escapes_iff (hs : s.Default) (h : Plain q) :
    Escapes (q.collected [] s).1 ↔ ∃ c ∈ q.columns, VastColumn c := by
  let emptyFor (c : Value × PartialShape Nat) : Outcome Tensor := Host.empty (Shape.toValue (0 :: c.2.collapse 0)) c.1
  have hcollected : (q.collected [] s).1 = q.columns.mapM emptyFor := by
    rw [collected, if_pos List.isEmpty_nil]
    refine Action.fst_mapM (I := Session.Default) (fun c hc t ht => ?_) hs
    obtain ⟨d, hd, hcd⟩ := h.column hc
    show (Session.empty _ c.1 Session.auto t).1 = Host.empty _ c.1 ∧ (Session.empty _ c.1 Session.auto t).2.Default
    rw [hcd, ht.empty_eq hd]
    exact ⟨rfl, ht.settled .device⟩
  have hempty : ∀ c ∈ q.columns, (emptyFor c).Unrefused ∧ ((emptyFor c).Escapes ↔ VastColumn c) := by
    intro c hc
    obtain ⟨d, hd, hcd⟩ := h.column hc
    have heq : emptyFor c = Host.empty (Shape.toValue (0 :: c.2.collapse 0)) (.text d.name) := by
      rw [← hcd]
    rw [heq, Host.empty_escapes_iff hd, VastColumn, DType.exists_standard_iff hd hcd]
    exact ⟨Host.unrefused_empty hd, Iff.rfl⟩
  rw [hcollected, Outcome.escapes_mapM fun c hc => (hempty c hc).1]
  exact exists_congr fun c => and_congr_right fun hc => (hempty c hc).2

theorem HostTuples.components (htuples : HostTuples q) (h : Plain q) (k : Nat) {j : Nat} (hj : j < q.dtypes.length) :
    ∃ d, ∀ x ∈ componentsAt (q.tuples.take k) j, x.HostOf d := by
  obtain ⟨d, hd, hdj⟩ := h.dtypes q.dtypes[j] (List.getElem_mem hj)
  refine ⟨d, fun x hx => ?_⟩
  obtain ⟨t, ht, hget⟩ := List.mem_filterMap.mp hx
  obtain ⟨hhost, hdtype⟩ := (htuples t (List.mem_of_mem_take ht)).2 j x hget
  rw [List.getElem?_eq_getElem hj, hdj] at hdtype
  exact ⟨hhost, (DType.eq_of_name hd (Value.text.inj (Option.some.inj hdtype))).symm⟩

theorem collected_escapes_iff (h : Plain q) (htuples : HostTuples q) {k : Nat} (hne : q.tuples.take k ≠ []) :
    Escapes (q.collected (q.tuples.take k) s).1 ↔
      ∃ j < q.dtypes.length, Tensor.ClashStacked (componentsAt (q.tuples.take k) j) := by
  have hcolumn : ∀ j ∈ List.range q.dtypes.length, (column (q.tuples.take k) j).Unrefused ∧
      ((column (q.tuples.take k) j).Escapes ↔ Tensor.ClashStacked (componentsAt (q.tuples.take k) j)) := by
    intro j hj
    have hj := List.mem_range.mp hj
    obtain ⟨d, hcomponents⟩ := htuples.components h k hj
    have hnonempty : componentsAt (q.tuples.take k) j ≠ [] :=
      componentsAt_ne_nil hne fun t ht => (htuples t (List.mem_of_mem_take ht)).1 ▸ hj
    have hhost : ∀ x ∈ componentsAt (q.tuples.take k) j, x.device = .host := fun x hx => (hcomponents x hx).1
    have hstack : column (q.tuples.take k) j = Tensor.stack (componentsAt (q.tuples.take k) j) (.int 0) := rfl
    rw [hstack, ← Tensor.unstackable_iff hcomponents, Tensor.stack_escapes_iff hnonempty hhost]
    exact ⟨Tensor.unrefused_stack hnonempty hhost, Iff.rfl⟩
  have hempty : ¬(q.tuples.take k).isEmpty = true := mt List.isEmpty_iff.mp hne
  rw [collected, if_neg hempty, Action.lift_apply, Outcome.escapes_mapM fun j hj => (hcolumn j hj).1]
  refine exists_congr fun j => ?_
  rw [List.mem_range]
  exact and_congr_right fun hj => (hcolumn j (List.mem_range.mpr hj)).2

/-- A dequeue is refused or does what it is to do, unless it clashes. -/
theorem dequeueUpTo_escapes_iff (hs : s.Default) (h : Plain q) (htuples : HostTuples q) (n : Int)
    (asked : Option (Sequence String)) :
    Escapes (dequeueUpTo (.int n) (asking asked) (s, q)).1 ↔ q.Clashes n asked := by
  have hfst : (dequeueUpTo (.int n) (asking asked) (s, q)).1 =
      q.due (.int n) (asking asked) >>= fun k => (q.collected (q.tuples.take k) s).1 := by
    rw [dequeueUpTo_eq]
    cases q.due (.int n) (asking asked) with
    | error e => rfl
    | ok k =>
      dsimp only
      rw [hs.record]
      rfl
  rw [hfst, escapes_after (not_escapes_due h n asked), Clashes]
  refine exists_congr fun k => and_congr_right fun _ => ?_
  by_cases hnil : q.tuples.take k = []
  · rw [hnil, and_iff_right rfl, collected_nil_escapes_iff hs h, or_iff_left]
    rintro ⟨j, -, hclash⟩
    exact Tensor.not_clashStacked_nil hclash
  · rw [or_iff_right fun hboth => hnil hboth.1]
    exact collected_escapes_iff h htuples hnil

/-! ### Queues in use -/

/-- An event with tensors of the host. -/
def Event.OnHost : Event → Prop
  | .enqueue xs => ∀ x, .tensor x ∈ xs → x.device = .host
  | .dequeue _ _ => True

/-- A component that is let in has the element type of its column. -/
theorem dtype_of_admitted (h : Plain q) (hshapes : q.shapes.length = q.dtypes.length) {xs : List Value}
    {ts : List Tensor} (hts : q.admitted xs = .ok ts) {j : Nat} {x : Tensor} (hx : ts[j]? = some x) :
    q.dtypes[j]? = some (.text x.dtype.name) := by
  obtain ⟨-, hlength, -⟩ := admitted_ok hts
  have hj : j < q.dtypes.length := hlength ▸ (List.getElem?_eq_some_iff.mp hx).1
  have hdtype : q.dtypes[j]? = some q.dtypes[j] := List.getElem?_eq_getElem hj
  obtain ⟨shape, hin⟩ := letsIn_of_admitted hts hshapes hdtype hx
  obtain ⟨what, hcheck⟩ := hin.dtype
  obtain ⟨d, -, hd⟩ := h.dtypes q.dtypes[j] (List.getElem_mem hj)
  rw [hd] at hcheck
  rw [hdtype, hd]
  exact congrArg some (name_of_checkDType nofun hcheck)

namespace Life

variable {es : List Event}

theorem plain_of (h : Plain q) (s : Session) (es : List Event) : Plain (of s q es).queue := by
  refine ⟨dtypes_of s q es ▸ h.dtypes, ?_⟩
  obtain ⟨n, hn⟩ := h.capacity
  refine ⟨n, ?_⟩
  induction es using List.reverseRecOn with
  | nil => exact hn
  | append_singleton es e ih =>
    rw [of_concat]
    rcases (of s q es).queue_after e with ⟨xs, ts, -, -, hafter⟩ | ⟨k, hafter⟩ <;> rw [hafter] <;> exact ih

theorem hostTuples_of (hfresh : Fresh s q) (h : Plain q) (hes : ∀ e ∈ es, e.OnHost) : HostTuples (of s q es).queue := by
  induction es using List.reverseRecOn with
  | nil =>
    intro t ht
    rw [show (of s q []).queue.tuples = q.tuples from rfl, hfresh.tuples] at ht
    cases ht
  | append_singleton es e ih =>
    have hbefore := ih fun e he => hes e (List.mem_append_left _ he)
    have hplain := plain_of h s es
    rw [of_concat]
    rcases (of s q es).queue_after e with ⟨xs, ts, rfl, hts, hafter⟩ | ⟨k, hafter⟩
    · rw [hafter]
      intro t ht
      rcases List.mem_append.mp ht with ht | ht
      · exact hbefore t ht
      obtain rfl := List.mem_singleton.mp ht
      obtain ⟨rfl, hlength, -⟩ := admitted_ok hts
      refine ⟨hlength, fun j x hx => ⟨?_, ?_⟩⟩
      · exact hes (.enqueue (t.map .tensor)) (by simp) x (List.mem_map_of_mem (List.mem_of_getElem? hx))
      · refine dtype_of_admitted hplain ?_ hts hx
        rw [shapes_of, dtypes_of, hfresh.shapes]
    · rw [hafter]
      exact fun t ht => hbefore t (List.mem_of_mem_drop ht)

theorem default_of (hs : s.Default) (q : Queue) (es : List Event) : (of s q es).session.Default := by
  induction es using List.reverseRecOn with
  | nil => exact hs
  | append_singleton es e ih =>
    rw [of_concat]
    cases e with
    | enqueue xs => exact ih
    | dequeue num dtypes =>
      exact ih.of_alike ((confined_dequeueUpTo num dtypes).keeps ((of s q es).session, (of s q es).queue)).1

end Life

end Queue

/-! ### Arrays and queues in use -/

/-- Under the settings that are there by default, whatever has been done with an array or a queue and tensors of the host:
    the next call, enqueue or dequeue is refused in the name of the library or succeeds, unless it clashes. It never fails
    for an element type, nor for a shape before several tensors are to become one. The integers that a refusal may show are
    such as can be written out. -/
theorem escapes_only_from_clashes {s : Session} (hs : s.Default) :
    (∀ (m : TensorArray.Making) (a : TensorArray) (cs : List TensorArray.Call) (c : TensorArray.Call),
      TensorArray.ofArguments s m.arguments [] = .ok a → (∀ b ∈ cs, b.OnHost) → c.OnHost →
      let l := TensorArray.Life.of s a cs
      (∀ n ∈ c.shown l.array, Spellable n) →
        (Escapes (c.perform (l.session, l.array)).1 ↔ c.Clashes l.array)) ∧
    ∀ (byPosition : List Value) (byName : List (String × Value)) (q : Queue) (capacity : Int) (es : List Queue.Event),
      Queue.ofArguments s byPosition byName = .ok q → q.capacity = .int capacity → (∀ e ∈ es, e.OnHost) →
      let l := Queue.Life.of s q es
      (∀ n ∈ l.queue.shapes.flatMap PartialShape.known, Spellable n) →
        (∀ xs : List Tensor, ¬Escapes (Queue.enqueue (xs.map .tensor) l.queue).1) ∧
        ∀ (n : Int) (asked : Option (Sequence String)), Spellable n →
          (Escapes (Queue.dequeueUpTo (.int n) (Queue.asking asked) (l.session, l.queue)).1 ↔
            l.queue.Clashes n asked) := by
  refine ⟨?_, ?_⟩
  · intro m a cs c hmake hcs hc l hspelled
    exact TensorArray.Life.escapes_iff hs hmake hcs hc hspelled
  · intro byPosition byName q capacity es hmake hcapacity hes l _
    have hfresh := Queue.fresh_of_arguments hmake
    have hplain : Queue.Plain q := by
      refine ⟨fun d hd => ?_, capacity, hcapacity⟩
      obtain ⟨i, hi⟩ := hfresh.dtypes d hd
      exact Session.exists_standard hs.dtypes hi
    have hnow : Queue.Plain l.queue := Queue.Life.plain_of hplain s es
    have htuples : Queue.HostTuples l.queue := Queue.Life.hostTuples_of hfresh hplain hes
    have hdefault : l.session.Default := Queue.Life.default_of hs q es
    exact ⟨Queue.not_escapes_enqueue hnow, fun n asked _ => Queue.dequeueUpTo_escapes_iff hdefault hnow htuples n asked⟩

/-- Rows of different lengths in an array and in a queue that leave the length open: a gather and a dequeue of both
    escape. -/
theorem escapes_only_from_clashes_two_lengths :
    let s := Session.initial [] false false
    let x : Tensor := ⟨.host, .float32, [1], [.real (.ofInt 1)], rfl⟩
    let y : Tensor := ⟨.host, .float32, [2], [.real (.ofInt 2), .real (.ofInt 3)], rfl⟩
    let m : TensorArray.Making := ⟨"a", "float32", 2, none, false, false, true⟩
    let a := TensorArray.Life.of s m.array [.write 0 x, .write 1 y]
    let c : TensorArray.Call := .gather ⟨false, [0, 1]⟩ none
    let args : List Value := [.list [.text "float32"], .list [.list [.nothing]]]
    let q : Queue := ⟨none, [.text "float32"], [some [none]], .int 0, .text "", .text "", []⟩
    let l := Queue.Life.of s q [.enqueue [.tensor x], .enqueue [.tensor y]]
    s.Default ∧ TensorArray.ofArguments s m.arguments [] = .ok m.array ∧ x.Storable ∧ y.Storable ∧
      (∀ n ∈ c.shown a.array, Spellable n) ∧ Escapes (c.perform (a.session, a.array)).1 ∧
      Queue.ofArguments s args [] = .ok q ∧ Spellable 2 ∧
      ¬Escapes (Queue.enqueue [.tensor y] l.queue).1 ∧
      Escapes (Queue.dequeueUpTo (.int 2) .nothing (l.session, l.queue)).1 := by
  intro s x y m a c args q l
  have hs : s.Default := Session.default_initial false
  have hmake : TensorArray.ofArguments s m.arguments [] = .ok m.array := rfl
  have hx : x.Storable := ⟨fun _ => by decide, fun _ => by decide, fun _ => by decide⟩
  have hy : y.Storable := ⟨fun _ => by decide, fun _ => by decide, fun _ => by decide⟩
  have hspellable : ∀ n : Int, n.natAbs < 10 → Spellable n := fun n hn =>
    Nat.lt_of_lt_of_le hn (Nat.le_self_pow (by decide) 10)
  have hshown : ∀ n ∈ c.shown a.array, Spellable n := by
    have hintegers : c.shown a.array = [0, 1] := by
      subst a c m y x s
      rfl
    intro n hn
    rw [hintegers] at hn
    rcases List.mem_pair.mp hn with rfl | rfl
    · exact hspellable 0 (by decide)
    · exact hspellable 1 (by decide)
  have hclash : Tensor.ClashStacked [x, y] := Or.inl ⟨x, by simp, y, by simp, by decide⟩
  obtain ⟨harray, hqueue⟩ := escapes_only_from_clashes hs
  have hwrites : ∀ b ∈ [TensorArray.Call.write 0 x, .write 1 y], b.OnHost := by
    intro b hb z hz
    rcases List.mem_pair.mp hb with rfl | rfl <;> obtain rfl := List.mem_singleton.mp hz
    · exact ⟨rfl, hx⟩
    · exact ⟨rfl, hy⟩
  have hopen : a.array.closed = false := by
    subst a c m y x s
    rfl
  have hread : (TensorArray.readEach [.int 0, .int 1] a.array).1 = .ok [x, y] := by
    subst a c m y x s
    rfl
  have hgather := (harray m m.array _ c hmake hwrites nofun hshown).mpr
    ⟨⟨hopen, nofun⟩, Or.inr ⟨[x, y], hread, hclash⟩⟩
  have hmakeQueue : Queue.ofArguments s args [] = .ok q := rfl
  have hevents : ∀ e ∈ [Queue.Event.enqueue [.tensor x], .enqueue [.tensor y]], e.OnHost := by
    intro e he
    rcases List.mem_pair.mp he with rfl | rfl <;> intro z hz
    all_goals rw [Value.tensor.inj (List.mem_singleton.mp hz)]
  have hdue : l.queue.due (.int 2) .nothing = .ok 2 := Queue.due_natCast rfl 2
  obtain ⟨henqueue, hdequeue⟩ := hqueue args [] q 0 _ hmakeQueue rfl hevents nofun
  refine ⟨hs, hmake, hx, hy, hshown, hgather, hmakeQueue, hspellable 2 (by decide), henqueue [y], ?_⟩
  exact (hdequeue 2 none (hspellable 2 (by decide))).mpr ⟨2, hdue, Or.inr ⟨0, Nat.one_pos, hclash⟩⟩

/-- The gather fails in the name of the arrays that it is made of, and not in the name of the library. -/
theorem gather_of_two_lengths_escapes :
    let s := Session.initial [] false false
    let x : Tensor := ⟨.host, .float32, [1], [.real (.ofInt 1)], rfl⟩
    let y : Tensor := ⟨.host, .float32, [2], [.real (.ofInt 2), .real (.ofInt 3)], rfl⟩
    let m : TensorArray.Making := ⟨"a", "float32", 2, none, false, false, true⟩
    let l := TensorArray.Life.of s m.array [.write 0 x, .write 1 y]
    TensorArray.ofArguments s m.arguments [] = .ok m.array ∧
      ((TensorArray.Call.gather ⟨false, [0, 1]⟩ none).perform (l.session, l.array)).1 = .error .badValue ∧
      ∀ cause, Failure.badValue ≠ .refused cause :=
  ⟨rfl, rfl, nofun⟩

end Dataflow
