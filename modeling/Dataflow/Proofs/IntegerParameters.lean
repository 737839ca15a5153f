import Dataflow.Proofs.Handles
import Dataflow.Proofs.IntegerReads
import Dataflow.Proofs.Replacing

/-! Operations that take integers. A visit that acts on a tensor array or a queue reads the number of the object and an
    integer or a list of integers, all of them before it does anything. -/

namespace Dataflow

/-- The operations on tensor arrays and queues that take an integer or a list of integers. -/
inductive IntegerOp where
  | write
  | read
  | gather
  | scatter
  | split
  | dequeueUpTo

namespace IntegerOp

def controlOp : IntegerOp → ControlOp
  | write => .tensorArrayWrite
  | read => .tensorArrayRead
  | gather => .tensorArrayGather
  | scatter => .tensorArrayScatter
  | split => .tensorArraySplit
  | dequeueUpTo => .queueDequeueUpTo

/-- The kind of object that an operation works on. -/
def kind : IntegerOp → ObjectKind
  | dequeueUpTo => .queue
  | _ => .array

/-- The integers that an operation takes beside the number of the object, and how it takes them. -/
def argument : IntegerOp → String × ParamType
  | write | read => ("index", .number)
  | gather | scatter => ("indices", .elements)
  | split => ("lengths", .elements)
  | dequeueUpTo => ("num", .number)

/-- The parameters that are read as integers, in their order. -/
def integers (op : IntegerOp) : List (String × ParamType) := [(op.kind.param, .number), op.argument]

/-- The parameters that an operation reads beside these, once it has them. -/
def remaining : IntegerOp → List String
  | write | scatter | split => ["tensor"]
  | gather => ["dtype"]
  | dequeueUpTo => ["dtypes"]
  | read => []

/-- What an operation does with an object and the integers, once it has read them. -/
def act (n : Node) (values : Values) (k : Nat) (v : Value) :
    IntegerOp → Action (Session × Context) (Option Outputs)
  | write => do
    let x ← Visit.reading Node.required n values "tensor"
    Context.onArray k (TensorArray.write v x).onSecond
    Visit.done
  | read => do
    return Visit.tensorOutputs [← Context.onArray k (TensorArray.read v).onSecond]
  | gather => do
    let dtype ← Visit.reading Node.param n values "dtype"
    return Visit.tensorOutputs [← Context.onArray k (TensorArray.gather v dtype)]
  | scatter => do
    let x ← Visit.reading Node.required n values "tensor"
    Context.onArray k (TensorArray.scatter v x).onSecond
    Visit.done
  | split => do
    let x ← Visit.reading Node.required n values "tensor"
    Context.onArray k (TensorArray.split v x).onSecond
    Visit.done
  | dequeueUpTo => do
    let dtypes ← Visit.reading Node.param n values "dtypes"
    return Visit.tensorOutputs (← Context.onQueue k (Queue.dequeueUpTo v dtypes))

variable {op : IntegerOp} {n : Node} {values others : Values} {s : Session} {c : Context}

theorem bind_reading {α : Type} (n : Node) (values : Values)
    (read : Node → Values → List String → String → Outcome α) (name : String) (wrap : α → Value)
    (f : Value → Action (Session × Context) (Option Outputs)) (s : Session) (c : Context) :
    (Visit.reading read n values name >>= fun x => f (wrap x)) (s, c) =
      match wrap <$> read n values c.ids name with
      | .ok v => f v (s, c)
      | .error e => (.error e, s, c) := by
  rw [Action.bind_apply, Visit.reading_apply]
  cases read n values c.ids name <;> rfl

theorem bind_arrayOf {α : Type} (n : Node) (values : Values)
    (read : Node → Values → List String → String → Outcome α) (name : String) (wrap : α → Value)
    (f : Nat → Value → Action (Session × Context) (Option Outputs)) (s : Session) (c : Context) :
    (Visit.arrayOf n values >>= fun k => Visit.reading read n values name >>= fun x => f k (wrap x)) (s, c) =
      match n.arrayAt values c with
      | .ok k => (match wrap <$> read n values c.ids name with
        | .ok v => f k v (s, c)
        | .error e => (.error e, s, c))
      | .error e => (.error e, s, c) := by
  rw [Action.bind_apply, Visit.arrayOf_apply]
  cases n.arrayAt values c with
  | error e => rfl
  | ok k => exact bind_reading n values read name wrap (f k) s c

/-- A visit reads the number of the object and then the integers, before it does anything. -/
theorem visit_eq (hop : n.controlOp? = some op.controlOp) (values : Values) (s : Session) (c : Context) :
    n.visit values (s, c) = match op.kind.numberAt n values c with
      | .ok k => (match n.integers values c.ids op.argument.1 op.argument.2 with
        | .ok v => op.act n values k v (s, c)
        | .error e => (.error e, s, c))
      | .error e => (.error e, s, c) := by
  rw [Node.visit_eq hop]
  cases op with
  | write => exact bind_arrayOf n values Node.intParam "index" .int (fun k v => write.act n values k v) s c
  | read => exact bind_arrayOf n values Node.intParam "index" .int (fun k v => read.act n values k v) s c
  | gather =>
    exact bind_arrayOf n values Node.intsParam "indices" Visit.positions (fun k v => gather.act n values k v) s c
  | scatter =>
    exact bind_arrayOf n values Node.intsParam "indices" Visit.positions (fun k v => scatter.act n values k v) s c
  | split =>
    exact bind_arrayOf n values Node.intsParam "lengths" Visit.positions (fun k v => split.act n values k v) s c
  | dequeueUpTo =>
    refine (Visit.queueOf_apply _ s c).trans ?_
    show (match n.queueAt values c with | .ok k => _ | .error e => _) =
      match n.queueAt values c with | .ok k => _ | .error e => _
    cases n.queueAt values c with
    | error e => rfl
    | ok k => exact bind_reading n values Node.intParam "num" .int (fun v => dequeueUpTo.act n values k v) s c

/-- What an operation does goes by the remaining parameters. -/
theorem act_congr (h : ∀ name ∈ op.remaining, n.param others c.ids name = n.param values c.ids name) (k : Nat)
    (v : Value) (s : Session) : op.act n others k v (s, c) = op.act n values k v (s, c) := by
  cases op with
  | read => rfl
  | write | scatter | split =>
    have htensor := Node.required_congr (h "tensor" (by simp [remaining]))
    simp only [act, Action.bind_apply, Visit.reading_apply, htensor]
  | gather =>
    have hdtype := h "dtype" (by simp [remaining])
    simp only [act, Action.bind_apply, Visit.reading_apply, hdtype]
  | dequeueUpTo =>
    have hdtypes := h "dtypes" (by simp [remaining])
    simp only [act, Action.bind_apply, Visit.reading_apply, hdtypes]

end IntegerOp

namespace ObjectKind

variable {kind : ObjectKind} {n : Node} {values : Values} {c : Context} {t : ParamType} {x : Tensor}

/-- The number of the object of a kind that a value stands for. -/
def number : ObjectKind → Context → Value → Outcome Nat
  | array => Context.arrayNumber
  | queue => Context.queueNumber

theorem numberAt_eq (kind : ObjectKind) (n : Node) (values : Values) (c : Context) :
    kind.numberAt n values c = n.integers values c.ids kind.param .number >>= kind.number c := by
  cases kind with
  | array =>
    show n.arrayAt values c = (.int <$> n.intParam values c.ids "tensorArrayId") >>= c.arrayNumber
    rw [Node.arrayAt]
    cases n.intParam values c.ids "tensorArrayId" <;> rfl
  | queue =>
    show n.queueAt values c = (.int <$> n.intParam values c.ids "fifoQueueId") >>= c.queueNumber
    rw [Node.queueAt]
    cases n.intParam values c.ids "fifoQueueId" <;> rfl

/-- An integer that no object has for its number is refused. -/
theorem not_escapes_number (kind : ObjectKind) (c : Context) (k : Int) : ¬(kind.number c (.int k)).Escapes := by
  have hkey : (Value.int k).isKey = true := rfl
  cases kind with
  | array =>
    rw [number, Context.arrayNumber, hkey]
    cases Context.numberBelow c.arrays.length (.int k) with
    | none => exact Outcome.not_escapes_refused _
    | some j => exact Outcome.not_escapes_ok j
  | queue =>
    rw [number, Context.queueNumber, hkey]
    cases Context.numberBelow c.queues.length (.int k) with
    | none => exact Outcome.not_escapes_refused _
    | some j => exact Outcome.not_escapes_ok j

theorem not_escapes_numberAt (h : n.Draws values c.ids kind.param t x) : ¬(kind.numberAt n values c).Escapes := by
  rw [numberAt_eq]
  refine Outcome.not_escapes_bind (h.not_escapes_integers .number) fun v hv => ?_
  obtain ⟨k, -, rfl⟩ := Outcome.exists_of_map hv
  exact kind.not_escapes_number c k

end ObjectKind

namespace IntegerOp

variable {op : IntegerOp} {n : Node} {values others : Values} {s : Session} {c : Context}

theorem type_of_mem {p : String × ParamType} (hp : p ∈ op.integers) : p.2 = .number ∨ p.2 = .elements := by
  rw [integers, List.mem_pair] at hp
  rcases hp with rfl | rfl
  · exact Or.inl rfl
  · cases op <;> first | exact Or.inl rfl | exact Or.inr rfl

/-- A visit goes by the integers that it reads and by the values of the remaining parameters. -/
theorem visit_congr (hop : n.controlOp? = some op.controlOp)
    (hints : ∀ p ∈ op.integers, n.integers others c.ids p.1 p.2 = n.integers values c.ids p.1 p.2)
    (hrest : ∀ name ∈ op.remaining, n.param others c.ids name = n.param values c.ids name) (s : Session) :
    n.visit others (s, c) = n.visit values (s, c) := by
  have hnumber := hints (op.kind.param, .number) (by simp [integers])
  have hargument := hints op.argument (by simp [integers])
  rw [visit_eq hop, visit_eq hop, ObjectKind.numberAt_eq, ObjectKind.numberAt_eq, hnumber, hargument]
  cases n.integers values c.ids op.kind.param .number >>= op.kind.number c with
  | error e => rfl
  | ok k =>
    cases n.integers values c.ids op.argument.1 op.argument.2 with
    | error e => rfl
    | ok v => exact act_congr hrest k v s

/-- A visit that does not get its integers is refused, and nothing has changed. -/
theorem visit_refused (hop : n.controlOp? = some op.controlOp)
    (hints : ∀ p ∈ op.integers, ∃ t x, n.Draws values c.ids p.1 t x) {p : String × ParamType} (hp : p ∈ op.integers)
    (hnone : ∀ v, n.integers values c.ids p.1 p.2 ≠ .ok v) (s : Session) :
    ∃ cause, n.visit values (s, c) = (.error (.refused cause), s, c) := by
  obtain ⟨t, x, hnumber⟩ := hints (op.kind.param, .number) (by simp [integers])
  obtain ⟨u, y, hargument⟩ := hints op.argument (by simp [integers])
  rw [visit_eq hop]
  cases hk : op.kind.numberAt n values c with
  | error e =>
    obtain ⟨cause, rfl⟩ := Outcome.refused_of_not_escapes (hk ▸ ObjectKind.not_escapes_numberAt hnumber)
    exact ⟨cause, rfl⟩
  | ok k =>
    cases hv : n.integers values c.ids op.argument.1 op.argument.2 with
    | error e =>
      obtain ⟨cause, rfl⟩ := Outcome.refused_of_not_escapes (hv ▸ hargument.not_escapes_integers op.argument.2)
      exact ⟨cause, rfl⟩
    | ok v =>
      rw [integers, List.mem_pair] at hp
      rw [ObjectKind.numberAt_eq] at hk
      obtain ⟨id, hid, -⟩ := Outcome.bind_eq_ok.mp hk
      rcases hp with rfl | rfl
      · exact absurd hid (hnone id)
      · exact absurd hv (hnone v)

end IntegerOp

namespace Node

variable {n : Node} {values : Values} {op : IntegerOp}

/-- An operation that takes integers goes by their values. An output that is read as integers, and as nothing else, may
    be a tensor of another type with the same integers in it, and the visit answers the same and leaves the same. Where
    all integers are read from tensors and one of these holds something else, be it a number with a fraction, an
    infinity, what is no number or a truth value, or is read as a list in place of a number or the other way round, the
    visit is refused and nothing has changed. -/
theorem visit_goes_by_integers (hop : n.controlOp? = some op.controlOp) (s : Session) (c : Context) :
    (∀ key slot x y, values.Holds key slot x →
      (∀ p ∈ op.integers, ∀ t, n.Reads values c.ids p.1 t key slot → t = p.2 ∧ x.SameIntegers t y) →
      (∀ name ∈ op.remaining, ∀ t, ¬n.Reads values c.ids name t key slot) →
      n.visit (values.replace key slot y) (s, c) = n.visit values (s, c)) ∧
    ((∀ p ∈ op.integers, ∃ t x, n.Draws values c.ids p.1 t x) →
      (∃ p ∈ op.integers, ∃ t x, n.Draws values c.ids p.1 t x ∧ (t ≠ p.2 ∨ ∃ e ∈ t.taken x, ∀ k, ¬e.IsInt k)) →
      ∃ cause, n.visit values (s, c) = (.error (.refused cause), s, c)) := by
  refine ⟨fun key slot x y hx hints hrest => ?_, fun hints hbad => ?_⟩
  · refine IntegerOp.visit_congr hop (fun p hp => ?_) (fun name hname => ?_) s
    · by_cases hreads : ∃ t, n.Reads values c.ids p.1 t key slot
      · obtain ⟨t, hreads⟩ := hreads
        obtain ⟨rfl, hsame⟩ := hints p hp t hreads
        have htype := IntegerOp.type_of_mem hp
        have hsingle : p.2 ≠ .tensors := by
          rcases htype with h | h <;> rw [h] <;> exact nofun
        exact integers_of_same (hreads.takes hsingle hx)
          ((hreads.replace hx y).takes hsingle (Values.holds_replace hx)) htype hsame
      · exact integers_congr (required_congr (param_replace_of_not_reads hx fun t ht => hreads ⟨t, ht⟩)) p.2
    · exact param_replace_of_not_reads hx (hrest name hname)
  · obtain ⟨p, hp, t, x, hdraws, hbad⟩ := hbad
    refine IntegerOp.visit_refused hop hints hp (fun v hv => ?_) s
    obtain ⟨htype, hall⟩ := hdraws.isInt_of_integers (IntegerOp.type_of_mem hp) hv
    rcases hbad with hne | ⟨e, he, hnone⟩
    · exact hne htype
    · obtain ⟨k, hk⟩ := hall e he
      exact hnone k hk

/-- An array is read at an index that is one in single precision, and would be at one of 64 bits; at one half it is not
    read. -/
theorem visit_goes_by_integers_at_one :
    let x := Tensor.scalar .host .float32 (.real (.ofInt 1))
    let y := Tensor.scalar .host .int64 (.whole 1)
    let z := Tensor.scalar .host .float32 (.real (.finite (.ofIntWithPrec 1 1)))
    let v := Tensor.scalar .host .float32 (.real (.ofInt 5))
    let a : TensorArray :=
      ⟨some 0, .text "a", .text "float32", none, false, .flag false, true, false, [.empty, ⟨some v, false⟩]⟩
    let n : Node := ⟨"r", .text "tensorArrayRead", ["a", "i"],
      [("tensorArrayId", ⟨0, none, .number⟩), ("index", ⟨1, none, .number⟩)], []⟩
    let values (x : Tensor) : Values := [("a", [some (Tensor.scalar .host .int32 (.whole 0))]), ("i", [some x])]
    let s := Session.initial [] false false
    let c := { Context.initial with arrays := [a] }
    n.controlOp? = some IntegerOp.read.controlOp ∧ (values x).Holds "i" 0 x ∧
      (n.visit (values x) (s, c)).1 = .ok (some [some v]) ∧
      n.visit ((values x).replace "i" 0 y) (s, c) = n.visit (values x) (s, c) ∧
      ∃ cause, n.visit (values z) (s, c) = (.error (.refused cause), s, c) := by
  intro x y z v a n values s c
  have hop : n.controlOp? = some IntegerOp.read.controlOp := rfl
  have hx : (values x).Holds "i" 0 x := ⟨[some x], rfl, rfl⟩
  have hanswer : (n.visit (values x) (s, c)).1 = .ok (some [some v]) := by
    subst c s values n a v x
    rfl
  have hid : n.Draws (values z) c.ids "tensorArrayId" .number (.scalar .host .int32 (.whole 0)) :=
    ⟨⟨_, "a", rfl, rfl, rfl, rfl⟩, Or.inl rfl, rfl, List.forall_mem_singleton.mpr ⟨true, 32, rfl, rfl⟩⟩
  have hindex : n.Draws (values z) c.ids "index" .number z :=
    ⟨⟨_, "i", rfl, rfl, rfl, rfl⟩, Or.inl rfl, rfl, List.forall_mem_singleton.mpr ⟨.single, rfl⟩⟩
  have hsame : x.SameIntegers .number y :=
    ⟨rfl, [1], ⟨nofun, List.forall_mem_singleton.mpr ⟨.single, rfl⟩, .cons rfl .nil⟩,
      ⟨nofun, List.forall_mem_singleton.mpr ⟨true, 64, rfl, rfl⟩, .cons rfl .nil⟩⟩
  refine ⟨hop, hx, hanswer, (visit_goes_by_integers hop s c).1 "i" 0 x y hx (fun p hp t hreads => ?_) nofun,
    (visit_goes_by_integers hop s c).2 (fun p hp => ?_) ⟨_, List.mem_pair.mpr (Or.inr rfl), _, z, hindex, Or.inr ?_⟩⟩
  · obtain ⟨q, hparam, rfl, edge, hedge, e, hname, hkey, -⟩ := hreads
    rcases List.mem_pair.mp hp with rfl | rfl
    · cases hparam
      obtain rfl : edge = "a" := List.mem_singleton.mp hedge
      cases hname
      have hkeys : some "a" = some "i" := hkey
      exact absurd hkeys (by decide)
    · cases hparam
      exact ⟨rfl, hsame⟩
  · rcases List.mem_pair.mp hp with rfl | rfl
    · exact ⟨_, _, hid⟩
    · exact ⟨_, _, hindex⟩
  · refine ⟨_, List.mem_singleton_self _, fun k hk => ?_⟩
    have hintegral := Floating.isIntegral_iff.mpr ⟨k, hk⟩
    cases hintegral

end Node

end Dataflow
