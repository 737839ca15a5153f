import Dataflow.Example.Conditional
import Dataflow.Proofs.FirstInFirstOut
import Dataflow.Proofs.Grounded

/-! Branches of a graph. A switch hands its data to one of two branches, and a merge takes what comes out of them. The
    branch that is not taken has no value in any frame that is visible and stays without one, so the merge answers with
    what the other branch makes of the data. The answer passes through a queue as it is. -/

namespace Dataflow

/-! ### Values that are stored in any context -/

namespace Values

variable {values : Values} {m k i : String} {ids : List String} {o : Outputs}

theorem find?_put_of_ne (h : ∀ i ∈ ids, Edge.key m i ≠ k) : (values.put k o).find? m ids = values.find? m ids := by
  induction ids with
  | nil => rfl
  | cons i ids ih =>
    obtain ⟨hi, hids⟩ := List.forall_mem_cons.mp h
    have hrest : (values.put k o).find? m ids = values.find? m ids := ih hids
    rw [find?] at hrest ⊢
    rw [find?] at hrest ⊢
    rw [List.findSome?_cons, List.findSome?_cons, lookup_put, if_neg hi, hrest]

theorem find?_put_self (ho : o ≠ []) : (values.put (Edge.key m i) o).find? m (i :: ids) = some o := by
  obtain ⟨x, xs, rfl⟩ := List.exists_cons_of_ne_nil ho
  rw [find?, List.findSome?_cons, lookup_put, if_pos rfl]

end Values

namespace Run

variable {r : Run} {m n edge : String} {k : Nat} {o : Outputs}

theorem ids_ne_nil_of_seen (h : r.seen n = some o) : r.context.ids ≠ [] := by
  intro hids
  rw [seen, hids] at h
  cases h

theorem seen_stored_here (hids : r.context.ids ≠ []) (ho : o ≠ []) : (r.stored n o).seen n = some o := by
  obtain ⟨i, ids, hi⟩ := List.exists_cons_of_ne_nil hids
  rw [seen]
  show (r.values.put (Edge.key n (r.context.ids.headD "")) o).find? n r.context.ids = _
  rw [hi]
  exact Values.find?_put_self ho

/-- Outputs of other nodes are not found under the name of a node, whatever the identifiers are. -/
theorem get_stored_apart (hr : r.context.Grounded) (hm : Edge.Plain m) (hn : Edge.Plain n) (hmn : m ≠ n)
    (hname : Edge.ofName edge = .ok ⟨m, k⟩) (o : Outputs) :
    (r.stored n o).values.get r.context.ids edge = r.values.get r.context.ids edge := by
  have hcurrent : Edge.Rooted (r.context.ids.headD "") := by
    cases hids : r.context.ids with
    | nil => exact Or.inl rfl
    | cons i ids => exact hr.ids i (hids ▸ List.mem_cons_self)
  have hfind : (r.stored n o).values.find? m r.context.ids = r.values.find? m r.context.ids :=
    Values.find?_put_of_ne fun i hi heq => hmn ((Edge.key_inj hm hn (hr.ids i hi) hcurrent).mp heq).1
  rw [Values.get, Values.get, hname, Outcome.ok_bind, Outcome.ok_bind, hfind]

end Run

/-! ### The merge of two branches -/

namespace Tensor

/-- The tensor has a first element, and it counts as true. -/
def truthy (x : Tensor) : Bool := x.data.head?.any Element.truth

end Tensor

/-- A switch, a merge and the nodes of the branches between them. -/
structure Diamond where
  switch : Node
  merge : Node
  onTrue : String
  onFalse : String

namespace Diamond

/-- A branch, if its input has a value. -/
def pass (branch : String) (f : Tensor → Tensor) : Option Tensor → Action Run Unit
  | some x => Run.store branch [some (f x)]
  | none => pure ()

/-- The switch, the branches and the merge one after the other, as a driver visits them. -/
def drive (D : Diamond) (f g : Tensor → Tensor) : Action Run (Option Outputs) := do
  match ← Run.visit D.switch with
  | some [whenFalse, whenTrue] =>
    pass D.onFalse g whenFalse
    pass D.onTrue f whenTrue
    Run.visit D.merge
  | _ => throw .badValue

/-- The switch takes the data and the predicate from values that are visible, and the branches are free: their nodes
    have names of their own and no values that are visible. The merge takes them in either order. -/
structure Laid (D : Diamond) (r : Run) (data pred : Tensor) : Prop where
  switchOp : D.switch.controlOp? = some .switch
  mergeOp : D.merge.controlOp? = some .merge
  data : D.switch.Takes r.values r.context.ids "data" .tensor data
  pred : D.switch.Takes r.values r.context.ids "pred" .tensor pred
  plain : ∀ name ∈ [D.switch.name, D.onTrue, D.onFalse], Edge.Plain name
  distinct : [D.switch.name, D.onTrue, D.onFalse].Nodup
  branches : ∃ edge edge' : String, Edge.ofName edge = .ok ⟨D.onTrue, 0⟩ ∧ Edge.ofName edge' = .ok ⟨D.onFalse, 0⟩ ∧
    (D.merge.inputs = [edge, edge'] ∨ D.merge.inputs = [edge', edge]) ∧
    r.values.get r.context.ids edge = .ok none ∧ r.values.get r.context.ids edge' = .ok none

variable {D : Diamond} {r : Run} {data pred : Tensor} {f g : Tensor → Tensor}

theorem Laid.ids_ne_nil (h : D.Laid r data pred) : r.context.ids ≠ [] := by
  obtain ⟨p, edge, -, -, -, hget⟩ := h.data
  intro hids
  rw [hids] at hget
  obtain ⟨e, -, hget⟩ := Outcome.bind_eq_ok.mp hget
  cases hget

/-- What the switch answers with: the data in one of two slots. -/
theorem Laid.visit_switch (h : D.Laid r data pred) (hpred : pred.readable = .ok ()) :
    Run.visit D.switch r =
      (.ok (some (if pred.truthy then [none, some data] else [some data, none])),
        r.stored D.switch.name (if pred.truthy then [none, some data] else [some data, none])) := by
  refine Run.visit_ok h.ids_ne_nil ?_
  rw [Node.visit_switch h.switchOp h.pred.required hpred h.data.required]
  have htruthy : (pred.data.head?.map Element.truth).getD false = pred.truthy := by
    rw [Tensor.truthy]
    cases pred.data.head? <;> rfl
  rw [htruthy]

theorem firstValue_of_one {values : Values} {ids edges : List String} {edge edge' : String} {x : Tensor}
    (hedges : edges = [edge, edge'] ∨ edges = [edge', edge]) (hlive : values.get ids edge = .ok (some x))
    (hdead : values.get ids edge' = .ok none) : Visit.firstValue values ids edges = .ok (some x) := by
  rcases hedges with rfl | rfl
  · rw [Visit.firstValue, hlive]
    rfl
  · rw [Visit.firstValue, hdead, Outcome.ok_bind, Visit.firstValue, hlive]
    rfl

theorem pass_some {branch : String} {x : Tensor} (hids : r.context.ids ≠ []) :
    pass branch f (some x) r = (.ok (), r.stored branch [some (f x)]) := Run.store_apply hids _ _

/-- The merge answers with what is stored for one branch, as nothing that was stored can be seen under the name of the
    other one. -/
theorem visit_merge {live dead edge edge' : String} {o : Outputs} {y : Tensor} (hr : r.context.Grounded)
    (hids : r.context.ids ≠ []) (hmerge : D.merge.controlOp? = some .merge)
    (hplain : ∀ name ∈ [D.switch.name, live, dead], Edge.Plain name) (hdistinct : [D.switch.name, live, dead].Nodup)
    (hedge : Edge.ofName edge = .ok ⟨live, 0⟩) (hedge' : Edge.ofName edge' = .ok ⟨dead, 0⟩)
    (hinputs : D.merge.inputs = [edge, edge'] ∨ D.merge.inputs = [edge', edge])
    (hfree : r.values.get r.context.ids edge' = .ok none) :
    let stored := (r.stored D.switch.name o).stored live [some y]
    Run.visit D.merge stored = (.ok (some [some y]), stored.stored D.merge.name [some y]) := by
  intro stored
  simp only [List.mem_cons, List.not_mem_nil, or_false, forall_eq_or_imp, forall_eq] at hplain
  obtain ⟨hswitch, hlive, hdead⟩ := hplain
  simp only [List.nodup_cons, List.mem_cons, List.not_mem_nil, or_false, not_or, not_false_eq_true, List.nodup_nil,
    and_true] at hdistinct
  obtain ⟨⟨-, hswitchDead⟩, hliveDead⟩ := hdistinct
  have hfirst : stored.values.get stored.context.ids edge = .ok (some y) :=
    Run.get_seen hedge (Run.seen_stored_here hids (List.cons_ne_nil _ _)) rfl
  have hsecond : stored.values.get stored.context.ids edge' = .ok none := by
    refine (Run.get_stored_apart (r := r.stored D.switch.name o) hr hdead hlive (Ne.symm hliveDead) hedge' _).trans ?_
    exact (Run.get_stored_apart hr hdead hswitch (Ne.symm hswitchDead) hedge' o).trans hfree
  exact Run.visit_ok hids (Node.visit_merge hmerge (firstValue_of_one hinputs hfirst hsecond))

/-- The diamond computes the branch of the predicate, and the answer is kept under the name of the merge. -/
theorem Laid.drive_ok (h : D.Laid r data pred) (hr : r.context.Grounded) (hpred : pred.readable = .ok ())
    (f g : Tensor → Tensor) :
    ∃ r', D.drive f g r = (.ok (some [some (if pred.truthy then f data else g data)]), r') ∧
      r'.seen D.merge.name = some [some (if pred.truthy then f data else g data)] := by
  have hids := h.ids_ne_nil
  have hplain := h.plain
  have hdistinct := h.distinct
  obtain ⟨edge, edge', hedge, hedge', hinputs, hfree, hfree'⟩ := h.branches
  rw [drive, Action.bind_ok (h.visit_switch hpred)]
  cases htruthy : pred.truthy with
  | true =>
    have hmerge := visit_merge (D := D) (o := [none, some data]) (y := f data) hr hids h.mergeOp hplain hdistinct hedge
      hedge' hinputs hfree'
    have hpass : pass D.onTrue f (some data) (r.stored D.switch.name [none, some data]) =
        (.ok (), (r.stored D.switch.name [none, some data]).stored D.onTrue [some (f data)]) := pass_some hids
    refine ⟨_, Eq.trans ?_ hmerge, Run.seen_stored_here hids (List.cons_ne_nil _ _)⟩
    exact Action.bind_ok hpass
  | false =>
    have hswap : [D.switch.name, D.onFalse, D.onTrue].Perm [D.switch.name, D.onTrue, D.onFalse] :=
      (List.Perm.swap _ _ _).cons _
    have hmerge := visit_merge (D := D) (o := [some data, none]) (y := g data) hr hids h.mergeOp
      (fun name hname => hplain name (hswap.subset hname)) (hswap.nodup_iff.mpr hdistinct) hedge' hedge hinputs.symm hfree
    have hpass : pass D.onFalse g (some data) (r.stored D.switch.name [some data, none]) =
        (.ok (), (r.stored D.switch.name [some data, none]).stored D.onFalse [some (g data)]) := pass_some hids
    refine ⟨_, Eq.trans ?_ hmerge, Run.seen_stored_here hids (List.cons_ne_nil _ _)⟩
    exact Action.bind_ok hpass

end Diamond

/-! ### A tensor through a queue -/

theorem Shape.fits_one_cons (s : Shape) (size : Nat) : fits (1 :: s) size = fits s size := by
  rw [fits, fits, span_cons, if_neg (by decide), Nat.one_mul]

namespace Tensor

variable {x : Tensor}

/-- An array of the host has a limited number of axes, and its bytes can be counted in a word. Stacking adds an axis. -/
def Stackable (x : Tensor) : Prop :=
  x.device = .host → x.rank < Shape.axisLimit ∧ x.shape.fits x.dtype.size = true

/-- A tensor that is stacked alone becomes the only row. -/
theorem stack_single (hx : x.Stackable) : stack [x] (.int 0) = .ok x.raised := by
  have hall : ∀ y ∈ [x], y.device = x.device ∧ y.dtype = x.dtype ∧ y.shape = x.shape := fun y hy => by
    rw [List.mem_singleton.mp hy]
    exact ⟨rfl, rfl, rfl⟩
  obtain ⟨z, hz, hstacks⟩ := stack_ok (List.cons_ne_nil x []) hall (fun hb => (hx hb).1) fun hb => by
    rw [List.length_singleton, Shape.fits_one_cons]
    exact (hx hb).2
  have hraised : z = x.raised := by
    obtain ⟨device, dtype, shape, data, hlength⟩ := z
    obtain ⟨rfl, rfl, rfl, rfl⟩ := hstacks
    simp [raised]
  rw [hz, hraised]

theorem slices_raised (x : Tensor) : x.raised.slices = [x] := by
  have hstacks : Stacks x.device x.dtype x.shape [x] x.raised := ⟨rfl, rfl, rfl, by simp [raised]⟩
  exact hstacks.slices_eq fun y hy => by rw [List.mem_singleton.mp hy]; exact ⟨rfl, rfl, rfl⟩

end Tensor

namespace Queue

variable {s : Session} {q : Queue} {x : Tensor}

/-- A queue of one column that lets a tensor in: it is empty, and the column has the tensor's element type and admits
    its shape. -/
structure ReadyFor (x : Tensor) (q : Queue) : Prop where
  tuples : q.tuples = []
  dtypes : q.dtypes = [.text x.dtype.name]
  shapes : ∃ shape, q.shapes = [shape] ∧ shape.admits x.shape = true
  capacity : ∃ n : Int, q.capacity = .int n

theorem readyFor_of_make {spec : Spec} (h : make s spec = .ok q) (hdtypes : q.dtypes = [.text x.dtype.name])
    (hshapes : ∀ shape ∈ q.shapes, shape.admits x.shape = true) {n : Int} (hcapacity : q.capacity = .int n) :
    q.ReadyFor x := by
  have hfresh := fresh_of_make h
  have hlength := hfresh.shapes
  rw [hdtypes] at hlength
  obtain ⟨shape, hshape⟩ := List.length_eq_one_iff.mp hlength
  exact ⟨hfresh.tuples, hdtypes, ⟨shape, hshape, hshapes shape (hshape ▸ List.mem_singleton_self shape)⟩, n, hcapacity⟩

theorem ReadyFor.numbered (h : q.ReadyFor x) (k : Nat) : (Context.numberedQueue k q).ReadyFor x :=
  ⟨h.tuples, h.dtypes, h.shapes, h.capacity⟩

theorem ReadyFor.admitted (h : q.ReadyFor x) : q.admitted [.tensor x] = .ok [x] := by
  obtain ⟨htuples, hdtypes, ⟨shape, hshape, hadmits⟩, n, hcapacity⟩ := h
  have hcolumns : q.columns = [(.text x.dtype.name, shape)] := by
    rw [columns, hdtypes, hshape]
    rfl
  have hlength : ¬[Value.tensor x].length ≠ q.dtypes.length := by
    rw [hdtypes]
    exact fun hne => hne rfl
  have hsize : q.size = 0 := by
    rw [size, htuples]
    rfl
  have hbounded : q.bounded = .ok (decide (0 < n)) := by rw [bounded, hcapacity, Value.less_int]
  have hcomponents : q.checkComponents 0 ([Value.tensor x].zip q.columns) = .ok () := by
    rw [hcolumns]
    simp only [List.zip_cons_cons, List.zip_nil_right, checkComponents, checkElementType_tensor, checkDType_text,
      if_true, Outcome.ok_bind, Outcome.pure_eq, checkShape, hadmits]
  have htensors : Value.toTensors [.tensor x] = .ok [x] := Value.toTensors_map [x]
  rw [Queue.admitted, if_neg hlength, hbounded, Outcome.ok_bind]
  by_cases hpositive : 0 < n
  · have hroom : (Value.int q.size).atLeast q.capacity = .ok false := by
      rw [hsize, hcapacity, Value.atLeast_int, decide_eq_false (by simpa using hpositive)]
    rw [decide_eq_true hpositive, if_pos rfl, hroom, Outcome.ok_bind, if_neg Bool.false_ne_true, hcomponents,
      Outcome.ok_bind, htensors]
  · rw [decide_eq_false hpositive, if_neg Bool.false_ne_true, hcomponents, Outcome.ok_bind, htensors]

/-- Integers of double precision have few enough digits to be written. -/
theorem takenLine_ok {n : Nat} (hn : Value.isHuge n = false) (taken : Nat) (q : Queue) :
    ∃ line, takenLine taken (.int n) q = .ok line := by
  have hdigits : n < 10 ^ Text.longestNumeral :=
    calc n < 2 ^ Format.double.bound := Value.natAbs_lt_of_isHuge hn
      _ ≤ 10 ^ Format.double.bound := Nat.pow_le_pow_left (by decide) _
      _ ≤ 10 ^ Text.longestNumeral := Nat.pow_le_pow_right (by decide) (by decide)
  have hformatted : (Value.int n).formatted = .ok (toString n) := Activation.formatted_natCast hdigits
  rw [takenLine, Value.wholePart, Outcome.ok_bind, hformatted]
  exact ⟨_, rfl⟩

/-- The only tuple of a queue of one column comes out as a single row, however many are asked for. -/
theorem dequeueUpTo_single {num : Int} {dtypes : Value} (hdtypes : q.dtypes = [.text x.dtype.name])
    (htuples : q.tuples = [[x]]) (hx : x.Stackable) (hasks : Asks q dtypes) (hnum : 1 ≤ num)
    (hlarge : Value.isHuge num = false) (s : Session) :
    ∃ t, dequeueUpTo (.int num) dtypes (s, q) = (.ok [x.raised], t, q.drop 1) := by
  obtain ⟨n, rfl⟩ := Int.eq_ofNat_of_zero_le (Int.le_trans Int.one_nonneg hnum)
  have hsize : q.size = 1 := by
    rw [size, htuples]
    rfl
  have hdue : q.due (.int n) dtypes = .ok 1 := by
    have hmin : min n q.size = 1 := by omega
    rw [due_natCast (hasks.check_names [x.dtype.name] hdtypes), hmin]
  obtain ⟨line, hline⟩ := takenLine_ok hlarge 1 (q.drop 1)
  have hcolumn : column [[x]] 0 = .ok x.raised := Tensor.stack_single hx
  have hcollected (t : Session) : q.collected [[x]] t = (.ok [x.raised], t) := by
    have hsome : ¬([[x]] : List (List Tensor)).isEmpty = true := Bool.false_ne_true
    rw [collected, if_neg hsome, hdtypes, Action.lift_apply]
    show ([0].mapM (column [[x]]), t) = _
    rw [List.mapM_cons, hcolumn]
    rfl
  refine ⟨s.recorded .queue line, ?_⟩
  rw [dequeueUpTo_eq, hdue]
  dsimp only
  rw [hline, Session.record_ok]
  dsimp only
  rw [htuples, show [[x]].take 1 = [[x]] from rfl, hcollected]

end Queue

namespace Context

/-- A queue is registered, and a tensor is put in. -/
def enqueued (q : Queue) (x : Tensor) : Action (Session × Context) Nat := do
  let k ← addQueue q
  onQueue k (Queue.enqueue [.tensor x]).onSecond
  return k

variable {q : Queue} {x : Tensor}

theorem enqueued_ok (hid : q.id = none) (hq : q.ReadyFor x) (s : Session) (c : Context) :
    ∃ t, enqueued q x (s, c) =
      (.ok c.queues.length, t, c.withQueues (c.queues ++ [(numberedQueue c.queues.length q).push [x]])) := by
  have hlast : (c.withQueues (c.queues ++ [numberedQueue c.queues.length q])).queues[c.queues.length]? =
      some (numberedQueue c.queues.length q) := List.getElem?_concat_length
  refine ⟨s.recorded .context (registeredLine (numberedQueue c.queues.length q).text), ?_⟩
  rw [enqueued, Action.bind_ok (addQueue_eq hid s c), Action.bind_apply, onQueue_some hlast, Action.onSecond_apply,
    Queue.enqueue_eq, (hq.numbered _).admitted]
  simp only [withQueues, List.set_append_right _ _ (Nat.le_refl _), Nat.sub_self]
  rfl

end Context

theorem Node.visit_queueDequeueUpTo {n : Node} {values : Values} {s t : Session} {c : Context} {k : Nat} {q q' : Queue}
    {num : Int} {dtypes : Value} {ys : List Tensor} (hop : n.controlOp? = some .queueDequeueUpTo)
    (hid : n.intParam values c.ids "fifoQueueId" = .ok k) (hq : c.queues[k]? = some q)
    (hnum : n.intParam values c.ids "num" = .ok num) (hdtypes : n.param values c.ids "dtypes" = .ok dtypes)
    (htaken : Queue.dequeueUpTo (.int num) dtypes (s, q) = (.ok ys, t, q')) :
    n.visit values (s, c) = (.ok (some (ys.map some)), t, c.withQueues (c.queues.set k q')) := by
  have hk : k < c.queues.length := (List.getElem?_eq_some_iff.mp hq).1
  have hat : n.queueAt values c = .ok k := by rw [queueAt, hid, Outcome.ok_bind, Context.queueNumber_eq hk]
  rw [visit_eq hop, Visit.ofControlOp, Visit.queueDequeueUpTo, Visit.queueOf_apply, hat]
  simp only [Action.bind_apply, Visit.reading_apply, hnum, hdtypes, Context.onQueue_some hq, htaken]
  rfl

namespace Diamond

/-- A switch and a merge are a conditional: in every context that can be reached, what the merge answers with is what
    the branch of the predicate makes of the data, and it comes back from a queue as the only row. -/
theorem drive_conditional (s : Session) (uses : List ContextUse) (values : Values) {D : Diamond} {data pred : Tensor}
    (hD : D.Laid ⟨(ContextUse.run s uses).1, (ContextUse.run s uses).2, values⟩ data pred)
    (hpred : pred.readable = .ok ()) (f g : Tensor → Tensor) :
    let r : Run := ⟨(ContextUse.run s uses).1, (ContextUse.run s uses).2, values⟩
    let y := if pred.truthy then f data else g data
    (Run.visit D.switch r).1 = .ok (some (if pred.truthy then [none, some data] else [some data, none])) ∧
    ∃ r', D.drive f g r = (.ok (some [some y]), r') ∧ r'.seen D.merge.name = some [some y] ∧
      (y.Stackable → ∀ spec q capacity, Queue.make r'.session spec = .ok q → q.dtypes = [.text y.dtype.name] →
        (∀ shape ∈ q.shapes, shape.admits y.shape = true) → q.capacity = .int capacity →
        ∃ k t, Run.inContext (Context.enqueued q y) r' = (.ok k, t) ∧
          ∀ (n : Node) (num : Int) (dtypes : Value), n.controlOp? = some .queueDequeueUpTo →
            n.Gives t.values t.context.ids "fifoQueueId" k → n.Gives t.values t.context.ids "num" num →
            1 ≤ num → Value.isHuge num = false →
            n.param t.values t.context.ids "dtypes" = .ok dtypes → q.Asks dtypes →
            (Run.visit n t).1 = .ok (some [some y.raised]) ∧ y.raised.slices = [y]) := by
  intro r y
  have hgrounded : r.context.Grounded := ContextUse.grounded_run s uses
  obtain ⟨r', hdrive, hseen⟩ := hD.drive_ok hgrounded hpred f g
  refine ⟨congrArg Prod.fst (hD.visit_switch hpred), r', hdrive, hseen, ?_⟩
  intro hy spec q capacity hmake hqdtypes hshapes hcapacity
  have hready := Queue.readyFor_of_make hmake hqdtypes hshapes hcapacity
  obtain ⟨u, hput⟩ := Context.enqueued_ok (Queue.id_of_make hmake) hready r'.session r'.context
  refine ⟨_, _, by rw [Run.inContext_apply, hput], fun n num dtypes hop hid hnum hone hlarge hdtypes hasks => ?_⟩
  refine ⟨?_, y.slices_raised⟩
  have htuples : ((Context.numberedQueue r'.context.queues.length q).push [y]).tuples = [[y]] := by
    show q.tuples ++ [[y]] = _
    rw [hready.tuples]
    rfl
  obtain ⟨v, htaken⟩ := Queue.dequeueUpTo_single (q := (Context.numberedQueue r'.context.queues.length q).push [y])
    hqdtypes htuples hy hasks hone hlarge u
  have hdequeue := Node.visit_queueDequeueUpTo hop hid.intParam List.getElem?_concat_length hnum.intParam hdtypes htaken
  refine congrArg Prod.fst (Run.visit_ok ?_ hdequeue)
  exact Run.ids_ne_nil_of_seen hseen

end Diamond

namespace Conditional

def diamond : Diamond := ⟨switchNode, mergeNode, "double", "negate"⟩

/-- Data and a predicate where the nodes of the conditional look for them. -/
def given (data pred : Tensor) : Run :=
  ⟨.initial [] true false, .initial, [("x", [some data]), ("positive", [some pred])]⟩

theorem laid_given (data pred : Tensor) : diamond.Laid (given data pred) data pred := by
  have hplain : ∀ name ∈ ["switch", "double", "negate"], Edge.Plain name := by
    have hmark : ∀ name ∈ ["switch", "double", "negate"], '-' ∉ name.toList := by decide
    exact fun name hname => Edge.plain_of_notMem (hmark name hname)
  exact ⟨rfl, rfl, ⟨_, "x", rfl, rfl, rfl, rfl⟩, ⟨_, "positive", rfl, rfl, rfl, rfl⟩, hplain, by decide,
    "double", "negate", rfl, rfl, Or.inr rfl, rfl, rfl⟩

/-- A queue without bounds, of tensors of one element type and any shape. -/
def openQueue (x : Tensor) : Queue.Spec where
  dtypes := .list [.text x.dtype.name]
  shapes := .nothing
  capacity := .int 0
  name := .text "queue"
  container := .text ""

/-- A node that asks the first queue for a number of tuples. -/
def takeNode (num : Int) : Node where
  name := "dequeue"
  op := .text ControlOp.queueDequeueUpTo.name
  inputs := []
  params := []
  attrs := [("fifoQueueId", .int 0), ("num", .int num)]

/-- The conditional, and its answer into an open queue. -/
def fillQueue (f g : Tensor → Tensor) : Action Run Unit := do
  match ← diamond.drive f g with
  | some [some y] =>
    let q ← Queue.make (← get).session (openQueue y)
    let _ ← Run.inContext (Context.enqueued q y)
  | _ => throw .badValue

/-- The conditional, and its answer through an open queue. -/
def driveThroughQueue (f g : Tensor → Tensor) (num : Int) : Action Run (Option Outputs) := do
  fillQueue f g
  Run.visit (takeNode num)

/-- A number that is positive is doubled, and comes back from the queue as the only row. -/
theorem drive_conditional_positive :
    let x := Tensor.scalar .host .float32 (.real (.ofInt 3))
    let positive := Tensor.scalar .host .bool (.flag true)
    let y := mapSingle Floating.double x
    ∃ r, diamond.drive (mapSingle Floating.double) (mapSingle Floating.negate) (given x positive) =
        (.ok (some [some y]), r) ∧ r.seen "merge" = some [some y] ∧
      ∃ q t, Queue.make r.session (openQueue y) = .ok q ∧ Run.inContext (Context.enqueued q y) r = (.ok 0, t) ∧
        (Run.visit (takeNode 4) t).1 = .ok (some [some y.raised]) := by
  intro x positive y
  have hlaid := laid_given x positive
  obtain ⟨-, r, hdrive, hseen, hqueue⟩ := Diamond.drive_conditional (.initial [] true false) [] _ hlaid rfl
    (mapSingle Floating.double) (mapSingle Floating.negate)
  refine ⟨r, hdrive, hseen, ?_⟩
  obtain rfl : (diamond.drive (mapSingle Floating.double) (mapSingle Floating.negate) (given x positive)).2 = r :=
    congrArg Prod.snd hdrive
  have hstack : y.Stackable := fun _ => ⟨by decide, by decide⟩
  have hfour : Value.isHuge 4 = false := Value.isHuge_eq_false (by decide)
  have hzero : Value.isHuge (0 : Nat) = false := Value.isHuge_eq_false (by decide)
  let q : Queue := ⟨none, [.text "float32"], [none], .int 0, .text "queue", .text "", []⟩
  obtain ⟨k, t, hput, htake⟩ := hqueue hstack (openQueue y) q 0 rfl rfl (by decide) rfl
  obtain rfl : k = 0 := by
    cases hput
    rfl
  refine ⟨q, t, rfl, hput, ?_⟩
  exact (htake (takeNode 4) 4 .nothing rfl (Or.inl ⟨rfl, rfl, hzero⟩) (Or.inl ⟨rfl, rfl, hfour⟩) (by decide) hfour rfl
    (Or.inl rfl)).1

theorem visit_takeNode_of_isHuge {r : Run} {num : Int} (hr : 0 < r.context.queues.length)
    (hnum : Value.isHuge num = true) : (Run.visit (takeNode num) r).1 = .error .tooLarge := by
  have hop : (takeNode num).controlOp? = some .queueDequeueUpTo := rfl
  have hat : (takeNode num).queueAt r.values r.context = .ok 0 := Context.queueNumber_eq hr
  have hparam : (takeNode num).intParam r.values r.context.ids "num" = .error .tooLarge := by
    show Value.integer _ (.int num) = _
    rw [Value.integer_int, if_pos hnum]
  have hvisit : (takeNode num).visit r.values (r.session, r.context) =
      (.error .tooLarge, r.session, r.context) := by
    rw [Node.visit_eq hop, Visit.ofControlOp, Visit.queueDequeueUpTo, Visit.queueOf_apply, hat]
    simp only [Action.bind_apply, Visit.reading_apply, hparam]
  simp only [Run.visit, Action.bind_apply, Action.get_apply, Run.inContext_apply, hvisit]

/-- A stack with more axes than an array of the host may have, a number of tuples beyond double precision, and a
    predicate with more axes than are read back: in each case the conditional is laid out as it should be. -/
theorem conditional_beyond_limits :
    let one := Tensor.scalar .host .float32 (.real (.ofInt 1))
    let deep : Tensor := ⟨.host, .float32, List.replicate 64 1, [.real (.ofInt 1)], by decide⟩
    let wide : Tensor := ⟨.torch, .float32, List.replicate 65 1, [.real (.ofInt 1)], by decide⟩
    (driveThroughQueue id id 1 (given deep one)).1 = .error .indexOutOfRange ∧
      (driveThroughQueue id id ((2 ^ Format.double.bound : Nat) : Int) (given one one)).1 = .error .tooLarge ∧
      (Run.visit switchNode (given one wide)).1 = .error .badValue := by
  intro one deep wide
  have hfill : fillQueue id id (given one one) = (.ok (), (fillQueue id id (given one one)).2) := Prod.ext rfl rfl
  have hhuge : Value.isHuge ((2 ^ Format.double.bound : Nat) : Int) = true :=
    Value.isHuge_of_le (by rw [Int.natAbs_natCast])
  refine ⟨rfl, ?_, rfl⟩
  rw [driveThroughQueue, Action.bind_ok hfill]
  exact visit_takeNode_of_isHuge (Nat.zero_lt_one : 0 < 1) hhuge

end Conditional

end Dataflow
