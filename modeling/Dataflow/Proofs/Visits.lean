import Dataflow.Proofs.Creation
import Dataflow.Proofs.Making
import Dataflow.Proofs.Runs

/-! Visits of nodes. Each operation has one equation: what a visit answers with and what it does to the context, given
    the values of the node's parameters. -/

namespace Dataflow

namespace Visit

theorem reading_apply {α : Type} (read : Node → Values → List String → String → Outcome α) (n : Node)
    (values : Values) (name : String) (p : Session × Context) :
    reading read n values name p = (read n values p.2.ids name, p) := rfl

end Visit

namespace Context

variable {s : Session} {c : Context} {a : TensorArray}

/-- A tensor array under its number. -/
def numbered (k : Nat) (a : TensorArray) : TensorArray := { a with id := some k }

/-- The context with other tensor arrays. -/
def withArrays (arrays : List TensorArray) (c : Context) : Context := { c with arrays }

theorem addArray_eq (ha : a.id = none) (s : Session) (c : Context) :
    addArray a (s, c) =
      (.ok c.arrays.length, s.recorded .context (registeredLine (numbered c.arrays.length a).text),
        c.withArrays (c.arrays ++ [numbered c.arrays.length a])) := by
  simp only [addArray, ha, Option.isSome_none, Bool.false_eq_true, if_false, Action.bind_apply, Action.pure_apply,
    Action.get_apply, Action.onSecond_apply, Action.modify_apply, Action.onFirst_apply, Session.record_ok]
  rfl

theorem numberBelow_natCast {k n : Nat} (hk : k < n) : numberBelow n (.int k) = some k := by
  rw [numberBelow, List.find?_range_eq_some]
  refine ⟨by simp, List.mem_range.mpr hk, fun j hj => ?_⟩
  have hne : (j : Int) ≠ k := by omega
  simpa using hne

theorem arrayNumber_eq {k : Nat} (hk : k < c.arrays.length) : c.arrayNumber (.int k) = .ok k := by
  have hkey : (Value.int k).isKey = true := rfl
  rw [arrayNumber, hkey, numberBelow_natCast hk]
  rfl

theorem queueNumber_eq {k : Nat} (hk : k < c.queues.length) : c.queueNumber (.int k) = .ok k := by
  have hkey : (Value.int k).isKey = true := rfl
  rw [queueNumber, hkey, numberBelow_natCast hk]
  rfl

theorem onArray_eq {α : Type} {k : Nat} {act : Action (Session × TensorArray) α} {r : Outcome α} {t : Session}
    {b : TensorArray} (ha : c.arrays[k]? = some a) (hact : act (s, a) = (r, t, b)) :
    onArray k act (s, c) = (r, t, c.withArrays (c.arrays.set k b)) := by
  simp only [onArray, ha, hact]
  rfl

end Context

namespace Node

variable {n : Node} {values : Values} {s : Session} {c : Context} {x y : Tensor} {as : List Activation}
  {a : Activation}

theorem visit_eq {op : ControlOp} (hop : n.controlOp? = some op) (values : Values) :
    n.visit values = Visit.ofControlOp op n values := by
  rw [visit, hop]

/-! ### Loops and branches -/

theorem visit_loopCond (hop : n.controlOp? = some .loopCond)
    (hpred : n.required values c.ids "pred" = .ok (.tensor x)) :
    n.visit values (s, c) = (.ok (some [some x]), s, c) := by
  rw [visit_eq hop]
  simp only [Visit.ofControlOp, Visit.loopCond, Action.bind_apply, Visit.reading_apply, hpred, Value.toTensor]
  rfl

theorem visit_switch (hop : n.controlOp? = some .switch)
    (hpred : n.required values c.ids "pred" = .ok (.tensor x)) (hreadable : x.readable = .ok ())
    (hdata : n.required values c.ids "data" = .ok (.tensor y)) :
    n.visit values (s, c) =
      (.ok (some (if (x.data.head?.map Element.truth).getD false then [none, some y] else [some y, none])), s, c) := by
  have hread : (Value.tensor x).read = .ok x := by
    show (do x.readable; return x) = _
    rw [hreadable]
    rfl
  rw [visit_eq hop]
  simp only [Visit.ofControlOp, Visit.switch, Action.bind_apply, Visit.reading_apply, hpred, hdata, hread,
    Value.toTensor, Action.lift_apply]
  rfl

theorem visit_merge (hop : n.controlOp? = some .merge)
    (hvalue : Visit.firstValue values c.ids n.inputs = .ok (some x)) :
    n.visit values (s, c) = (.ok (some [some x]), s, c) := by
  rw [visit_eq hop]
  simp only [Visit.ofControlOp, Visit.merge, Action.bind_apply, Visit.visible, Action.get_apply, Action.pure_apply,
    Action.lift_apply, hvalue]
  rfl

theorem visit_enter (hop : n.controlOp? = some .enter) (hc : c.At as) {frame : String}
    (hframe : n.param values c.ids "frameName" = .ok (.text frame))
    (htensor : n.required values c.ids "tensor" = .ok (.tensor x)) :
    n.visit values (s, c) =
      (.ok (some [some x]), s.recorded .context (Context.frameLine "enter" (.text frame) (as.length + 1)),
        c.movedTo (as ++ [.first c.lastId frame]) (c.lastId + 1)) := by
  rw [visit_eq hop]
  simp only [Visit.ofControlOp, Visit.enter, Action.bind_apply, Visit.reading_apply, hframe, htensor,
    Context.enterFrame_eq hc, Value.toTensor]
  rfl

theorem visit_exit (hop : n.controlOp? = some .exit) (hc : c.At (as ++ [a]))
    (htensor : n.required values c.ids "tensor" = .ok (.tensor x)) :
    n.visit values (s, c) =
      (.ok (some [some x]), s.recorded .context (Context.frameLine "exit" (.text a.name) as.length),
        c.movedTo as c.lastId) := by
  rw [visit_eq hop]
  simp only [Visit.ofControlOp, Visit.exit, Action.bind_apply, Visit.reading_apply, htensor, Context.exitFrame_eq hc,
    Value.toTensor]
  rfl

theorem visit_nextIteration (hop : n.controlOp? = some .nextIteration) (hc : c.At (as ++ [a]))
    (ha : a.iteration + 1 < 10 ^ Text.longestNumeral)
    (htensor : n.required values c.ids "tensor" = .ok (.tensor x)) :
    n.visit values (s, c) = (.ok (some [some x]), s, c.movedTo (as ++ [a.next c.lastId ha]) (c.lastId + 1)) := by
  rw [visit_eq hop]
  simp only [Visit.ofControlOp, Visit.nextIteration, Action.bind_apply, Visit.reading_apply, htensor,
    Action.onSecond_apply, Context.nextIteration_eq hc ha, Value.toTensor]
  rfl

/-! ### Tensor arrays -/

/-- The parameters of a node say how an array is to be made. -/
structure Describes (n : Node) (values : Values) (ids : List String) (m : TensorArray.Making) : Prop where
  name : n.paramOr (.text n.name) values ids "name" = .ok m.spec.name
  dtype : n.param values ids "dtype" = .ok m.spec.dtype
  size : n.intParamOr 0 values ids "size" = .ok m.size
  elementShape : n.param values ids "elementShape" = .ok m.spec.elementShape
  identical : n.boolParamOr false values ids "identicalElementShapes" = .ok m.identical
  dynamicSize : n.boolParamOr false values ids "dynamicSize" = .ok m.dynamicSize
  clearAfterRead : n.boolParamOr true values ids "clearAfterRead" = .ok m.clearAfterRead

theorem handle_zero (hs : s.Ready) (c : Context) :
    ∃ y z t, Visit.handle 0 (s, c) = (.ok (some [some y, some z]), t, c) ∧ t.Ready ∧ y.ReadsAs 0 := by
  obtain ⟨y, t, hy, ht, hreads⟩ := Session.indexScalar_zero hs
  obtain ⟨z, u, hz, hu⟩ := Session.flag_ok ht
  have hnumber : Session.indexScalar (.int (0 : Nat)) .nothing Session.auto s = (.ok y, t) := hy
  refine ⟨y, z, u, ?_, hu, hreads⟩
  simp only [Visit.handle, Action.bind_apply, Action.onFirst_apply, hnumber, hz, Action.pure_apply]
  rfl

theorem visit_tensorArray (hop : n.controlOp? = some .tensorArray) (hs : s.Ready) (hc : c.arrays = [])
    {m : TensorArray.Making} (hm : n.Describes values c.ids m) {i : DTypeInfo}
    (hinfo : s.dtypeInfo (.text m.dtype) = .ok i) (hsize : 0 ≤ m.size) :
    ∃ y z t,
      n.visit values (s, c) =
        (.ok (some [some y, some z]), t, c.withArrays [Context.numbered 0 m.array]) ∧
      t.Ready ∧ y.ReadsAs 0 := by
  have hmake : TensorArray.make s m.spec = .ok m.array := TensorArray.Making.make_ok hinfo hsize
  have hadd := Context.addArray_eq (a := m.array) rfl s c
  rw [hc, List.length_nil, List.nil_append] at hadd
  obtain ⟨y, z, t, hhandle, ht, hreads⟩ := handle_zero
    (hs.recorded .context (Context.registeredLine (Context.numbered 0 m.array).text))
    (c.withArrays [Context.numbered 0 m.array])
  refine ⟨y, z, t, ?_, ht, hreads⟩
  rw [visit_eq hop]
  simp only [Visit.ofControlOp, Visit.tensorArray, Action.bind_apply, Visit.reading_apply, hm.name, hm.dtype, hm.size,
    hm.elementShape, hm.identical, hm.dynamicSize, hm.clearAfterRead, Action.get_apply, Action.lift_apply]
  rw [TensorArray.Making.spec] at hmake
  simp only [TensorArray.Making.spec, hmake, hadd, hhandle]

theorem visit_tensorArrayWrite (hop : n.controlOp? = some .tensorArrayWrite) (hs : s.Ready) {k : Nat} {i : Int}
    {b : TensorArray} (hnumber : n.intParam values c.ids "tensorArrayId" = .ok k) (hb : c.arrays[k]? = some b)
    (hindex : n.intParam values c.ids "index" = .ok i) (htensor : n.required values c.ids "tensor" = .ok (.tensor x))
    (hwrite : b.writable i x = .ok ()) :
    ∃ z t,
      n.visit values (s, c) = (.ok (some [some z]), t, c.withArrays (c.arrays.set k (b.written i.toNat x))) ∧
      t.Ready := by
  obtain ⟨z, t, hz, ht⟩ := Session.flag_ok hs
  refine ⟨z, t, ?_, ht⟩
  have hk : k < c.arrays.length := (List.getElem?_eq_some_iff.mp hb).1
  have hact : (TensorArray.write (.int i) (.tensor x)).onSecond (s, b) = (.ok (), s, b.written i.toNat x) := by
    rw [Action.onSecond_apply, TensorArray.write_eq, hwrite]
  rw [visit_eq hop]
  simp only [Visit.ofControlOp, Visit.tensorArrayWrite, Visit.arrayOf, Action.bind_apply, Visit.reading_apply, hnumber,
    Action.get_apply, Action.lift_apply, Context.arrayNumber_eq hk, hindex, htensor, Context.onArray_eq hb hact,
    Visit.done, Action.onFirst_apply, hz, Action.pure_apply]
  rfl

end Node

namespace Run

variable {n : Node} {r : Run} {o : Outputs} {t : Session} {d : Context} {name edge : String} {start : Int} {e : Edge}
  {x : Tensor}

/-! ### Visits in a run -/

theorem get_seen (hname : Edge.ofName edge = .ok e) (hseen : r.seen e.node = some o)
    (hslot : o[e.slot]? = some (some x)) : r.values.get r.context.ids edge = .ok (some x) := by
  rw [Values.get_of_find? hname hseen, hslot]
  rfl

theorem get_unseen (hname : Edge.ofName edge = .ok e) (hunseen : r.seen e.node = none) :
    r.values.get r.context.ids edge = .ok none := by
  have hfind : r.values.find? e.node r.context.ids = none := hunseen
  rw [Values.get, hname, Outcome.ok_bind, hfind]
  rfl

theorem required_seen (hparam : n.params.lookup name = some ⟨start, none, .tensor⟩)
    (hedge : n.edge ⟨start, none, .tensor⟩ = .ok edge) (hname : Edge.ofName edge = .ok e)
    (hseen : r.seen e.node = some o) (hslot : o[e.slot]? = some (some x)) :
    n.required r.values r.context.ids name = .ok (.tensor x) :=
  Node.required_tensor hparam hedge (get_seen hname hseen hslot)

theorem intParam_seen (hparam : n.params.lookup name = some ⟨start, none, .number⟩)
    (hedge : n.edge ⟨start, none, .number⟩ = .ok edge) (hname : Edge.ofName edge = .ok e)
    (hseen : r.seen e.node = some o) (hslot : o[e.slot]? = some (some x)) {k : Int} (hx : x.ReadsAs k) :
    n.intParam r.values r.context.ids name = .ok k :=
  Node.intParam_number hparam hedge (get_seen hname hseen hslot) hx

/-- A visit that answers with outputs stores them. -/
theorem visit_ok (hids : d.ids ≠ []) (h : n.visit r.values (r.session, r.context) = (.ok (some o), t, d)) :
    visit n r = (.ok (some o), (Run.mk t d r.values).stored n.name o) := by
  have hstore : store n.name o ⟨t, d, r.values⟩ = (.ok (), (Run.mk t d r.values).stored n.name o) :=
    store_apply hids n.name o
  simp only [visit, Action.bind_apply, Action.get_apply, inContext_apply, h, hstore, Action.pure_apply]

end Run

end Dataflow
