import Dataflow.Proofs.OfferedTypes
import Dataflow.Proofs.QueueLives
import Dataflow.Proofs.Splitting
import Dataflow.Proofs.Upholding

/-! What the objects hold: a tensor array, tensors of its element type, and a queue, in each column, tensors of the
    column's. Every operation on them upholds this, if the tensors that it is given are of types that their names tell
    apart, so the tensors that are stacked or tied for an answer are always of one type. Where there are none, the
    objects answer with an empty tensor instead. -/

namespace Dataflow

/-- A tensor that is handed over is of a type in a family. -/
def Value.Within (T : DType.Family) (v : Value) : Prop := ∀ x, v = .tensor x → x.dtype ∈ T

namespace Tensor

/-- A tensor of the element type in a family that a value names. -/
structure Typed (T : DType.Family) (d : Value) (x : Tensor) : Prop where
  name : d = .text x.dtype.name
  mem : x.dtype ∈ T

/-- Tensors of the type of one name are of one type. -/
theorem oneType_of_typed {T : DType.Family} {d : Value} {xs : List Tensor} (h : ∀ x ∈ xs, x.Typed T d) :
    OneType xs := by
  cases xs with
  | nil => exact .nil
  | cons x xs =>
    refine ⟨x.dtype, fun y hy => ?_⟩
    have hx := h x List.mem_cons_self
    have hname : d = .text y.dtype.name := (h y hy).name
    exact DType.Family.eq_of_mem (h y hy).mem hx.mem (Value.text.inj (hname.symm.trans hx.name))

end Tensor

namespace TensorArray

open Dataflow.Action (Upholds Answers Beside)

/-- An array of an element type, and in its slots no tensor of another one. -/
structure Holding (T : DType.Family) (d : Value) (a : TensorArray) : Prop where
  dtype : a.dtype = d
  held : ∀ slot ∈ a.slots, ∀ x, slot.tensor = some x → x.Typed T d

variable {T : DType.Family} {d : Value} {a : TensorArray}

namespace Holding

theorem onSlot (h : a.Holding T d) (k : Nat) {f : Slot → Slot}
    (hf : ∀ slot x, (f slot).tensor = some x → x.Typed T d ∨ slot.tensor = some x) : (a.onSlot k f).Holding T d where
  dtype := h.dtype
  held slot hslot x hx := by
    obtain ⟨j, hj⟩ := List.mem_iff_getElem?.mp hslot
    rw [TensorArray.onSlot, List.getElem?_modify] at hj
    obtain ⟨old, hold, rfl⟩ := Option.map_eq_some_iff.mp hj
    have hkept := h.held old (List.mem_of_getElem? hold)
    split at hx
    · exact (hf old x hx).elim (fun h => h) (hkept x)
    · exact hkept x hx

theorem growBy (h : a.Holding T d) (n : Nat) : (a.growBy n).Holding T d where
  dtype := h.dtype
  held slot hslot x hx := by
    rcases List.mem_append.mp hslot with hslot | hslot
    · exact h.held slot hslot x hx
    · rw [List.eq_of_mem_replicate hslot] at hx
      cases hx

theorem pin (h : a.Holding T d) (s : Shape) : (a.pin s).Holding T d := by
  unfold TensorArray.pin
  split
  · exact ⟨h.dtype, h.held⟩
  · exact h

end Holding

@[grind .] theorem upholds_refuse {α : Type} (cause : ArrayRefusal) :
    (refuse cause : Action TensorArray α).Upholds (Holding T d) := by
  unfold refuse
  grind

theorem not_answers_refuse {α : Type} {cause : ArrayRefusal} {x : α} {I : TensorArray → Prop} :
    ¬(refuse cause : Action TensorArray α).Answers I x := fun ⟨_, _, h⟩ => nomatch h

@[grind .] theorem upholds_requireOpen : requireOpen.Upholds (Holding T d) := by
  unfold requireOpen
  grind

@[grind .] theorem upholds_openSize : openSize.Upholds (Holding T d) := by
  unfold openSize
  grind

@[grind .] theorem upholds_requireElementType (operation : String) (x : Value) :
    (requireElementType operation x).Upholds (Holding T d) := by
  unfold requireElementType
  grind

/-- A tensor that passes the check of an array is of the array's element type. -/
theorem of_requireElementType {operation : String} {x : Tensor} {s : Shape}
    (h : (requireElementType operation (.tensor x)).Answers (Holding T d) s) :
    (d ≠ .nothing → d = .text x.dtype.name) ∧ s = x.shape := by
  obtain ⟨a, ha, h⟩ := h
  have hcheck : checkElementType a.dtype (.tensor x) (a.label operation) = .ok s := h
  obtain ⟨hdtype, hshape⟩ := of_checkElementType hcheck
  exact ⟨fun hd => name_of_checkDType hd (ha.dtype ▸ hdtype), hshape⟩

@[grind .] theorem upholds_checkReadIndex (i : Value) : (checkReadIndex i).Upholds (Holding T d) := by
  unfold checkReadIndex
  grind

@[grind .] theorem upholds_checkWriteIndex (i : Value) : (checkWriteIndex i).Upholds (Holding T d) := by
  unfold checkWriteIndex
  grind [Holding.growBy]

@[grind .] theorem upholds_placeOf (i : Value) : (placeOf i).Upholds (Holding T d) := by
  unfold placeOf
  grind

theorem Holding.released (k : Nat) (a : TensorArray) (h : a.Holding T d) :
    (if a.clearAfterRead then a.onSlot k .release else a).Holding T d := by
  split
  · exact h.onSlot k fun _ x hx => (Option.some_ne_none x hx.symm).elim
  · exact h

theorem upholds_read (i : Value) : (read i).Upholds (Holding T d) := by
  refine .bind upholds_requireOpen fun _ _ => .bind (upholds_checkReadIndex i) fun _ _ =>
    .bind (.lift (Value.unbroken_position i)) fun k _ => .bind .state fun a _ => ?_
  split
  · exact .throw rfl
  refine .check (upholds_refuse _) fun _ _ => ?_
  split
  · exact upholds_refuse _
  · exact .bind (.modify (Holding.released _)) fun _ _ => .pure _

theorem typed_of_read {i : Value} {x : Tensor} (h : (read i).Answers (Holding T d) x) : x.Typed T d := by
  obtain ⟨⟨⟩, -, h⟩ := h.of_bind upholds_requireOpen
  obtain ⟨⟨⟩, -, h⟩ := h.of_bind (upholds_checkReadIndex i)
  obtain ⟨k, -, h⟩ := h.of_bind (.lift (Value.unbroken_position i))
  obtain ⟨a, ha, h⟩ := h.of_bind .state
  split at h
  · exact h.of_throw.elim
  rename_i slot hslot
  have h := Answers.of_check h (upholds_refuse _) fun _ => not_answers_refuse
  split at h
  · exact (not_answers_refuse h).elim
  rename_i y hy
  obtain ⟨⟨⟩, -, h⟩ := h.of_bind (.modify (Holding.released _))
  obtain rfl : y = x := h.of_pure
  exact ha.of_state.held slot (List.mem_of_getElem? hslot) y hy

theorem upholds_write (hd : d ≠ .nothing) (i : Value) {x : Value} (hx : x.Within T) :
    (write i x).Upholds (Holding T d) := by
  refine .bind upholds_requireOpen fun _ _ => .bind (upholds_requireElementType "write" x) fun shape hshape =>
    .bind .state fun a _ => .bind (.lift (unbroken_checkShape _ _ _)) fun _ _ =>
    .bind (upholds_checkWriteIndex i) fun _ _ => .bind (.modify fun a ha => ha.pin shape) fun _ _ =>
    .bind (upholds_placeOf i) fun k _ => .bind (.lift (Value.unbroken_toTensor x)) fun t ht =>
    .modify fun a ha => ha.onSlot k fun slot y hy => .inl ?_
  cases hy
  obtain rfl := Value.eq_tensor ht.of_lift
  exact ⟨(of_requireElementType hshape).1 hd, hx t rfl⟩

theorem upholds_readEach (is : List Value) : (readEach is).Upholds (Holding T d) := by
  induction is with
  | nil => exact .pure []
  | cons i is ih => exact .bind (upholds_read i) fun _ _ => .bind ih fun _ _ => .pure _

theorem of_readEach {is : List Value} {xs : List Tensor} (h : (readEach is).Answers (Holding T d) xs) :
    xs.length = is.length ∧ ∀ x ∈ xs, x.Typed T d := by
  induction is generalizing xs with
  | nil =>
    obtain ⟨a, -, h⟩ := h
    cases h
    simp
  | cons i is ih =>
    obtain ⟨x, hx, h⟩ := h.of_bind (upholds_read i)
    obtain ⟨ys, hys, h⟩ := h.of_bind (upholds_readEach is)
    obtain ⟨a, -, h⟩ := h
    cases h
    obtain ⟨hlength, htyped⟩ := ih hys
    exact ⟨congrArg (· + 1) hlength, List.forall_mem_cons.mpr ⟨typed_of_read hx, htyped⟩⟩

theorem upholds_writeEach (hd : d ≠ .nothing) {writes : List (Value × Value)} (h : ∀ w ∈ writes, w.2.Within T) :
    (writeEach writes).Upholds (Holding T d) := by
  induction writes with
  | nil => exact .pure ()
  | cons w writes ih =>
    obtain ⟨hw, hrest⟩ := List.forall_mem_cons.mp h
    exact .bind (upholds_write hd w.1 hw) fun _ _ => ih hrest

/-- Tensors that are of the type of one that is handed over are written like this one. -/
theorem upholds_writeParts (hd : d ≠ .nothing) (is : List Value) {x : Tensor} {ys : List Tensor}
    (hx : x.dtype ∈ T) (hys : ∀ y ∈ ys, y.dtype = x.dtype) :
    (writeEach (is.zip (ys.map .tensor))).Upholds (Holding T d) := by
  refine upholds_writeEach hd fun w hw z hz => ?_
  obtain ⟨y, hy, hyz⟩ := List.mem_map.mp (List.of_mem_zip hw).2
  obtain rfl : y = z := Value.tensor.inj (hyz.trans hz)
  exact hys y hy ▸ hx

theorem upholds_scatter (hd : d ≠ .nothing) (indices : Value) {x : Value} (hx : x.Within T) :
    (scatter indices x).Upholds (Holding T d) := by
  refine .bind upholds_requireOpen fun _ _ => .bind (upholds_requireElementType "scatter" x) fun shape hshape =>
    .bind (.lift (Value.unbroken_items indices)) fun is _ => .check (upholds_refuse _) fun _ hcount => ?_
  split
  · exact .pure ()
  rename_i i rest _
  have hhead : shape.head? = some (i :: rest).length := by
    by_contra hne
    exact not_answers_refuse (hcount hne)
  have hrows : (do
      let t ← (liftM x.toTensor : Action TensorArray Tensor)
      let rows ← liftM (t.rowsUpTo (i :: rest).length)
      writeEach ((i :: rest).zip (rows.map .tensor))).Upholds (Holding T d) := by
    refine .bind (.lift (Value.unbroken_toTensor x)) fun t ht =>
      .bind (.lift (Tensor.unbroken_rowsUpTo t _)) fun rows hrows => ?_
    obtain rfl := Value.eq_tensor ht.of_lift
    obtain rfl := (of_requireElementType hshape).2
    obtain ⟨s, hs⟩ := List.head?_eq_some_iff.mp hhead
    exact upholds_writeParts hd _ (hx t rfl) fun y hy => (Tensor.isRow_rowsUpTo hs hrows.of_lift hy).dtype
  refine .bind (.lift (Value.unbroken_greatest i rest)) fun last _ => .bind .state fun a _ => ?_
  split
  · exact .bind (.lift (Value.unbroken_atLeast _ _)) fun _ _ => .check (upholds_refuse _) fun _ _ => hrows
  · exact hrows

theorem upholds_split (hd : d ≠ .nothing) (lengths : Value) {x : Value} (hx : x.Within T) :
    (split lengths x).Upholds (Holding T d) := by
  refine .bind upholds_requireOpen fun _ _ => .bind (upholds_requireElementType "split" x) fun shape _ => ?_
  split
  · exact upholds_refuse _
  refine .bind (.lift (Value.unbroken_wholeParts lengths)) fun ns _ => ?_
  have hparts : (do
      let a ← (get : Action TensorArray TensorArray)
      if !a.dynamicSize.truth && a.size < ns.length then refuse (.chunkCount ns.length a.size)
      let t ← liftM x.toTensor
      let parts ← liftM (t.split (.int 0) ns)
      writeEach ((TensorArray.indices (List.range ns.length)).zip (parts.map .tensor))).Upholds (Holding T d) :=
    .bind .state fun a _ => .check (upholds_refuse _) fun _ _ =>
      .bind (.lift (Value.unbroken_toTensor x)) fun t ht => .bind (.lift (Tensor.unbroken_split t _ ns)) fun parts h =>
      upholds_writeParts hd _ (hx t (Value.eq_tensor ht.of_lift)) fun y hy => Tensor.dtype_split h.of_lift hy
  exact .ite (fun _ => .bind (.lift (Value.unbroken_formatted _)) fun _ _ => .bind (upholds_refuse _) fun _ _ => hparts)
    fun _ => hparts

/-! ### Operations that may create a tensor -/

open Session (Named)

@[grind .] theorem upholds_checkAsked (operation : String) (dtype : Value) :
    (checkAsked operation dtype).Upholds (Holding T d) := by
  unfold checkAsked
  grind

@[grind .] theorem upholds_nothingOf (dropFirst : Bool) :
    (nothingOf dropFirst).Upholds (Beside Named (Holding T d)) := by
  unfold nothingOf
  grind

theorem upholds_gather (indices dtype : Value) : (gather indices dtype).Upholds (Beside Named (Holding T d)) := by
  refine .bind (.onSecond upholds_requireOpen) fun _ _ =>
    .bind (.onSecond (upholds_checkAsked "gather" dtype)) fun _ _ =>
    .bind (.lift (Value.unbroken_items indices)) fun is _ => .ite (fun _ => upholds_nothingOf false) fun his => ?_
  refine .bind (.onSecond (upholds_readEach is)) fun xs hxs => ?_
  obtain ⟨hlength, htyped⟩ := of_readEach hxs.of_onSecond
  -- The answer without indices is an empty tensor, so here an element has been read.
  refine .lift (Tensor.unbroken_stack _ ?_ (Tensor.oneType_of_typed htyped))
  exact List.ne_nil_of_length_pos (by rwa [hlength, List.length_pos_iff, ne_eq, ← List.isEmpty_iff])

theorem upholds_concat (dtype : Value) : (concat dtype).Upholds (Beside Named (Holding T d)) := by
  refine .bind (.onSecond upholds_requireOpen) fun _ _ =>
    .bind (.onSecond (upholds_checkAsked "concat" dtype)) fun _ _ =>
    .bind .state fun p _ => .ite (fun _ => upholds_nothingOf true) fun hheld => ?_
  refine .bind (.onSecond (upholds_readEach _)) fun xs hxs => .check (.onSecond (upholds_refuse _)) fun _ _ => ?_
  obtain ⟨hlength, htyped⟩ := of_readEach hxs.of_onSecond
  refine .lift (Tensor.unbroken_tie _ ?_ (Tensor.oneType_of_typed htyped))
  have hsome : p.2.held ≠ [] := by simpa using hheld
  exact List.ne_nil_of_length_pos (by rwa [hlength, TensorArray.indices, List.length_map, List.length_pos_iff])

theorem upholds_clearAndClose : clearAndClose.Upholds (Beside Named (Holding T d)) := by
  have hclosed (p : Session × TensorArray) (hp : Beside Named (Holding T d) p) :
      Beside Named (Holding T d) (p.1, { p.2 with slots := [], closed := true }) := ⟨hp.1, hp.2.dtype, nofun⟩
  unfold clearAndClose closedLine
  grind

end TensorArray

/-! ### Queues -/

namespace Queue

open Dataflow.Action (Upholds Beside)
open Session (Named)

/-- A tuple with a tensor for every column, of the column's element type. -/
structure Columned (T : DType.Family) (ds : List Value) (t : List Tensor) : Prop where
  length : t.length = ds.length
  typed : ∀ (k : Nat) d x, ds[k]? = some d → t[k]? = some x → x.Typed T d

/-- A queue with columns of some element types, and in its tuples no tensor of another type than its column's. -/
structure Holding (T : DType.Family) (ds : List Value) (q : Queue) : Prop where
  dtypes : q.dtypes = ds
  shapes : q.shapes.length = ds.length
  held : ∀ t ∈ q.tuples, Columned T ds t

variable {T : DType.Family} {ds : List Value} {q : Queue}

/-! ### Putting tuples in -/

@[grind .] theorem unbroken_checkComponents (q : Queue) (k : Nat) (cs : List (Value × Value × PartialShape Nat)) :
    (q.checkComponents k cs).Unbroken := by
  fun_induction checkComponents q k cs <;> grind

theorem unbroken_admitted (q : Queue) (xs : List Value) : (q.admitted xs).Unbroken := by
  unfold admitted refusal bounded
  grind

theorem columned_of_admitted (hq : q.Holding T ds) (hds : ∀ d ∈ ds, d ≠ .nothing) {xs : List Value}
    (hxs : ∀ x ∈ xs, x.Within T) {ts : List Tensor} (h : q.admitted xs = .ok ts) : Columned T ds ts := by
  have hdtypes := hq.dtypes
  subst hdtypes
  obtain ⟨rfl, hlength, -⟩ := admitted_ok h
  refine ⟨hlength, fun k d x hd hx => ?_⟩
  obtain ⟨shape, hin⟩ := letsIn_of_admitted h hq.shapes hd hx
  obtain ⟨what, hdtype⟩ := hin.dtype
  exact ⟨name_of_checkDType (hds d (List.mem_of_getElem? hd)) hdtype,
    hxs _ (List.mem_map_of_mem (List.mem_of_getElem? hx)) x rfl⟩

theorem upholds_enqueue (hds : ∀ d ∈ ds, d ≠ .nothing) {xs : List Value} (hxs : ∀ x ∈ xs, x.Within T) :
    (enqueue xs).Upholds (Holding T ds) where
  keeps q hq := by
    rw [enqueue_eq]
    cases hadmitted : q.admitted xs with
    | error e => exact hq
    | ok ts =>
      refine ⟨hq.dtypes, hq.shapes, fun t ht => ?_⟩
      rcases List.mem_append.mp ht with ht | ht
      · exact hq.held t ht
      · exact List.mem_singleton.mp ht ▸ columned_of_admitted hq hds hxs hadmitted
  unbroken q _ := by
    have hunbroken := q.unbroken_admitted xs
    rw [enqueue_eq]
    cases hadmitted : q.admitted xs with
    | error e => grind
    | ok ts => exact Outcome.unbroken_ok ()

/-! ### Taking tuples out -/

@[grind .] theorem unbroken_checkAsked (q : Queue) (k : Nat) (cs : List (Value × Value)) :
    (q.checkAsked k cs).Unbroken := by
  fun_induction checkAsked q k cs <;> grind

theorem unbroken_due (q : Queue) (num dtypes : Value) : (q.due num dtypes).Unbroken := by
  unfold due checkDTypes takenFor refusal
  grind

@[grind .] theorem unbroken_takenLine (n : Nat) (num : Value) (q : Queue) : (takenLine n num q).Unbroken := by
  unfold takenLine
  grind

/-- The tensors in one column of tuples that fit are of one type, and there are some if there are tuples. -/
theorem unbroken_column {tuples : List (List Tensor)} (hne : tuples ≠ []) (h : ∀ t ∈ tuples, Columned T ds t)
    {k : Nat} (hk : k < ds.length) : (column tuples k).Unbroken := by
  have htyped : ∀ x ∈ tuples.filterMap (·[k]?), x.Typed T ds[k] := fun x hx => by
    obtain ⟨t, ht, hx⟩ := List.mem_filterMap.mp hx
    exact (h t ht).typed k _ x (List.getElem?_eq_getElem hk) hx
  refine Tensor.unbroken_stack _ ?_ (Tensor.oneType_of_typed htyped)
  obtain ⟨t, ht⟩ := List.exists_mem_of_ne_nil tuples hne
  have hlength : k < t.length := (h t ht).length ▸ hk
  exact List.ne_nil_of_mem (List.mem_filterMap.mpr ⟨t, ht, List.getElem?_eq_getElem hlength⟩)

theorem upholds_collected (hq : q.Holding T ds) {tuples : List (List Tensor)} (h : ∀ t ∈ tuples, Columned T ds t) :
    (q.collected tuples).Upholds Named := by
  refine .ite (fun _ => .mapM fun c _ => Session.upholds_empty _ _ _) fun hne => .lift (.mapM fun k hk => ?_)
  exact unbroken_column (by simpa using hne) h (hq.dtypes ▸ List.mem_range.mp hk)

theorem upholds_served (hq : q.Holding T ds) (n : Nat) (num : Value) : (q.served n num).Upholds Named :=
  .bind (Session.upholds_record .queue (unbroken_takenLine n num _)) fun _ _ =>
    upholds_collected hq fun t ht => hq.held t (List.mem_of_mem_take ht)

theorem upholds_dequeueUpTo (num dtypes : Value) :
    (dequeueUpTo num dtypes).Upholds (Beside Named (Holding T ds)) where
  keeps := by
    rintro ⟨s, q⟩ ⟨hs, hq⟩
    rw [dequeueUpTo_served]
    cases q.due num dtypes with
    | error e => exact ⟨hs, hq⟩
    | ok n =>
      have hkept : (q.drop n).Holding T ds :=
        ⟨hq.dtypes, hq.shapes, fun t ht => hq.held t (List.mem_of_mem_drop ht)⟩
      exact ⟨(upholds_served hq n num).keeps s hs, hkept⟩
  unbroken := by
    rintro ⟨s, q⟩ ⟨hs, hq⟩
    have hunbroken := q.unbroken_due num dtypes
    rw [dequeueUpTo_served]
    cases hdue : q.due num dtypes with
    | error e => grind
    | ok n => exact (upholds_served hq n num).unbroken s hs

/-! ### Making -/

theorem holding_of_make {s : Session} {spec : Spec} (hs : s.Named) (h : make s spec = .ok q) :
    (∀ d ∈ q.dtypes, d ≠ .nothing) ∧ q.Holding T q.dtypes := by
  have hfresh := fresh_of_make h
  refine ⟨fun d hd => ?_, rfl, hfresh.shapes, fun t ht => ?_⟩
  · obtain ⟨i, hi⟩ := hfresh.dtypes d hd
    exact hs.ne_nothing hi
  · rw [hfresh.tuples] at ht
    cases ht

theorem unbroken_make (s : Session) (spec : Spec) : (make s spec).Unbroken := by
  unfold make columnShapes
  grind

end Queue

end Dataflow
