import Dataflow.Proofs.Visits
import Dataflow.Proofs.WhileGraph

/-! While loops compute. During an iteration the array holds what the body has made so far, the merge finds the tensor of
    the pass, and the values from outside the loop are seen as they were; a pass takes this from one iteration to the
    next. -/

namespace Dataflow.WhileLoop

open Activation (contextId)
open Conditional (outputOf outputsOf)

variable {w : WhileLoop} {k : Nat} {a b : Activation} {r : Run} {x : Tensor}

theorem after_succ (w : WhileLoop) (k : Nat) : w.after (k + 1) = w.body (w.after k) := rfl

theorem dtype_after (w : WhileLoop) (k : Nat) : (w.after k).dtype.name = w.dtype := by
  induction k with
  | zero => exact w.dtype_start
  | succ k ih => exact w.dtype_body _ ih

/-! ### The array -/

/-- How the array is made. -/
def making (w : WhileLoop) : TensorArray.Making := ⟨"acc", w.dtype, 0, none, false, true, false⟩

/-- The array after so many passes. -/
def array (w : WhileLoop) (k : Nat) : TensorArray :=
  { Context.numbered 0 w.making.array with slots := (List.range k).map fun i => ⟨some (w.after (i + 1)), false⟩ }

theorem size_array (w : WhileLoop) (k : Nat) : (w.array k).size = k := by
  show ((List.range k).map _).length = k
  rw [List.length_map, List.length_range]

theorem slots_array (w : WhileLoop) {i : Nat} (hi : i < k) :
    (w.array k).slots[i]? = some ⟨some (w.after (i + 1)), false⟩ := by
  show ((List.range k).map _)[i]? = _
  rw [List.getElem?_map, List.getElem?_range hi]
  rfl

theorem writable_array (w : WhileLoop) (k : Nat) : (w.array k).writable k (w.after (k + 1)) = .ok () := by
  have hdtype : (w.array k).dtype = .text w.dtype := rfl
  rw [TensorArray.writable_eq_ok hdtype]
  exact ⟨rfl, w.dtype_after _, rfl, Int.natCast_nonneg k, Or.inr rfl⟩

theorem written_array (w : WhileLoop) (k : Nat) : (w.array k).written k (w.after (k + 1)) = w.array (k + 1) := by
  have hshape : ((w.array k).written k (w.after (k + 1))).elementShape = (w.array k).elementShape := by
    rw [TensorArray.elementShape_written]
    rfl
  have hslots : ((w.array k).written k (w.after (k + 1))).slots = (w.array (k + 1)).slots := by
    refine List.ext_getElem? fun i => ?_
    rw [TensorArray.slots_written, size_array]
    rcases Nat.lt_trichotomy i k with hi | rfl | hi
    · rw [if_neg (by omega), if_pos hi, slots_array w hi, slots_array w (by omega)]
    · rw [if_pos rfl, slots_array w (by omega)]
    · have hlength : (w.array (k + 1)).slots.length ≤ i := by
        show (w.array (k + 1)).size ≤ i
        rw [size_array]
        exact hi
      rw [if_neg (by omega), if_neg (by omega), if_neg (by omega), List.getElem?_eq_none hlength]
  rw [TensorArray.written_with, hshape, hslots]
  rfl

/-! ### The invariant -/

/-- The nodes that store their outputs inside the loop alone. -/
inductive Inner where
  | merge | less | cond | switch | add | index | write | next

def Inner.name : Inner → String
  | .merge => "merge"
  | .less => "less"
  | .cond => "cond"
  | .switch => "switch"
  | .add => "add"
  | .index => "index"
  | .write => "write"
  | .next => "next"

/-- The nodes that store outputs outside of the loop. -/
inductive Outer where
  | start | size | acc | enter | exit

def Outer.name : Outer → String
  | .start => "start"
  | .size => "size"
  | .acc => "acc"
  | .enter => "enter"
  | .exit => "exit"

theorem Inner.plain (i : Inner) : Edge.Plain i.name := by
  refine Edge.plain_of_notMem ?_
  cases i <;> decide

theorem Outer.plain (o : Outer) : Edge.Plain o.name := by
  refine Edge.plain_of_notMem ?_
  cases o <;> decide

theorem Inner.name_inj {i j : Inner} : i.name = j.name ↔ i = j := by
  cases i <;> cases j <;> simp [name]

theorem Outer.name_inj {o p : Outer} : o.name = p.name ↔ o = p := by
  cases o <;> cases p <;> simp [name]

theorem Outer.name_ne_name {o p : Outer} (h : o ≠ p) : o.name ≠ p.name := fun hname => h (name_inj.mp hname)

theorem Outer.name_ne_inner (o : Outer) (i : Inner) : o.name ≠ i.name := by
  cases o <;> cases i <;> simp [name, Inner.name]

/-- The run during an iteration of the loop, in which the body has been run so many times. -/
structure During (w : WhileLoop) (a : Activation) (k : Nat) (r : Run) : Prop where
  session : r.session.Ready
  current : r.context.At [a]
  frame : a.name = w.frame
  arrays : r.context.arrays = [w.array k]
  handle : ∃ y o, r.values.lookup (Edge.key "acc" (contextId [])) = some (some y :: o) ∧ y.ReadsAs 0
  handleOutside : ∀ b, r.values.lookup (Edge.key "acc" (contextId [b])) = none
  notEntered : r.values.lookup (Edge.key "enter" (contextId [])) = none
  enteredOnce : ∀ b, b.name = w.frame → b.iteration ≠ 0 → r.values.lookup (Edge.key "enter" (contextId [b])) = none

/-- The merge finds a tensor. -/
def Merges (r : Run) (x : Tensor) : Prop :=
  Visit.firstValue r.values r.context.ids mergeNode.inputs = .ok (some x)

theorem merges_of_seen_enter (h : r.seen "enter" = some [some x]) : Merges r x := by
  have henter : r.values.get r.context.ids "enter" = .ok (some x) := Run.get_seen rfl h rfl
  simp only [Merges, mergeNode, Visit.firstValue, henter, Outcome.ok_bind, Outcome.pure_eq]

theorem merges_of_seen_next (hunseen : r.seen "enter" = none) (h : r.seen "next" = some [some x]) : Merges r x := by
  have henter : r.values.get r.context.ids "enter" = .ok none := Run.get_unseen rfl hunseen
  have hnext : r.values.get r.context.ids "next" = .ok (some x) := Run.get_seen rfl h rfl
  simp only [Merges, mergeNode, Visit.firstValue, henter, hnext, Outcome.ok_bind, Outcome.pure_eq]

theorem During.stored (h : During w a k r) (i : Inner) (o : Outputs) : During w a k (r.stored i.name o) := by
  have hkeep : ∀ (p : Outer) bs, (r.stored i.name o).values.lookup (Edge.key p.name (contextId bs)) =
      r.values.lookup (Edge.key p.name (contextId bs)) :=
    fun p => Run.lookup_stored_of_ne h.current p.plain i.plain (p.name_ne_inner i) o
  obtain ⟨y, ys, hlookup, hreads⟩ := h.handle
  exact ⟨h.session, h.current, h.frame, h.arrays, ⟨y, ys, (hkeep .acc _).trans hlookup, hreads⟩,
    fun b => (hkeep .acc _).trans (h.handleOutside b), (hkeep .enter _).trans h.notEntered,
    fun b hb hfirst => (hkeep .enter _).trans (h.enteredOnce b hb hfirst)⟩

theorem During.seen_stored (h : During w a k r) (i j : Inner) (hij : i ≠ j) (o : Outputs) :
    (r.stored j.name o).seen i.name = r.seen i.name :=
  Run.seen_stored_of_ne h.current i.plain j.plain (fun hname => hij (Inner.name_inj.mp hname)) o

theorem prefix_singleton {cs : List Activation} (h : cs <+: [a]) : cs = [] ∨ cs = [a] := by
  rcases List.prefix_cons_iff.mp h with rfl | ⟨t, rfl, ht⟩
  · exact Or.inl rfl
  · exact Or.inr (by rw [List.prefix_nil.mp ht])

theorem During.seen_acc (h : During w a k r) : ∃ y o, r.seen "acc" = some (some y :: o) ∧ y.ReadsAs 0 := by
  obtain ⟨y, o, hlookup, hreads⟩ := h.handle
  refine ⟨y, o, ?_, hreads⟩
  rw [Run.seen, h.current.ids_eq]
  refine Values.find?_ids_eq_some List.nil_prefix (List.cons_ne_nil _ _) hlookup fun cs o' hcs ho' hne => ?_
  rcases prefix_singleton hcs with rfl | rfl
  · exact Nat.le_refl _
  · -- No iteration has a number of its own that would hide the array's.
    rw [h.handleOutside a] at ho'
    cases ho'

/-- The tensor that the loop was entered with is not seen after the first iteration. -/
theorem During.seen_enter (h : During w a k r) (hfirst : a.iteration ≠ 0) : r.seen "enter" = none := by
  rw [Run.seen, h.current.ids_eq]
  refine Values.find?_ids_eq_none fun cs o hcs ho => ?_
  rcases prefix_singleton hcs with rfl | rfl
  · rw [h.notEntered] at ho
    cases ho
  · rw [h.enteredOnce a h.frame hfirst] at ho
    cases ho

/-! ### Passes -/

theorem outputsOf_ok {n : Node} {o : Outputs} {t : Run} (h : Run.visit n r = (.ok (some o), t)) :
    outputsOf n r = (.ok o, t) := by
  rw [outputsOf, Action.bind_ok h]
  rfl

theorem outputOf_ok {n : Node} {t : Run} (h : Run.visit n r = (.ok (some [some x]), t)) :
    outputOf n r = (.ok x, t) := by
  rw [outputOf, Action.bind_ok (outputsOf_ok h)]
  rfl

/-- The outputs of the switch for a tensor. -/
def switched (w : WhileLoop) (x : Tensor) : Outputs := if w.goesOn x then [none, some x] else [some x, none]

/-- The first half of a pass stores the tensor at one of the two outputs of the switch. -/
theorem toSwitch_ok (h : During w a k r) (hx : Merges r x) (hdtype : x.dtype.name = w.dtype) :
    ∃ t, w.toSwitch r = (.ok (if w.goesOn x then some x else none), t) ∧ During w a k t ∧
      t.seen "switch" = some (w.switched x) := by
  let r₁ := r.stored "merge" [some x]
  let r₂ := r₁.stored "less" [some (w.condition x)]
  let r₃ := r₂.stored "cond" [some (w.condition x)]
  have h₁ : During w a k r₁ := h.stored .merge _
  have h₂ : During w a k r₂ := h₁.stored .less _
  have h₃ : During w a k r₃ := h₂.stored .cond _
  have hmerge : Run.visit mergeNode r = (.ok (some [some x]), r₁) :=
    Run.visit_ok h.current.ids_ne_nil (Node.visit_merge rfl hx)
  have hless : r₂.seen "less" = some [some (w.condition x)] := Run.seen_stored_self h₁.current (by simp)
  have hcond : Run.visit condNode r₂ = (.ok (some [some (w.condition x)]), r₃) :=
    Run.visit_ok h₂.current.ids_ne_nil (Node.visit_loopCond rfl (Run.required_seen rfl rfl rfl hless rfl))
  have hpred : r₃.seen "cond" = some [some (w.condition x)] := Run.seen_stored_self h₂.current (by simp)
  have hdata : r₃.seen "merge" = some [some x] :=
    calc r₃.seen "merge" = r₂.seen "merge" := h₂.seen_stored .merge .cond (nomatch ·) _
      _ = r₁.seen "merge" := h₁.seen_stored .merge .less (nomatch ·) _
      _ = some [some x] := Run.seen_stored_self h.current (by simp)
  have hswitch : Run.visit switchNode r₃ = (.ok (some (w.switched x)), r₃.stored "switch" (w.switched x)) :=
    Run.visit_ok h₃.current.ids_ne_nil (Node.visit_switch rfl (Run.required_seen rfl rfl rfl hpred rfl)
      (w.readable_condition x hdtype) (Run.required_seen rfl rfl rfl hdata rfl))
  have hne : w.switched x ≠ [] := by
    unfold switched
    split <;> simp
  refine ⟨r₃.stored "switch" (w.switched x), ?_, h₃.stored .switch _, Run.seen_stored_self h₃.current hne⟩
  rw [toSwitch, Action.bind_ok (outputOf_ok hmerge), Action.bind_ok (Run.store_apply h₁.current.ids_ne_nil _ _),
    Action.bind_ok hcond, Action.bind_ok (outputsOf_ok hswitch), switched]
  split <;> rfl

theorem visit_write (h : During w a k r) (hcount : (w.counter k).Counts k)
    (hindex : r.seen "index" = some [some (w.counter k)]) (hadd : r.seen "add" = some [some (w.after (k + 1))]) :
    ∃ z t, Run.visit writeNode r = (.ok (some [some z]), t) ∧ During w a (k + 1) t ∧
      t.seen "add" = some [some (w.after (k + 1))] := by
  obtain ⟨y, o, hacc, hreads⟩ := h.seen_acc
  have hslot : r.context.arrays[0]? = some (w.array k) := by rw [h.arrays]; rfl
  have hnumber : writeNode.intParam r.values r.context.ids "tensorArrayId" = .ok (0 : Nat) :=
    Run.intParam_seen rfl rfl (Edge.ofName_of_notMem (by decide)) hacc rfl hreads
  have hplace : writeNode.intParam r.values r.context.ids "index" = .ok k :=
    Run.intParam_seen rfl rfl (Edge.ofName_of_notMem (by decide)) hindex rfl hcount.readsAs
  have htensor : writeNode.required r.values r.context.ids "tensor" = .ok (.tensor (w.after (k + 1))) :=
    Run.required_seen rfl rfl rfl hadd rfl
  obtain ⟨z, u, hvisit, hu⟩ := Node.visit_tensorArrayWrite rfl h.session hnumber hslot hplace htensor
    (w.writable_array k)
  have harrays : r.context.arrays.set 0 ((w.array k).written (Int.toNat k) (w.after (k + 1))) = [w.array (k + 1)] := by
    rw [h.arrays, Int.toNat_natCast, written_array]
    rfl
  rw [harrays] at hvisit
  let t : Run := ⟨u, r.context.withArrays [w.array (k + 1)], r.values⟩
  have ht : During w a (k + 1) t :=
    ⟨hu, ⟨h.current.frames_eq, h.current.ids_eq⟩, h.frame, rfl, h.handle, h.handleOutside, h.notEntered, h.enteredOnce⟩
  exact ⟨z, t.stored "write" [some z], Run.visit_ok ht.current.ids_ne_nil hvisit, ht.stored .write _,
    (ht.seen_stored .add .write (nomatch ·) _).trans hadd⟩

theorem visit_next (h : During w a k r) (ha : a.iteration + 1 < 10 ^ Text.longestNumeral)
    (hadd : r.seen "add" = some [some x]) :
    ∃ b t, Run.visit nextNode r = (.ok (some [some x]), t) ∧ b.iteration = a.iteration + 1 ∧ During w b k t ∧
      Merges t x := by
  let b := a.next r.context.lastId ha
  let t : Run := ⟨r.session, r.context.movedTo [b] (r.context.lastId + 1), r.values⟩
  have hcurrent : r.context.At ([] ++ [a]) := h.current
  have ht : During w b k t :=
    ⟨h.session, Context.at_movedTo _ _ _, h.frame, h.arrays, h.handle, h.handleOutside, h.notEntered, h.enteredOnce⟩
  have hvisit : Run.visit nextNode r = (.ok (some [some x]), t.stored "next" [some x]) :=
    Run.visit_ok ht.current.ids_ne_nil
      (Node.visit_nextIteration rfl hcurrent ha (Run.required_seen rfl rfl rfl hadd rfl))
  have hstored : During w b k (t.stored "next" [some x]) := ht.stored .next _
  have hlater : b.iteration ≠ 0 := Nat.succ_ne_zero a.iteration
  exact ⟨b, t.stored "next" [some x], hvisit, rfl, hstored,
    merges_of_seen_next (hstored.seen_enter hlater) (Run.seen_stored_self ht.current (by simp))⟩

theorem succ_lt_of_counts (h : x.Counts k) : k + 1 < 10 ^ Text.longestNumeral := by
  have hword : k < 2 ^ 64 := h.natAbs_lt
  calc k + 1 ≤ 2 ^ 64 := hword
    _ < 10 ^ 64 := by decide
    _ ≤ 10 ^ Text.longestNumeral := Nat.pow_le_pow_right (by decide) (by decide)

theorem throughBody_ok (h : During w a k r) (hk : a.iteration = k) (hcount : (w.counter k).Counts k) :
    ∃ b t, w.throughBody k (w.after k) r = (.ok (), t) ∧ b.iteration = k + 1 ∧ During w b (k + 1) t ∧
      Merges t (w.after (k + 1)) := by
  let r₁ := r.stored "add" [some (w.after (k + 1))]
  let r₂ := r₁.stored "index" [some (w.counter k)]
  have h₁ : During w a k r₁ := h.stored .add _
  have h₂ : During w a k r₂ := h₁.stored .index _
  have hindex : r₂.seen "index" = some [some (w.counter k)] := Run.seen_stored_self h₁.current (by simp)
  have hadd : r₂.seen "add" = some [some (w.after (k + 1))] :=
    (h₁.seen_stored .add .index (nomatch ·) _).trans (Run.seen_stored_self h.current (by simp))
  obtain ⟨z, r₃, hwrite, h₃, hadd₃⟩ := visit_write h₂ hcount hindex hadd
  have ha : a.iteration + 1 < 10 ^ Text.longestNumeral := by
    rw [hk]
    exact succ_lt_of_counts hcount
  obtain ⟨b, r₄, hnext, hb, h₄, hx⟩ := visit_next h₃ ha hadd₃
  refine ⟨b, r₄, ?_, by rw [hb, hk], h₄, hx⟩
  rw [throughBody, ← after_succ, Action.bind_ok (Run.store_apply h.current.ids_ne_nil _ _),
    Action.bind_ok (Run.store_apply h₁.current.ids_ne_nil _ _), Action.bind_ok hwrite, Action.bind_ok hnext]
  rfl

/-- From an iteration on, the loop makes as many passes as it goes on for. -/
theorem passes_ok (m : Nat) {limit : Nat} (hlimit : m < limit) (h : During w a k r) (hk : a.iteration = k)
    (hx : Merges r (w.after k)) (hcount : ∀ i < k + m, (w.counter i).Counts i)
    (hgo : ∀ i, k ≤ i → i < k + m → w.goesOn (w.after i) = true) (hstop : w.goesOn (w.after (k + m)) = false) :
    ∃ b t, w.passes limit k r = (.ok (some (k + m)), t) ∧ During w b (k + m) t ∧
      t.seen "switch" = some [some (w.after (k + m)), none] := by
  -- By induction on the passes that remain. Each one starts in an iteration that has its own number.
  induction m generalizing k limit a r with
  | zero =>
    obtain ⟨limit, rfl⟩ := Nat.exists_eq_succ_of_ne_zero (Nat.ne_of_gt hlimit)
    obtain ⟨t, hswitch, ht, hseen⟩ := toSwitch_ok h hx (w.dtype_after k)
    rw [Nat.add_zero] at hstop ⊢
    rw [hstop] at hswitch
    rw [switched, hstop] at hseen
    refine ⟨a, t, ?_, ht, hseen⟩
    rw [passes, Action.bind_ok hswitch]
    rfl
  | succ m ih =>
    obtain ⟨limit, rfl⟩ := Nat.exists_eq_succ_of_ne_zero (Nat.ne_zero_of_lt hlimit)
    obtain ⟨t, hswitch, ht, -⟩ := toSwitch_ok h hx (w.dtype_after k)
    rw [hgo k (Nat.le_refl k) (by omega)] at hswitch
    obtain ⟨b, u, hbody, hb, hu, hxu⟩ := throughBody_ok ht hk (hcount k (by omega))
    have heq : k + (m + 1) = k + 1 + m := by omega
    rw [heq] at hcount hgo hstop ⊢
    obtain ⟨c, v, hpasses, hv, hseen⟩ := ih (Nat.lt_of_succ_lt_succ hlimit) hu hb hxu hcount
      (fun i hi => hgo i (by omega)) hstop
    refine ⟨c, v, ?_, hv, hseen⟩
    rw [passes, Action.bind_ok hswitch]
    show (w.throughBody k (w.after k) >>= fun _ => w.passes limit (k + 1)) t = _
    rw [Action.bind_ok hbody, hpasses]

/-! ### Into the loop and out of it -/

theorem counts_zero : (Tensor.scalar .host .int32 (.whole 0)).Counts 0 where
  readable := rfl
  first := rfl
  inRange := ⟨true, 32, rfl, by decide⟩

/-- The values before anything is visited. -/
def given (w : WhileLoop) (s : Session) : Run :=
  ((Run.initial s).stored "start" [some w.start]).stored "size" [some (.scalar .host .int32 (.whole 0))]

theorem at_given (w : WhileLoop) (s : Session) : (w.given s).context.At [] := Context.at_initial

theorem lookup_given (w : WhileLoop) (s : Session) (o : Outer) (hstart : o ≠ .start) (hsize : o ≠ .size)
    (bs : List Activation) : (w.given s).values.lookup (Edge.key o.name (contextId bs)) = none := by
  calc (w.given s).values.lookup (Edge.key o.name (contextId bs))
      = ((Run.initial s).stored "start" [some w.start]).values.lookup (Edge.key o.name (contextId bs)) :=
        Run.lookup_stored_of_ne Context.at_initial o.plain (Outer.plain .size) (Outer.name_ne_name hsize) _ bs
    _ = (Run.initial s).values.lookup (Edge.key o.name (contextId bs)) :=
        Run.lookup_stored_of_ne Context.at_initial o.plain (Outer.plain .start) (Outer.name_ne_name hstart) _ bs
    _ = none := rfl

theorem seen_start_given (w : WhileLoop) (s : Session) : (w.given s).seen "start" = some [some w.start] :=
  calc (w.given s).seen "start"
      = ((Run.initial s).stored "start" [some w.start]).seen "start" :=
        Run.seen_stored_of_ne Context.at_initial (Outer.plain .start) (Outer.plain .size)
          (Outer.name_ne_name (nomatch ·)) _
    _ = some [some w.start] := Run.seen_stored_self Context.at_initial (by simp)

theorem seen_size_given (w : WhileLoop) (s : Session) :
    (w.given s).seen "size" = some [some (.scalar .host .int32 (.whole 0))] :=
  Run.seen_stored_self Context.at_initial (by simp)

theorem describes_making (w : WhileLoop) (s : Session) :
    w.arrayNode.Describes (w.given s).values (w.given s).context.ids w.making where
  name := rfl
  dtype := rfl
  size := Node.intParamOr_number 0 rfl rfl (Run.get_seen rfl (w.seen_size_given s) rfl) counts_zero.readsAs
  elementShape := rfl
  identical := rfl
  dynamicSize := rfl
  clearAfterRead := rfl

/-- The run outside of the loop, when the array has been made. -/
structure Made (w : WhileLoop) (r : Run) : Prop where
  session : r.session.Ready
  current : r.context.At []
  arrays : r.context.arrays = [w.array 0]
  start : r.seen "start" = some [some w.start]
  handle : ∃ y o, r.values.lookup (Edge.key "acc" (contextId [])) = some (some y :: o) ∧ y.ReadsAs 0
  handleOutside : ∀ b, r.values.lookup (Edge.key "acc" (contextId [b])) = none
  notEntered : ∀ bs, r.values.lookup (Edge.key "enter" (contextId bs)) = none

theorem visit_array {s : Session} (hs : s.Ready) {i : DTypeInfo} (hinfo : s.dtypeInfo (.text w.dtype) = .ok i) :
    ∃ o t, Run.visit w.arrayNode (w.given s) = (.ok o, t) ∧ Made w t := by
  have hready : (w.given s).session.Ready := hs
  obtain ⟨y, z, u, hvisit, hu, hreads⟩ := Node.visit_tensorArray rfl hready rfl (w.describes_making s) hinfo
    (Int.le_refl 0)
  let t : Run := ⟨u, (w.given s).context.withArrays [w.array 0], (w.given s).values⟩
  have ht : t.context.At [] := ⟨(w.at_given s).frames_eq, (w.at_given s).ids_eq⟩
  have hkeep : ∀ o : Outer, o ≠ .acc → ∀ bs, (t.stored "acc" [some y, some z]).values.lookup
      (Edge.key o.name (contextId bs)) = (w.given s).values.lookup (Edge.key o.name (contextId bs)) :=
    fun o hacc => Run.lookup_stored_of_ne ht o.plain (Outer.plain .acc) (Outer.name_ne_name hacc) _
  refine ⟨_, t.stored "acc" [some y, some z], Run.visit_ok ht.ids_ne_nil hvisit, hu, ht, rfl, ?_,
    ⟨y, [some z], ?_, hreads⟩, fun b => ?_, fun bs => ?_⟩
  · exact (Run.seen_stored_of_ne ht (Outer.plain .start) (Outer.plain .acc) (Outer.name_ne_name (nomatch ·)) _).trans
      (w.seen_start_given s)
  · exact (Run.lookup_stored_self ht (Outer.plain .acc) _ []).trans (if_pos rfl)
  · exact (Run.lookup_stored_self ht (Outer.plain .acc) _ [b]).trans
      ((if_neg (Activation.contextId_cons_ne_nil b [])).trans (w.lookup_given s .acc (nomatch ·) (nomatch ·) [b]))
  · exact (hkeep .enter (nomatch ·) bs).trans (w.lookup_given s .enter (nomatch ·) (nomatch ·) bs)

theorem visit_enter (h : Made w r) :
    ∃ a o t, Run.visit w.enterNode r = (.ok o, t) ∧ a.iteration = 0 ∧ During w a 0 t ∧ Merges t w.start := by
  let a := Activation.first r.context.lastId w.frame
  let t : Run := ⟨r.session.recorded .context (Context.frameLine "enter" (.text w.frame) 1),
    r.context.movedTo [a] (r.context.lastId + 1), r.values⟩
  have ht : t.context.At [a] := Context.at_movedTo _ _ _
  have hvisit : Run.visit w.enterNode r = (.ok (some [some w.start]), t.stored "enter" [some w.start]) :=
    Run.visit_ok ht.ids_ne_nil (Node.visit_enter rfl h.current rfl (Run.required_seen rfl rfl rfl h.start rfl))
  have hacc : ∀ bs, (t.stored "enter" [some w.start]).values.lookup (Edge.key "acc" (contextId bs)) =
      r.values.lookup (Edge.key "acc" (contextId bs)) :=
    Run.lookup_stored_of_ne ht (Outer.plain .acc) (Outer.plain .enter) (Outer.name_ne_name (nomatch ·)) _
  -- What the loop was entered with is there under its first iteration, and nowhere else.
  have henter : ∀ bs, contextId bs ≠ contextId [a] →
      (t.stored "enter" [some w.start]).values.lookup (Edge.key "enter" (contextId bs)) = none := fun bs hbs =>
    (Run.lookup_stored_self ht (Outer.plain .enter) _ bs).trans ((if_neg hbs).trans (h.notEntered bs))
  obtain ⟨y, o, hlookup, hreads⟩ := h.handle
  refine ⟨a, _, t.stored "enter" [some w.start], hvisit, rfl,
    ⟨h.session.recorded _ _, ht, rfl, h.arrays, ⟨y, o, ?_, hreads⟩, fun b => ?_, ?_, fun b _ hfirst => ?_⟩,
    merges_of_seen_enter (Run.seen_stored_self ht (by simp))⟩
  · rw [hacc, hlookup]
  · rw [hacc, h.handleOutside b]
  · exact henter [] (Activation.contextId_cons_ne_nil a []).symm
  · exact henter [b] fun heq => hfirst (Activation.contextId_singleton_inj.mp heq).2

theorem exit_ok (h : During w a k r) (hseen : r.seen "switch" = some [some x, none]) :
    ∃ t, outputOf exitNode r = (.ok x, t) ∧ t.context.At [] ∧ t.context.arrays = [w.array k] ∧
      t.values.lookup (Edge.key "exit" (contextId [])) = some [some x] := by
  have hcurrent : r.context.At ([] ++ [a]) := h.current
  let outside : List Activation := []
  let t : Run := ⟨r.session.recorded .context (Context.frameLine "exit" (.text a.name) outside.length),
    r.context.movedTo outside r.context.lastId, r.values⟩
  have hroot : t.context.At [] := Context.at_movedTo _ _ _
  have hedge : Edge.ofName "switch:0" = .ok ⟨"switch", 0⟩ := rfl
  have hvisit : Run.visit exitNode r = (.ok (some [some x]), t.stored "exit" [some x]) :=
    Run.visit_ok hroot.ids_ne_nil (Node.visit_exit rfl hcurrent (Run.required_seen rfl rfl hedge hseen rfl))
  refine ⟨t.stored "exit" [some x], outputOf_ok hvisit, hroot, h.arrays, ?_⟩
  exact (Run.lookup_stored_self hroot (Outer.plain .exit) _ []).trans (if_pos rfl)

/-- A loop that goes on for a number of passes makes just these, comes out with what they make of its start, and leaves
    the context where it was. The array then holds what each pass has made. -/
theorem drive_computes (w : WhileLoop) {s : Session} (hs : s.Ready) {i : DTypeInfo}
    (hinfo : s.dtypeInfo (.text w.dtype) = .ok i) {n limit : Nat} (hgo : ∀ k < n, w.goesOn (w.after k) = true)
    (hstop : w.goesOn (w.after n) = false) (hcount : ∀ k < n, (w.counter k).Counts k) (hlimit : n < limit) :
    ∃ r, w.drive limit (.initial s) = (.ok (some (n, w.after n)), r) ∧ r.context.depth = 0 ∧
      r.values.lookup (Edge.key "exit" "") = some [some (w.after n)] ∧
      ∃ a, r.context.arrays = [a] ∧ a.size = n ∧ ∀ k < n, a.slots[k]? = some ⟨some (w.after (k + 1)), false⟩ := by
  obtain ⟨o, r₁, harray, hmade⟩ := visit_array hs hinfo
  obtain ⟨a, p, r₂, henter, hfirst, h, hx⟩ := visit_enter hmade
  have heq : 0 + n = n := Nat.zero_add n
  obtain ⟨b, r₃, hpasses, h₃, hseen⟩ := passes_ok n hlimit h hfirst hx (by rwa [heq])
    (fun k _ hk => hgo k (by omega)) (by rwa [heq])
  rw [heq] at hpasses h₃ hseen
  obtain ⟨r, hexit, hroot, harrays, hstored⟩ := exit_ok h₃ hseen
  rw [Activation.contextId_nil] at hstored
  refine ⟨r, ?_, hroot.depth, hstored, w.array n, harrays, size_array w n, fun k hk => slots_array w hk⟩
  have hstart : Run.put "start" [some w.start] (.initial s) = (.ok (), (Run.initial s).stored "start" [some w.start]) :=
    rfl
  have hsize : Run.put "size" [some (.scalar .host .int32 (.whole 0))] ((Run.initial s).stored "start" [some w.start]) =
      (.ok (), w.given s) := rfl
  rw [drive, Action.bind_ok hstart, Action.bind_ok hsize, Action.bind_ok harray, Action.bind_ok henter,
    Action.bind_ok hpasses]
  show (outputOf exitNode >>= fun y => pure (some (n, y))) r₃ = _
  rw [Action.bind_ok hexit]
  rfl

/-- A counter that starts from zero and goes on up to three. -/
def counting : WhileLoop where
  frame := "loop"
  dtype := "int32"
  start := .scalar .host .int32 (.whole 0)
  condition := fun x => .scalar .host .bool (.flag (x.data.any fun e => match e with
    | .whole n => n < 3
    | _ => false))
  body := fun x => x.mapAs .int32 fun e => match e with
    | .whole n => .whole (n + 1)
    | e => e
  counter := fun k => .scalar .host .int64 (.whole k)
  dtype_start := rfl
  dtype_body := fun _ _ => rfl
  readable_condition := fun _ _ => rfl

theorem drive_computes_counting :
    let three := Tensor.scalar .host .int32 (.whole 3)
    ∃ r, counting.drive 4 (.initial (.initial [] false false)) = (.ok (some (3, three)), r) ∧ r.context.depth = 0 ∧
      r.values.lookup (Edge.key "exit" "") = some [some three] := by
  have hrange : ∀ k : Nat, k < 3 → Storage.holds true 64 k = true := by decide
  have hcount : ∀ k < 3, (counting.counter k).Counts k := fun k hk => ⟨rfl, rfl, true, 64, rfl, hrange k hk⟩
  have hlimit : 3 < 4 := by decide
  obtain ⟨r, hdrive, hdepth, hstored, -⟩ := drive_computes counting (Session.ready_initial false false) rfl
    (by decide) (by decide) hcount hlimit
  exact ⟨r, hdrive, hdepth, hstored⟩

end Dataflow.WhileLoop
