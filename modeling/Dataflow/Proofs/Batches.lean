import Dataflow.Proofs.Clashes
import Dataflow.Proofs.Handles

/-! Elements that come out of an array or a queue together. They are the parts of one tensor along its outermost axis,
    which is stacked or tied from what was held, or made empty where there is nothing. Either way the tensor is of the
    declared element type and its parts have a shape that was declared for the elements. -/

namespace Dataflow

/-! ### Partial shapes -/

namespace PartialShape

variable {p : PartialShape Nat} {n : Nat} {s : Shape}

/-- A partial shape admits the shape that it collapses to. -/
theorem admits_collapse (p : PartialShape Nat) : p.admits (p.collapse 0) = true := by
  cases p with
  | none => rfl
  | some ds =>
    show admits (some ds) (ds.map (·.getD 0)) = true
    induction ds with
    | nil => rfl
    | cons d ds ih =>
      rw [List.map_cons, admits_cons, ih]
      cases d <;> simp [admitsDim]

theorem collapse_tail (p : PartialShape Nat) : collapse 0 (p.map List.tail) = (p.collapse 0).drop 1 := by
  cases p with
  | none => rfl
  | some ds => cases ds <;> rfl

theorem admits_tail (h : p.admits s = true) : PartialShape.admits (p.map List.tail) s.tail = true := by
  rcases p with _ | _ | ⟨d, ds⟩
  · rfl
  · cases s with
    | nil => rfl
    | cons n s => simp [admits] at h
  · cases s with
    | nil => simp [admits] at h
    | cons n s =>
      rw [admits_cons, Bool.and_eq_true] at h
      exact h.2

end PartialShape

/-! ### Batches -/

/-- A tensor of an element type, with so many parts along its outermost axis of a shape that a partial shape admits. -/
structure Tensor.Batch (name : String) (n : Nat) (p : PartialShape Nat) (z : Tensor) : Prop where
  dtype : z.dtype.name = name
  shape : ∃ s, z.shape = n :: s ∧ p.admits s = true

namespace Torch

variable {x z : Tensor} {xs : List Tensor} {name : String}

/-- Tensors of types of one name that the backend stacks are of one type and one shape. -/
theorem stack_eq_ok (hname : ∀ y ∈ x :: xs, y.dtype.name = name) (h : stack (.int 0) (x :: xs) = .ok z) :
    (∀ y ∈ x :: xs, y.dtype = x.dtype ∧ y.shape = x.shape) ∧ Tensor.stack? 0 (x :: xs) = some z := by
  have haxis : positionOf (x.rank + 1) 0 = .ok 0 := by
    rw [positionOf, show position? (x.rank + 1) 0 = some 0 from position?_ofNat (Nat.zero_lt_succ _)]
  have hword : word .badValue 0 = .ok 0 := rfl
  simp only [stack, number, Outcome.ok_bind, hword, haxis] at h
  split at h
  · cases h
  rename_i hshapes
  obtain ⟨d, hd, hjoin⟩ := joined_eq_ok h
  have hdtypes := dtype_of_commonDType hname hd
  have hx : x.dtype = d := hdtypes x List.mem_cons_self
  refine ⟨fun y hy => ⟨(hdtypes y hy).trans hx.symm, ?_⟩, hjoin hdtypes⟩
  rcases List.mem_cons.mp hy with rfl | hy
  · rfl
  · by_contra hne
    exact hshapes (List.any_eq_true.mpr ⟨y, hy, decide_eq_true hne⟩)

end Torch

namespace Tensor

variable {z : Tensor} {xs : List Tensor} {name : String} {p : PartialShape Nat}

/-- Tensors that can be stacked are alike, where their types agree by name. -/
theorem stacks_of_stack (hname : ∀ x ∈ xs, x.dtype.name = name) (h : stack xs (.int 0) = .ok z) :
    ∃ x ∈ xs, (∀ y ∈ xs, Like x.device x.dtype x.shape y) ∧ Stacks x.device x.dtype x.shape xs z := by
  have hne : xs ≠ [] := by
    rintro rfl
    cases h
  obtain ⟨b, hb⟩ : ∃ b, ∀ x ∈ xs, x.device = b := by
    rw [stack, if_neg fun hempty => hne (List.isEmpty_iff.mp hempty)] at h
    obtain ⟨zs, hzs, -⟩ := Outcome.bind_eq_ok.mp h
    exact Operator.device_of_apply (Or.inl rfl) hzs
  rw [stack_eq hne hb] at h
  obtain ⟨ys, hys, hkernel⟩ := Outcome.bind_eq_ok.mp h
  obtain rfl := Kernel.tensorsOf_eq_ok hys
  obtain ⟨x, xs, rfl⟩ := List.exists_cons_of_ne_nil hne
  obtain ⟨halike, hstack⟩ :
      (∀ y ∈ x :: xs, y.dtype = x.dtype ∧ y.shape = x.shape) ∧ stack? 0 (x :: xs) = some z := by
    cases b with
    | host =>
      obtain ⟨halike, -, hstack, -⟩ := Host.stack_eq_ok hkernel
      exact ⟨halike, hstack⟩
    | torch => exact Torch.stack_eq_ok hname hkernel
  obtain ⟨w, hw, hstacks⟩ := stack?_outermost fun y hy => (halike y hy).2
  obtain rfl : w = z := Option.some.inj (hw.symm.trans hstack)
  have hx : x.device = b := hb x List.mem_cons_self
  exact ⟨x, List.mem_cons_self, fun y hy => ⟨(hb y hy).trans hx.symm, (halike y hy).1, (halike y hy).2⟩, hstacks⟩

theorem batch_of_stack (hxs : ∀ x ∈ xs, x.dtype.name = name ∧ p.admits x.shape = true)
    (h : stack xs (.int 0) = .ok z) : Batch name xs.length p z := by
  obtain ⟨x, hx, -, hstacks⟩ := stacks_of_stack (fun x hx => (hxs x hx).1) h
  exact ⟨hstacks.dtype ▸ (hxs x hx).1, x.shape, hstacks.shape, (hxs x hx).2⟩

theorem length_flatMap_slices (hranked : ∀ x ∈ xs, x.shape ≠ []) :
    (xs.flatMap slices).length = (xs.map (·.shape.headD 0)).sum := by
  rw [List.length_flatMap]
  refine congrArg List.sum (List.map_congr_left fun x hx => ?_)
  obtain ⟨n, s, hshape⟩ := List.exists_cons_of_ne_nil (hranked x hx)
  rw [length_slices hshape, hshape, List.headD_cons]

/-- A tie has as many rows as its tensors together, of the shape that the rows of some of them have. -/
theorem batch_of_tie (hne : xs ≠ []) (hranked : ∀ x ∈ xs, x.shape ≠ [])
    (hxs : ∀ x ∈ xs, x.dtype.name = name ∧ p.admits x.shape = true) (h : tie xs (.int 0) = .ok z) :
    Batch name (xs.map (·.shape.headD 0)).sum (p.map List.tail) z := by
  have hties := ties_of_tie hranked (fun x hx => (hxs x hx).1) h
  obtain ⟨n, s, hz⟩ := List.exists_cons_of_ne_nil hties.ranked
  have hn : n = (xs.map (·.shape.headD 0)).sum := by
    rw [← length_flatMap_slices hranked, ← hties.slices, length_slices hz]
  -- Some tensor has the inner axes of the result.
  obtain ⟨x, hx, htail⟩ : ∃ x ∈ xs, x.shape.tail = z.shape.tail := by
    by_cases hvoid : ∀ x ∈ xs, x.shape = [0]
    · obtain ⟨x, hx⟩ := List.exists_mem_of_ne_nil xs hne
      exact ⟨x, hx, by rw [hvoid x hx, hties.void hvoid]⟩
    · obtain ⟨x, hx, hsolid⟩ : ∃ x ∈ xs, x.shape ≠ [0] := by simpa using hvoid
      exact ⟨x, hx, hties.inner x hx (Or.inr hsolid)⟩
  have hadmits := PartialShape.admits_tail (hxs x hx).2
  rw [htail, hz, List.tail_cons] at hadmits
  exact ⟨(hties.alike x hx).2 ▸ (hxs x hx).1, s, hn ▸ hz, hadmits⟩

end Tensor

/-! ### Empty tensors -/

/-- A name of an element type under which every backend makes tensors of this very name, without axes of their own. -/
structure Canonical (name : String) : Prop where
  host : ∀ t, Host.codedType (.text name) = .ok t → t.inArray.2 = [] ∧ t.inArray.1.toDType.name = name
  torch : ∀ t, Torch.typeFor (.text name) = .ok t → t.dtype.name = name

/-- The types that are there without being asked for go by their own names. -/
theorem canonical_of_standard {d : DType} (hd : d ∈ DType.standard) : Canonical d.name where
  host t ht := by
    have htype := Host.typeFor_standard hd
    rw [Host.typeFor, ht] at htype
    · obtain rfl : t = .known d := Option.some.inj (Except.ok.inj htype)
      exact ⟨rfl, rfl⟩
    · nofun
  torch t ht := by
    rw [Torch.typeFor_standard hd] at ht
    cases ht
    rfl

section
variable {name : String} {s : Shape} {x : Tensor}

theorem Host.like_of_empty (hname : Canonical name)
    (h : empty (.tuple (s.map fun (n : Nat) => .int n)) (.text name) = .ok x) : x.dtype.name = name ∧ x.shape = s := by
  obtain ⟨dims, hdims, h⟩ := Outcome.bind_eq_ok.mp h
  obtain ⟨-, rfl⟩ := dimensions_eq_ok hdims
  obtain ⟨type, htype, h⟩ := Outcome.bind_eq_ok.mp h
  obtain ⟨t, ht, rfl⟩ := Outcome.exists_of_map (f := some) htype
  obtain ⟨hinner, hdtype⟩ := hname.host t ht
  rw [Option.getD_some] at h
  change (do return Tensor.zeros .host t.inArray.1.toDType (← newShape t.inArray.1.size
    (s.map (fun (n : Nat) => (n : Int)) ++ t.inArray.2.map fun (n : Nat) => (n : Int)))) = _ at h
  obtain ⟨shape, hshape, hzeros⟩ := Outcome.bind_eq_ok.mp h
  rw [hinner, List.map_nil, List.append_nil] at hshape
  obtain ⟨-, rfl⟩ := fits_of_newShape hshape
  rw [← Except.ok.inj hzeros]
  exact ⟨hdtype, rfl⟩

theorem Torch.dimension_eq_ok {n : Nat} {m : Int} (h : dimension (.int n) = .ok m) : m = n := by
  rw [dimension] at h
  split at h <;> cases h
  rfl

theorem Torch.dimensions_eq_ok {dims : List Int}
    (h : dimensions (.tuple (s.map fun (n : Nat) => .int n)) = .ok dims) : dims = s.map fun (n : Nat) => (n : Int) := by
  cases s with
  | nil =>
    cases h
    rfl
  | cons n s =>
    rw [List.map_cons, dimensions] at h
    obtain ⟨m, hm, h⟩ := Outcome.bind_eq_ok.mp h
    obtain ⟨ms, hms, h⟩ := Outcome.bind_eq_ok.mp h
    cases h
    rw [List.mapM_map] at hms
    have hlater (k : Nat) (_ : k ∈ s) (i : Int) (hi : (laterDimension ∘ fun (n : Nat) => Value.int n) k = .ok i) :
        (some ∘ fun (n : Nat) => (n : Int)) k = some i := congrArg some (dimension_eq_ok hi).symm
    rw [dimension_eq_ok hm, ← Outcome.filterMap_of_mapM hms hlater, List.filterMap_eq_map, List.map_cons]

theorem Torch.like_of_empty (hname : Canonical name)
    (h : empty (.tuple (s.map fun (n : Nat) => .int n)) (.text name) = .ok x) : x.dtype.name = name ∧ x.shape = s := by
  obtain ⟨type, htype, h⟩ := Outcome.bind_eq_ok.mp h
  obtain ⟨dims, hdims, h⟩ := Outcome.bind_eq_ok.mp h
  obtain rfl := dimensions_eq_ok hdims
  dsimp only at h
  split at h
  · cases h
  split at h
  · cases h
  cases h
  refine ⟨hname.torch type htype, ?_⟩
  show (s.map fun (n : Nat) => (n : Int)).map Int.toNat = s
  rw [List.map_map]
  exact List.map_id _

end

theorem Action.forall₂_of_mapM {σ α β : Type} {f : α → Action σ β} {l : List α} {ys : List β} {s t : σ}
    (h : l.mapM f s = (.ok ys, t)) : List.Forall₂ (fun a y => ∃ u v, f a u = (.ok y, v)) l ys := by
  induction l generalizing s ys with
  | nil =>
    cases h
    exact .nil
  | cons a l ih =>
    rw [List.mapM_cons] at h
    obtain ⟨y, u, hy, h⟩ := Action.bind_eq_ok.mp h
    obtain ⟨zs, v, hzs, h⟩ := Action.bind_eq_ok.mp h
    cases h
    exact .cons ⟨s, u, hy⟩ (ih hzs)

namespace Session

variable {name : String} {dims : Shape} {p : PartialShape Nat} {x : Tensor} {s t : Session}

theorem kernel_of_empty (h : empty dims.toValue (.text name) auto s = (.ok x, t)) :
    ∃ b, Kernel.empty b (.tuple (dims.map fun (n : Nat) => .int n)) (.text name) = .ok x := by
  obtain ⟨i, u, -, h⟩ := Action.bind_eq_ok.mp h
  obtain ⟨items, v, hitems, h⟩ := Action.bind_eq_ok.mp h
  obtain rfl : dims.map (fun (n : Nat) => Value.int n) = items := Except.ok.inj (congrArg Prod.fst hitems)
  obtain ⟨b, kind, device, hkernel⟩ := kernel_of_create h
  cases kind with
  | empty =>
    obtain ⟨y, hy, hkernel⟩ := Outcome.bind_eq_ok.mp hkernel
    cases hkernel
    exact ⟨b, hy⟩
  | tie | stack =>
    obtain ⟨ys, -, hkernel⟩ := Outcome.bind_eq_ok.mp hkernel
    cases hkernel
  | _ => cases hkernel

/-- However it comes about, an empty tensor is a batch of nothing. -/
theorem batch_of_empty (hname : Canonical name)
    (h : empty (Shape.toValue (0 :: p.collapse 0)) (.text name) auto s = (.ok x, t)) : x.Batch name 0 p := by
  obtain ⟨b, hb⟩ := kernel_of_empty h
  obtain ⟨hdtype, hshape⟩ : x.dtype.name = name ∧ x.shape = 0 :: p.collapse 0 := by
    cases b with
    | host => exact Host.like_of_empty hname hb
    | torch => exact Torch.like_of_empty hname hb
  exact ⟨hdtype, p.collapse 0, hshape, p.admits_collapse⟩

end Session

/-! ### Arrays -/

namespace TensorArray

variable {m : Making} {a : TensorArray} {events : List Step} {t : Session} {v : Value} {dtype : Option String}

/-- The tensors that the slots of an array hold, in the order of the slots. -/
def heldTensors (a : TensorArray) : List Tensor := a.slots.filterMap Slot.tensor

theorem Inv.fit (h : Inv m a events) : a.Holds fun x => x.dtype.name = m.dtype ∧ a.elementShape.admits x.shape = true :=
  h.elements

theorem Inv.batch_of_gather (h : Inv m a events) {is : Sequence Int} (hname : is.members = [] → Canonical m.dtype)
    (hok : ((Call.gather is dtype).perform (t, a)).1 = .ok v) :
    ∃ z, v = .tensor z ∧ z.Batch m.dtype is.length a.elementShape := by
  rw [Call.perform_eq] at hok
  obtain ⟨z, hz, rfl⟩ := Outcome.exists_of_map ((Action.fst_bind_pure _ Value.tensor _).symm.trans hok)
  refine ⟨z, rfl, ?_⟩
  have hgather := (gather_fst is dtype t a).symm.trans hz
  obtain ⟨⟨⟩, -, hgather⟩ := Outcome.bind_eq_ok.mp hgather
  obtain ⟨⟨⟩, -, hgather⟩ := Outcome.bind_eq_ok.mp hgather
  by_cases hnil : is.members = []
  · rw [if_pos hnil] at hgather
    have hempty : (Session.empty (Shape.toValue (0 :: a.elementShape.collapse 0)) a.dtype Session.auto t).1 = .ok z :=
      hgather
    rw [h.dtype] at hempty
    rw [Sequence.length, hnil]
    exact Session.batch_of_empty (hname hnil) (Prod.ext hempty rfl)
  · rw [if_neg hnil] at hgather
    obtain ⟨xs, hxs, hstack⟩ := Outcome.bind_eq_ok.mp hgather
    obtain ⟨hlength, hfit⟩ := h.fit.of_readEach hxs
    rw [Sequence.length, ← hlength]
    exact Tensor.batch_of_stack hfit hstack

/-- Asked for nothing, an open array makes an empty tensor. -/
theorem gather_nothing (hopen : a.closed = false) (tuple : Bool) (t : Session) :
    ((Call.gather ⟨tuple, []⟩ none).perform (t, a)).1 = .tensor <$>
      (Session.empty (Shape.toValue (0 :: a.elementShape.collapse 0)) a.dtype Session.auto t).1 := by
  have hopened : a.opened = .ok () := if_neg (by simp [hopen])
  have hgather := gather_fst ⟨tuple, []⟩ none t a
  rw [hopened, if_pos rfl] at hgather
  rw [Call.perform_eq]
  exact (Action.fst_bind_pure _ _ _).trans (congrArg (Value.tensor <$> ·) hgather)

theorem Inv.batch_of_concat (h : Inv m a events) (hname : a.heldTensors = [] → Canonical m.dtype)
    (hok : ((Call.concat dtype).perform (t, a)).1 = .ok v) :
    ∃ z, v = .tensor z ∧
      z.Batch m.dtype (a.heldTensors.map (·.shape.headD 0)).sum (a.elementShape.map List.tail) := by
  rw [Call.perform_eq] at hok
  obtain ⟨z, hz, rfl⟩ := Outcome.exists_of_map ((Action.fst_bind_pure _ Value.tensor _).symm.trans hok)
  refine ⟨z, rfl, ?_⟩
  have hconcat := (concat_fst dtype t a).symm.trans hz
  obtain ⟨⟨⟩, hopened, hconcat⟩ := Outcome.bind_eq_ok.mp hconcat
  obtain ⟨⟨⟩, -, hconcat⟩ := Outcome.bind_eq_ok.mp hconcat
  have hlength : a.held.length = a.heldTensors.length := (forall₂_held a).length_eq
  by_cases hnil : a.held = []
  · have hnone : a.heldTensors = [] := List.eq_nil_of_length_eq_zero (by rw [← hlength, hnil]; rfl)
    rw [if_pos hnil] at hconcat
    have hempty : (Session.empty (Shape.toValue (0 :: (a.elementShape.collapse 0).drop 1)) a.dtype Session.auto t).1 =
        .ok z := hconcat
    rw [h.dtype, ← PartialShape.collapse_tail] at hempty
    rw [hnone]
    exact Session.batch_of_empty (hname hnone) (Prod.ext hempty rfl)
  · have hne : a.heldTensors ≠ [] := fun hnone => hnil (List.eq_nil_of_length_eq_zero (by rw [hlength, hnone]; rfl))
    rw [if_neg hnil, h.readEach_held (closed_of_opened hopened), Outcome.ok_bind] at hconcat
    split at hconcat
    · cases hconcat
    rename_i hranked
    have hfit : ∀ x ∈ a.heldTensors, x.dtype.name = m.dtype ∧ a.elementShape.admits x.shape = true := fun x hx => by
      obtain ⟨slot, hslot, htensor⟩ := List.mem_filterMap.mp hx
      obtain ⟨k, hk⟩ := List.getElem?_of_mem hslot
      exact h.elements k slot x hk htensor
    exact Tensor.batch_of_tie hne (not_not.mp (mt (Tensor.any_scalar _).mpr hranked)) hfit hconcat

end TensorArray

/-! ### Queues -/

namespace Queue

variable {q : Queue} {s t : Session} {es : List Event} {num : Int} {dtypes : Value} {zs : List Tensor}

/-- Every component of a queue was let in by its column. -/
theorem Life.letsIn_of (hempty : q.tuples = []) (s : Session) (es : List Event) :
    ∀ ts ∈ (of s q es).queue.tuples, ∀ p ∈ ts.zip q.columns, LetsIn p.2 p.1 := by
  induction es using List.reverseRecOn with
  | nil =>
    rw [show (of s q []).queue.tuples = q.tuples from rfl, hempty]
    simp
  | append_singleton es e ih =>
    rw [of_concat]
    rcases (of s q es).queue_after e with ⟨xs, ts, -, hts, h⟩ | ⟨n, h⟩
    · have hcolumns : (of s q es).queue.columns = q.columns := by rw [columns, dtypes_of, shapes_of, columns]
      rw [h]
      intro us hus
      rcases List.mem_append.mp hus with hus | hus
      · exact ih us hus
      · rw [List.mem_singleton.mp hus, ← hcolumns]
        exact (admitted_ok hts).2.2
    · rw [h]
      exact fun us hus => ih us (List.mem_of_mem_drop hus)

/-- The components of some tuples in one column. -/
theorem batch_of_column (hq : Fresh s q) (t : Session) (es : List Event) {tuples : List (List Tensor)}
    (htuples : tuples ⊆ (Life.of t q es).queue.tuples) {k : Nat} {name : String} {p : PartialShape Nat}
    (hk : q.columns[k]? = some (.text name, p)) {z : Tensor} (hz : column tuples k = .ok z) :
    z.Batch name tuples.length p := by
  obtain ⟨hd, hp⟩ := List.getElem?_zip_eq_some.mp hk
  have hcomponent : ∀ ts ∈ tuples, ∃ x, ts[k]? = some x ∧ x.dtype.name = name ∧ p.admits x.shape = true := by
    intro ts hts
    have hlength : k < ts.length := by
      rw [Life.length_of_mem_tuples hq.tuples t es (htuples hts)]
      exact (List.getElem?_eq_some_iff.mp hd).1
    have hzip : (ts[k], Value.text name, p) ∈ ts.zip q.columns :=
      List.mem_of_getElem? (List.getElem?_zip_eq_some.mpr ⟨List.getElem?_eq_getElem hlength, hk⟩)
    obtain ⟨⟨what, hdtype⟩, hshape⟩ := Life.letsIn_of hq.tuples t es ts (htuples hts) _ hzip
    exact ⟨ts[k], List.getElem?_eq_getElem hlength, (Value.text.inj (name_of_checkDType nofun hdtype)).symm, hshape⟩
  have hcount : (tuples.filterMap (·[k]?)).length = tuples.length := by
    rw [List.length_filterMap_eq_countP, List.countP_eq_length]
    intro ts hts
    obtain ⟨x, hx, -⟩ := hcomponent ts hts
    rw [hx]
    rfl
  rw [← hcount]
  refine Tensor.batch_of_stack (fun x hx => ?_) hz
  obtain ⟨ts, hts, hx⟩ := List.mem_filterMap.mp hx
  obtain ⟨y, hy, hfit⟩ := hcomponent ts hts
  obtain rfl : y = x := Option.some.inj (hy.symm.trans hx)
  exact hfit

theorem due_int (h : q.due (.int num) dtypes = .ok n) : 0 ≤ num ∧ n = min num.toNat q.size := by
  rw [due, Value.isNegative_int, Outcome.ok_bind] at h
  split at h
  · cases h
  rename_i hnegative
  obtain ⟨⟨⟩, -, h⟩ := Outcome.bind_eq_ok.mp h
  have h0 : 0 ≤ num := by simpa using hnegative
  obtain ⟨k, rfl⟩ := Int.eq_ofNat_of_zero_le h0
  rw [takenFor_natCast] at h
  cases h
  exact ⟨h0, rfl⟩

theorem length_columns (hq : Fresh s q) : q.columns.length = q.dtypes.length := by
  rw [columns, List.length_zip, hq.shapes, Nat.min_self]

/-- A dequeue that succeeds has collected the tuples that were due. -/
theorem collected_of_dequeue {num : Value} (h : (dequeueUpTo num dtypes (s, q)).1 = .ok zs) :
    ∃ n t, q.due num dtypes = .ok n ∧ (q.collected (q.tuples.take n) t).1 = .ok zs := by
  rw [dequeueUpTo_eq] at h
  cases hdue : q.due num dtypes with
  | error e =>
    rw [hdue] at h
    cases h
  | ok n =>
    rw [hdue] at h
    dsimp only at h
    rcases hrecord : Session.record .queue (takenLine n num (q.drop n)) s with ⟨e | ⟨⟩, t⟩
    · rw [hrecord] at h
      cases h
    · rw [hrecord] at h
      exact ⟨n, t, rfl, h⟩

theorem batch_of_collected (hq : Fresh s q) (hdtypes : ∀ d ∈ q.dtypes, ∃ name, d = .text name) (t : Session)
    (es : List Event) {tuples : List (List Tensor)} (htuples : tuples ⊆ (Life.of t q es).queue.tuples) {u : Session}
    (hname : tuples = [] → ∀ name, .text name ∈ q.dtypes → Canonical name)
    (hok : ((Life.of t q es).queue.collected tuples u).1 = .ok zs) :
    List.Forall₂ (fun c z => ∃ name, c.1 = .text name ∧ z.Batch name tuples.length c.2) q.columns zs := by
  have htext : ∀ c ∈ q.columns, ∃ name, c.1 = .text name ∧ Value.text name ∈ q.dtypes := fun c hc => by
    have hmem : c.1 ∈ q.dtypes := (List.of_mem_zip hc).1
    obtain ⟨name, hc⟩ := hdtypes c.1 hmem
    exact ⟨name, hc, hc ▸ hmem⟩
  by_cases hnil : tuples = []
  -- Without tuples, each column makes an empty tensor of its own.
  · subst hnil
    rw [collected, if_pos List.isEmpty_nil, columns, Life.dtypes_of, Life.shapes_of] at hok
    have hcolumn := Action.forall₂_of_mapM (Prod.ext hok rfl)
    refine ((List.forall₂_and_left _ _).mpr ⟨htext, hcolumn⟩).imp ?_
    rintro ⟨d, p⟩ z ⟨⟨name, rfl, hmem⟩, v, w, hz⟩
    exact ⟨name, rfl, Session.batch_of_empty (hname rfl name hmem) hz⟩
  · rw [collected, if_neg (mt List.isEmpty_iff.mp hnil), Action.lift_apply, Life.dtypes_of, ← length_columns hq] at hok
    obtain ⟨hlength, hget⟩ := List.forall₂_iff_get.mp (Outcome.forall₂_of_mapM hok)
    rw [List.length_range] at hlength
    refine List.forall₂_iff_get.mpr ⟨hlength, fun k hk hk' => ?_⟩
    have hz := hget k (by rwa [List.length_range]) hk'
    rw [List.get_eq_getElem, List.getElem_range] at hz
    obtain ⟨name, hname, -⟩ := htext q.columns[k] (List.getElem_mem hk)
    have hcolumn : q.columns[k]? = some (.text name, q.columns[k].2) := by
      rw [List.getElem?_eq_getElem hk, ← hname]
    exact ⟨name, hname, batch_of_column hq t es htuples hcolumn hz⟩

theorem batch_of_dequeue (hq : Fresh s q) (hdtypes : ∀ d ∈ q.dtypes, ∃ name, d = .text name) (t : Session)
    (es : List Event) {u : Session}
    (hname : min num.toNat (Life.of t q es).queue.size = 0 → ∀ name, .text name ∈ q.dtypes → Canonical name)
    (hok : (dequeueUpTo (.int num) dtypes (u, (Life.of t q es).queue)).1 = .ok zs) :
    0 ≤ num ∧ List.Forall₂ (fun c z => ∃ name, c.1 = .text name ∧
      z.Batch name (min num.toNat (Life.of t q es).queue.size) c.2) q.columns zs := by
  obtain ⟨n, w, hdue, hcollected⟩ := collected_of_dequeue hok
  obtain ⟨h0, rfl⟩ := due_int hdue
  have hlength : ((Life.of t q es).queue.tuples.take (min num.toNat (Life.of t q es).queue.size)).length =
      min num.toNat (Life.of t q es).queue.size :=
    List.length_take_of_le (Nat.min_le_right _ _)
  refine ⟨h0, hlength ▸ batch_of_collected hq hdtypes t es (List.take_subset _ _) (fun hnil => hname ?_) hcollected⟩
  rw [← hlength, hnil]
  rfl

end Queue

/-- After whatever calls, a gather that succeeds answers with as many elements as there are indices, and a concat with
    the rows of what the slots hold; after whatever happened to it, a queue answers a dequeue that succeeds with as many
    rows as are asked for and as there are. All of it is of the element type of the array or column, and the parts have
    a shape that was declared for the elements. Where nothing is held or asked for, the name of the element type has to
    be the one that tensors go by. -/
theorem batches_conform :
    (∀ {m : TensorArray.Making} {s : Session} {a : TensorArray}, TensorArray.ofArguments s m.arguments [] = .ok a →
      ∀ (cs : List TensorArray.Call) (t : Session),
        let now := (TensorArray.Life.of s a cs).array
        (∀ is dtype v, ((TensorArray.Call.gather is dtype).perform (t, now)).1 = .ok v →
          (is.members = [] → Canonical m.dtype) →
            ∃ z, v = .tensor z ∧ z.Batch m.dtype is.length now.elementShape) ∧
        ∀ dtype v, ((TensorArray.Call.concat dtype).perform (t, now)).1 = .ok v →
          (now.heldTensors = [] → Canonical m.dtype) →
            ∃ z, v = .tensor z ∧
              z.Batch m.dtype (now.heldTensors.map (·.shape.headD 0)).sum (now.elementShape.map List.tail)) ∧
    ∀ {s₀ : Session} {byPosition : List Value} {byName : List (String × Value)} {q : Queue},
      Queue.ofArguments s₀ byPosition byName = .ok q → (∀ d ∈ q.dtypes, ∃ name, d = .text name) →
      ∀ (s : Session) (es : List Queue.Event) (t : Session) (num : Int) (dtypes : Value) (zs : List Tensor),
        let now := (Queue.Life.of s q es).queue
        (Queue.dequeueUpTo (.int num) dtypes (t, now)).1 = .ok zs →
        (min num.toNat now.size = 0 → ∀ name, .text name ∈ q.dtypes → Canonical name) →
          0 ≤ num ∧ List.Forall₂ (fun c z => ∃ name, c.1 = .text name ∧
            z.Batch name (min num.toNat now.size) c.2) q.columns zs := by
  refine ⟨fun {m s a} hmake cs t => ?_, fun hmake hdtypes s es t num dtypes zs hok hname =>
    Queue.batch_of_dequeue (Queue.fresh_of_arguments hmake) hdtypes s es hname hok⟩
  obtain rfl := TensorArray.Making.eq_array hmake
  have inv := TensorArray.inv_of m s cs
  exact ⟨fun is dtype v hok hname => inv.batch_of_gather hname hok, fun dtype v hok hname =>
    inv.batch_of_concat hname hok⟩

/-- Nothing is gathered, a vector is all there is to tie, and a queue gives out the one vector that it has. -/
theorem batches_conform_vectors :
    let m : TensorArray.Making := ⟨"a", "float32", 1, some ⟨false, [none]⟩, false, false, true⟩
    let s := Session.initial [] false false
    let x : Tensor := ⟨.host, .float32, [2], [.real (.ofInt 1), .real (.ofInt 2)], rfl⟩
    let now := (TensorArray.Life.of s m.array [.write 0 x]).array
    let args : List Value := [.list [.text "float32"], .list [.list [.nothing]]]
    let q : Queue := ⟨none, [.text "float32"], [some [none]], .int 0, .text "", .text "", []⟩
    let full := (Queue.Life.of s q [.enqueue [.tensor x]]).queue
    let gathered : Tensor := .zeros .host .float32 [0, 0]
    TensorArray.ofArguments s m.arguments [] = .ok m.array ∧ now.heldTensors = [x] ∧
      ((TensorArray.Call.gather ⟨false, []⟩ none).perform (s, now)).1 = .ok (.tensor gathered) ∧
      gathered.Batch "float32" 0 (some [none]) ∧
      ((TensorArray.Call.concat none).perform (s, now)).1 = .ok (.tensor x) ∧ x.Batch "float32" 2 (some []) ∧
      Queue.ofArguments s args [] = .ok q ∧ (Queue.dequeueUpTo (.int 5) .nothing (s, full)).1 = .ok [x.raised] ∧
      x.raised.Batch "float32" 1 (some [none]) := by
  intro m s x now args q full gathered
  have hmake : TensorArray.ofArguments s m.arguments [] = .ok m.array := rfl
  have hnow : now.heldTensors = [x] ∧ now.closed = false ∧ now.dtype = .text "float32" ∧
      now.elementShape = some [none] := by
    subst now x s m
    exact ⟨rfl, rfl, rfl, rfl⟩
  obtain ⟨hheld, hopen, hdtype, hshape⟩ := hnow
  have hgather : ((TensorArray.Call.gather ⟨false, []⟩ none).perform (s, now)).1 = .ok (.tensor gathered) := by
    have hempty := (Session.default_initial false).empty_eq (d := .float32) (s := [0, 0]) (by decide)
    rw [TensorArray.gather_nothing hopen, hdtype, hshape]
    exact congrArg (fun o => Value.tensor <$> Prod.fst o) hempty
  have hconcat : ((TensorArray.Call.concat none).perform (s, now)).1 = .ok (.tensor x) := by
    subst now x s m
    rfl
  have hqueue : Queue.ofArguments s args [] = .ok q := rfl
  have hdequeue : (Queue.dequeueUpTo (.int 5) .nothing (s, full)).1 = .ok [x.raised] := by
    subst full q x s
    rfl
  have hsize : min (5 : Int).toNat full.size = 1 := rfl
  obtain ⟨hgathers, hconcats⟩ := batches_conform.1 hmake [.write 0 x] s
  have hname : Canonical "float32" := canonical_of_standard (d := .float32) (by decide)
  obtain ⟨y, hy, hgathered⟩ := hgathers ⟨false, []⟩ none _ hgather fun _ => hname
  obtain ⟨z, hz, htied⟩ := hconcats none _ hconcat fun hnone => absurd (hheld.symm.trans hnone) (List.cons_ne_nil _ _)
  obtain rfl := Value.tensor.inj hy
  obtain rfl := Value.tensor.inj hz
  have hcount : (now.heldTensors.map (·.shape.headD 0)).sum = 2 := by
    rw [hheld]
    rfl
  rw [hcount, hshape] at htied
  rw [hshape] at hgathered
  obtain ⟨-, hcolumns⟩ := batches_conform.2 hqueue (by simp [q]) s [.enqueue [.tensor x]] s 5 .nothing _ hdequeue
    fun hnone => absurd (hsize.symm.trans hnone) (by decide)
  obtain ⟨⟨name, hname, hdequeued⟩, -⟩ := List.forall₂_cons.mp hcolumns
  obtain rfl : "float32" = name := Value.text.inj hname
  exact ⟨hmake, hheld, hgather, hgathered, hconcat, htied, hqueue, hdequeue, hdequeued⟩

/-- An element type may be registered under another of its names. The tensor that such an array makes when nothing is
    gathered goes by the name of the type, which is not the name of the array's. -/
theorem gathered_under_other_name :
    let s := (Session.registerDType ⟨.text "f4", some .real, .int 4⟩ (Session.initial [] false false)).2
    let m : TensorArray.Making := ⟨"a", "f4", 0, none, false, false, true⟩
    TensorArray.ofArguments s m.arguments [] = .ok m.array ∧
      ∃ z, ((TensorArray.Call.gather ⟨false, []⟩ none).perform (s, m.array)).1 = .ok (.tensor z) ∧
        z.dtype.name = "float32" ∧ z.dtype.name ≠ m.dtype := by
  intro s m
  have hmake : TensorArray.ofArguments s m.arguments [] = .ok m.array := rfl
  have hempty : (Session.empty (Shape.toValue [0]) (.text "f4") Session.auto s).1 =
      .ok (.zeros .host .float32 [0]) := by
    rw [Session.empty_eq (b := .host) s.host_mem_devices rfl rfl]
    rfl
  refine ⟨hmake, .zeros .host .float32 [0], ?_, rfl, by decide⟩
  rw [TensorArray.gather_nothing rfl]
  exact congrArg (Value.tensor <$> ·) hempty

end Dataflow
