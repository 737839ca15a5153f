import Dataflow.Proofs.Collections
import Dataflow.Proofs.Escapes
import Dataflow.Proofs.VisitEffects

/-! Calls of tensor arrays that ask for what cannot be made. Under the settings that are there by default a call on
    tensors of the host is refused or does what it is to do, unless it is to make one tensor of several that clash, or an empty
    tensor that no array can hold. An element shape that is left open lets clashing tensors in, and a gather and a concat
    compare nothing before they put them together. -/

namespace Dataflow

open Outcome (Escapes not_escapes_ok not_escapes_refused not_escapes_bind not_escapes_refuse_if escapes_after escapes_map)

/-- An integer that is not too long to be written out. -/
def Spellable (n : Int) : Prop := n.natAbs < 10 ^ Text.longestNumeral

theorem formatted_spellable {n : Int} (h : Spellable n) : (Value.int n).formatted = .ok (toString n) :=
  Value.formatted_int h

/-- The dimensions that a partial shape does not leave open. -/
def PartialShape.known (p : PartialShape Nat) : List Int := (p.getD []).reduceOption.map Int.ofNat

theorem Session.Default.of_alike {s t : Session} (hs : s.Default) (h : s.Alike t) : t.Default where
  device := (h.settings .device).symm.trans hs.device
  dtypes := h.dtypes.symm.trans hs.dtypes
  quiet := h.logs.symm.trans hs.quiet

/-- A standard element type is known by its name. -/
theorem DType.exists_standard_iff {d : DType} (hd : d ∈ standard) {v : Value} (hv : v = .text d.name)
    {P : DType → Prop} : (∃ e ∈ standard, v = .text e.name ∧ P e) ↔ P d := by
  refine ⟨fun ⟨e, he, hve, h⟩ => ?_, fun h => ⟨d, hd, hv, h⟩⟩
  have hname : e.name = d.name := Value.text.inj (hve.symm.trans hv)
  rwa [eq_of_name he hname] at h

/-! ### Tensors that clash -/

namespace Tensor

/-- Tensors of different shapes, or of a shape that no array of the host can have with one more axis. -/
def ClashStacked (xs : List Tensor) : Prop :=
  (∃ x ∈ xs, ∃ y ∈ xs, x.shape ≠ y.shape) ∨
    ∃ x ∈ xs, Shape.axisLimit ≤ x.rank ∨ Shape.fits (xs.length :: x.shape) x.dtype.size = false

/-- Tensors whose rows have different shapes, or more rows than an array of the host can have. -/
def ClashTied (xs : List Tensor) : Prop :=
  (∃ x ∈ xs, ∃ y ∈ xs, x.shape.tail ≠ y.shape.tail) ∨
    ∃ x ∈ xs, Shape.fits ((xs.map (·.shape.headD 0)).sum :: x.shape.tail) x.dtype.size = false

/-- A tensor of the host of an element type. -/
def HostOf (d : DType) (x : Tensor) : Prop := x.device = .host ∧ x.dtype = d

variable {xs : List Tensor} {d : DType}

/-- Between tensors of the host of one element type, nothing can differ but the shapes. -/
theorem differ_iff (hxs : ∀ x ∈ xs, x.HostOf d) {shape : Tensor → Shape} :
    (∃ x ∈ xs, ∃ y ∈ xs, x.device ≠ y.device ∨ x.dtype ≠ y.dtype ∨ shape x ≠ shape y) ↔
      ∃ x ∈ xs, ∃ y ∈ xs, shape x ≠ shape y := by
  refine exists_congr fun x => and_congr_right fun hx => exists_congr fun y => and_congr_right fun hy => ?_
  obtain ⟨hdevice, hdtype⟩ := hxs x hx
  obtain ⟨hdevice', hdtype'⟩ := hxs y hy
  rw [or_iff_right (not_not.mpr (hdevice.trans hdevice'.symm)), or_iff_right (not_not.mpr (hdtype.trans hdtype'.symm))]

theorem unstackable_iff (hxs : ∀ x ∈ xs, x.HostOf d) : Unstackable xs ↔ ClashStacked xs :=
  or_congr_left (differ_iff hxs)

theorem untieable_iff (hxs : ∀ x ∈ xs, x.HostOf d) : Untieable xs ↔ ClashTied xs :=
  or_congr_left (differ_iff hxs)

@[simp] theorem not_clashStacked_nil : ¬ClashStacked [] := by simp [ClashStacked]

@[simp] theorem not_clashTied_nil : ¬ClashTied [] := by simp [ClashTied]

end Tensor

/-! ### Checks -/

theorem not_escapes_checkDType (expected : Option String) (actual what : String) :
    ¬(checkDType (TensorArray.optionalText expected) (.text actual) what).Escapes := by
  cases expected with
  | none => exact not_escapes_ok ()
  | some name =>
    show ¬(checkDType (.text name) (.text actual) what).Escapes
    rw [checkDType_text]
    split <;> simp

theorem not_escapes_checkElementType (expected what : String) (x : Tensor) :
    ¬(checkElementType (.text expected) (.tensor x) what).Escapes := by
  rw [checkElementType_tensor]
  exact not_escapes_bind (not_escapes_checkDType (some expected) x.dtype.name what) fun _ _ => not_escapes_ok _

theorem not_escapes_checkShape (expected : PartialShape Nat) (actual : Shape) (what : String) :
    ¬(checkShape expected actual what).Escapes := by
  unfold checkShape
  split <;> simp

theorem Tensor.not_escapes_split {x : Tensor} {n : Nat} {s : Shape} {sizes : List Int} (hhost : x.device = .host)
    (hx : x.shape = n :: s) (hstorable : x.Storable) (hsum : sizes.sum = n) : ¬(x.split (.int 0) sizes).Escapes := by
  by_cases h0 : ∀ m ∈ sizes, 0 ≤ m
  · obtain ⟨ys, hys⟩ := split_ok hhost hx hstorable h0 hsum
    rw [hys]
    exact not_escapes_ok ys
  · have hnegative : sizes.any (· < 0) = true := by simpa using h0
    rw [split, requireSizes, if_pos hnegative]
    exact not_escapes_refused _

namespace TensorArray

variable {a : TensorArray} {s : Session} {dtype : String}

theorem not_escapes_opened (a : TensorArray) : ¬a.opened.Escapes := by
  unfold opened
  split
  · exact not_escapes_refused _
  · exact not_escapes_ok ()

/-! ### Steps -/

theorem not_escapes_readable (i : Int) (a : TensorArray) : ¬(a.readable i).Escapes := by
  unfold readable
  split
  · exact not_escapes_refused _
  split
  · exact not_escapes_refused _
  split
  · exact not_escapes_refused _
  · rename_i hneg hsize
    have hlt : i.toNat < a.slots.length := by
      have : (a.size : Int) = a.slots.length := rfl
      omega
    rw [List.getElem?_eq_getElem hlt]
    rcases a.slots[i.toNat] with ⟨_ | x, _ | _⟩ <;> simp [answer, refusal]

theorem not_escapes_writable (hdtype : a.dtype = .text dtype) (i : Int) (x : Tensor) : ¬(a.writable i x).Escapes := by
  unfold writable
  rw [hdtype]
  refine not_escapes_refuse_if fun _ => not_escapes_bind (not_escapes_checkDType (some dtype) _ _) fun _ _ =>
    not_escapes_bind (not_escapes_checkShape _ _ _) fun _ _ => not_escapes_refuse_if fun _ => ?_
  split
  · exact not_escapes_refused _
  · exact not_escapes_ok ()

theorem Step.not_escapes_outcome (hdtype : a.dtype = .text dtype) (t : Step) : ¬(t.outcome a).Escapes := by
  cases t with
  | read i =>
    rw [Step.outcome, escapes_map]
    exact not_escapes_readable i a
  | write i x => exact not_escapes_writable hdtype i x

theorem Step.dtype_result (t : Step) (a : TensorArray) : (t.result a).dtype = a.dtype := by
  cases t with
  | read i => rw [Step.result, released_with]
  | write i x => rw [Step.result, written_with]

theorem not_escapes_performEach (hdtype : a.dtype = .text dtype) (ts : List Step) :
    ¬Escapes (performEach ts a).1 := by
  induction ts generalizing a with
  | nil => exact not_escapes_ok ()
  | cons t ts ih =>
    have ht := t.not_escapes_outcome hdtype
    rw [performEach_cons]
    rcases houtcome : t.outcome a with e | ⟨⟩
    · rwa [houtcome] at ht
    · exact ih ((t.dtype_result a).trans hdtype)

theorem fst_readEach_cons (i : Int) (is : List Int) (a : TensorArray) :
    (readEach ((i :: is).map .int) a).1 =
      a.readable i >>= fun x => (x :: ·) <$> (readEach (is.map .int) (a.released i.toNat)).1 := by
  rw [List.map_cons, readEach, Action.bind_apply, read_eq]
  cases a.readable i with
  | error e => rfl
  | ok x => exact Action.fst_bind_pure _ _ _

theorem not_escapes_readEach (is : List Int) (a : TensorArray) : ¬Escapes (readEach (is.map .int) a).1 := by
  induction is generalizing a with
  | nil => exact not_escapes_ok []
  | cons i is ih =>
    rw [fst_readEach_cons]
    refine not_escapes_bind (not_escapes_readable i a) fun x _ => ?_
    rw [escapes_map]
    exact ih _

/-- Whatever holds of all tensors in an array. -/
def Holds (a : TensorArray) (P : Tensor → Prop) : Prop := ∀ (k : Nat) (slot : Slot) (x : Tensor),
  a.slots[k]? = some slot → slot.tensor = some x → P x

theorem Holds.released {P : Tensor → Prop} (h : a.Holds P) {k : Nat} (hk : k < a.size) : (a.released k).Holds P := by
  intro j slot x hj hx
  rcases slot_of_released hk hj with ⟨-, -, rfl⟩ | ⟨hj, -⟩
  · cases hx
  · exact h j slot x hj hx

/-- What is read has a tensor of the array for each index. -/
theorem Holds.of_readEach {P : Tensor → Prop} (h : a.Holds P) {is : List Int} {xs : List Tensor}
    (hxs : (readEach (is.map .int) a).1 = .ok xs) : xs.length = is.length ∧ ∀ x ∈ xs, P x := by
  induction is generalizing a xs with
  | nil =>
    cases hxs
    exact ⟨rfl, nofun⟩
  | cons i is ih =>
    rw [fst_readEach_cons] at hxs
    obtain ⟨x, hx, hxs⟩ := Outcome.bind_eq_ok.mp hxs
    obtain ⟨ys, hys, rfl⟩ := Outcome.exists_of_map hxs
    obtain ⟨-, h0, hlt, hslot⟩ := readable_eq_ok.mp hx
    have hsize : i.toNat < a.size := by omega
    obtain ⟨hlength, hrest⟩ := ih (h.released hsize) hys
    exact ⟨congrArg (· + 1) hlength, List.forall_mem_cons.mpr ⟨h _ _ x hslot rfl, hrest⟩⟩

/-! ### Calls that read or write -/

/-- The tensors that a call hands over. -/
def Call.tensors : Call → List Tensor
  | .write _ x | .scatter _ x | .split _ x => [x]
  | .writeMany _ xs => xs.members
  | _ => []

def Call.OnHost (c : Call) : Prop := ∀ x ∈ c.tensors, x.device = .host ∧ x.Storable

/-- The integers that a refusal of a call may show. -/
def Call.shown (a : TensorArray) (c : Call) : List Int :=
  a.elementShape.known ++ match c with
    | .read i | .write i _ => [i]
    | .readMany is | .writeMany is _ | .gather is _ | .scatter is _ => is.members
    | .split ns _ => ns.members.sum :: ns.members
    | .size | .concat _ | .clearAndClose => []

theorem Does.fst {act : Action TensorArray Unit} {steps : Outcome (List Step)} (h : Does act steps a) :
    (act a).1 = steps >>= fun ts => (performEach ts a).1 := by
  unfold Does at h
  rw [h]
  cases steps <;> rfl

theorem Does.not_escapes {act : Action TensorArray Unit} {steps : Outcome (List Step)} (h : Does act steps a)
    (hdtype : a.dtype = .text dtype) (hsteps : ¬steps.Escapes) : ¬Escapes (act a).1 := by
  rw [h.fst]
  exact not_escapes_bind hsteps fun ts _ => not_escapes_performEach hdtype ts

theorem not_escapes_steps_writeMany (a : TensorArray) (is : Sequence Int) (xs : Sequence Tensor) :
    ¬(Call.steps a (.writeMany is xs)).Escapes := by
  rw [Call.steps]
  split
  · exact not_escapes_ok _
  · exact not_escapes_refused _

theorem not_escapes_steps_scatter (hdtype : a.dtype = .text dtype) (is : Sequence Int) {x : Tensor}
    (hhost : x.device = .host) (hstorable : x.Storable) : ¬(Call.steps a (.scatter is x)).Escapes := by
  rw [Call.steps, hdtype]
  refine not_escapes_bind (not_escapes_opened a) fun _ _ =>
    not_escapes_bind (not_escapes_checkElementType dtype _ x) fun shape hshape => ?_
  obtain ⟨-, rfl⟩ := checkElementType_eq_ok hshape
  refine not_escapes_refuse_if fun hcount => ?_
  obtain ⟨rest, hx⟩ := List.head?_eq_some_iff.mp (not_not.mp hcount)
  cases is.members.max? with
  | none => exact not_escapes_ok []
  | some last =>
    refine not_escapes_refuse_if fun _ => ?_
    rw [Tensor.rowsUpTo_ok hhost hx hstorable]
    exact not_escapes_ok _

theorem not_escapes_steps_split (hdtype : a.dtype = .text dtype) (ns : Sequence Int) {x : Tensor}
    (hhost : x.device = .host) (hstorable : x.Storable) (hspelled : Spellable ns.members.sum) :
    ¬(Call.steps a (.split ns x)).Escapes := by
  rw [Call.steps, hdtype]
  refine not_escapes_bind (not_escapes_opened a) fun _ _ =>
    not_escapes_bind (not_escapes_checkElementType dtype _ x) fun shape hshape => ?_
  obtain ⟨-, rfl⟩ := checkElementType_eq_ok hshape
  cases hx : x.shape with
  | nil => exact not_escapes_refused _
  | cons n rest =>
    simp only [sumOf_eq, formatted_spellable hspelled]
    by_cases hsum : ns.members.sum = n
    · rw [if_neg (not_not.mpr hsum)]
      refine not_escapes_refuse_if fun _ => ?_
      exact not_escapes_bind (Tensor.not_escapes_split hhost hx hstorable hsum) fun _ _ => not_escapes_ok _
    · rw [if_pos hsum]
      exact not_escapes_refused _

/-! ### Calls that make a tensor -/

/-- The array is open, and its element type is the one that is asked for, if one is. -/
def Grants (a : TensorArray) (dtype : Option String) : Prop :=
  a.closed = false ∧ ∀ name ∈ dtype, a.dtype = .text name

/-- The shape of what an operation answers with that finds no element. -/
def nothingShape (a : TensorArray) (dropFirst : Bool) : Shape :=
  let dims := a.elementShape.collapse 0
  0 :: if dropFirst then dims.drop 1 else dims

/-- No array of the host is the answer of an operation that finds no element. -/
def Vast (a : TensorArray) (dropFirst : Bool) : Prop :=
  ∃ d ∈ DType.standard, a.dtype = .text d.name ∧ (a.nothingShape dropFirst).Excessive d.size

/-- A call that is to make one tensor where none can be made: what is read clashes as it is stacked, what is held as it is
    tied, or no array is the empty tensor that the call answers with. -/
def Call.Clashes (a : TensorArray) : Call → Prop
  | .gather is dtype => a.Grants dtype ∧ (is.members = [] ∧ a.Vast false ∨
      ∃ xs, (readEach (is.members.map .int) a).1 = .ok xs ∧ Tensor.ClashStacked xs)
  | .concat dtype => a.Grants dtype ∧ (a.held = [] ∧ a.Vast true ∨
      (∀ x ∈ a.slots.filterMap Slot.tensor, x.shape ≠ []) ∧ Tensor.ClashTied (a.slots.filterMap Slot.tensor))
  | _ => False

/-- What follows the checks of an operation that makes a tensor escapes where the checks succeed. -/
theorem escapes_granted {α : Type} (hdtype : a.dtype = .text dtype) (asked : Option String) (what : String)
    (o : Outcome α) :
    (a.opened >>= fun _ => checkDType (optionalText asked) a.dtype what >>= fun _ => o).Escapes ↔
      a.Grants asked ∧ o.Escapes := by
  have hopened : a.opened = .ok () ↔ a.closed = false := ⟨closed_of_opened, fun h => if_neg (by simp [h])⟩
  have hasked : checkDType (optionalText asked) a.dtype what = .ok () ↔ ∀ name ∈ asked, a.dtype = .text name := by
    cases asked with
    | none => exact iff_of_true rfl nofun
    | some name =>
      show checkDType (.text name) a.dtype what = .ok () ↔ _
      rw [hdtype, checkDType_text]
      by_cases hname : name = dtype
      · rw [if_pos hname, hname]
        simp
      · rw [if_neg hname]
        simp [Ne.symm hname]
  have hchecked : ¬(checkDType (optionalText asked) a.dtype what).Escapes :=
    hdtype ▸ not_escapes_checkDType asked dtype what
  rw [escapes_after (not_escapes_opened a), Unique.exists_iff, hopened, escapes_after hchecked, Unique.exists_iff, hasked,
    Grants, and_assoc]

theorem nothingOf_escapes_iff (hs : s.Default) {d : DType} (hd : d ∈ DType.standard) (hdtype : a.dtype = .text d.name)
    (dropFirst : Bool) : Escapes (nothingOf dropFirst (s, a)).1 ↔ a.Vast dropFirst := by
  have hnothing : (nothingOf dropFirst (s, a)).1 = Host.empty (a.nothingShape dropFirst).toValue (.text d.name) := by
    show (Session.empty (a.nothingShape dropFirst).toValue a.dtype Session.auto s).1 = _
    rw [hdtype, hs.empty_eq hd]
  rw [hnothing, Host.empty_escapes_iff hd, Vast, DType.exists_standard_iff hd hdtype]

theorem gather_escapes_iff (hs : s.Default) {d : DType} (hd : d ∈ DType.standard) (hdtype : a.dtype = .text d.name)
    (ha : a.Holds (Tensor.HostOf d)) (is : Sequence Int) (asked : Option String) :
    Escapes (gather (is.toValue .int) (optionalText asked) (s, a)).1 ↔ (Call.gather is asked).Clashes a := by
  rw [gather_fst, escapes_granted hdtype, Call.Clashes]
  refine and_congr_right fun _ => ?_
  by_cases hnil : is.members = []
  · have hread : ¬∃ xs, (readEach (is.members.map .int) a).1 = .ok xs ∧ Tensor.ClashStacked xs := by
      rw [hnil]
      rintro ⟨xs, hxs, hclash⟩
      cases hxs
      exact Tensor.not_clashStacked_nil hclash
    rw [if_pos hnil, nothingOf_escapes_iff hs hd hdtype, and_iff_right hnil, or_iff_left hread]
  · rw [if_neg hnil, escapes_after (not_escapes_readEach _ a), or_iff_right fun h => hnil h.1]
    refine exists_congr fun xs => and_congr_right fun hxs => ?_
    obtain ⟨hlength, hhost⟩ := ha.of_readEach hxs
    have hne : xs ≠ [] := by
      rw [← List.length_pos_iff, hlength]
      exact List.length_pos_iff.mpr hnil
    rw [Tensor.stack_escapes_iff hne fun x hx => (hhost x hx).1, Tensor.unstackable_iff hhost]

theorem held_eq_nil (a : TensorArray) : a.held = [] ↔ a.slots.filterMap Slot.tensor = [] := by
  rw [← List.length_eq_zero_iff, (forall₂_held a).length_eq, List.length_eq_zero_iff]

theorem Holds.of_held {P : Tensor → Prop} (h : a.Holds P) : ∀ x ∈ a.slots.filterMap Slot.tensor, P x := by
  intro x hx
  obtain ⟨slot, hslot, htensor⟩ := List.mem_filterMap.mp hx
  obtain ⟨k, hk⟩ := List.getElem?_of_mem hslot
  exact h k slot x hk htensor

theorem concat_escapes_iff (hs : s.Default) {d : DType} (hd : d ∈ DType.standard) (hdtype : a.dtype = .text d.name)
    (ha : a.Holds (Tensor.HostOf d)) {m : Making} {events : List Step} (h : Inv m a events) (asked : Option String) :
    Escapes (TensorArray.concat (optionalText asked) (s, a)).1 ↔ (Call.concat asked).Clashes a := by
  rw [concat_fst, escapes_granted hdtype, Call.Clashes]
  refine and_congr_right fun hgrants => ?_
  have hhost := ha.of_held
  have hread := h.readEach_held hgrants.1
  by_cases hnil : a.held = []
  · rw [if_pos hnil, nothingOf_escapes_iff hs hd hdtype, and_iff_right hnil, (held_eq_nil a).mp hnil,
      or_iff_left fun hboth => Tensor.not_clashTied_nil hboth.2]
  · have hne := mt (held_eq_nil a).mpr hnil
    rw [if_neg hnil, hread, Outcome.ok_bind, or_iff_right fun hboth => hnil hboth.1]
    generalize a.slots.filterMap Slot.tensor = xs at hhost hne
    by_cases hranked : ∀ x ∈ xs, x.shape ≠ []
    · rw [if_neg (mt (Tensor.any_scalar xs).mp (not_not_intro hranked)), and_iff_right hranked,
        Tensor.tie_escapes_iff hne (fun x hx => (hhost x hx).1) hranked, Tensor.untieable_iff hhost]
    · rw [if_pos ((Tensor.any_scalar xs).mpr hranked)]
      exact iff_of_false (not_escapes_refused _) fun hboth => hranked hboth.1

/-! ### All calls -/

theorem not_escapes_openSize (a : TensorArray) : ¬Escapes (openSize a).1 := by
  have hopened : (openSize a).1 = (fun _ => a.size) <$> a.opened := by
    rw [openSize, Action.bind_apply, requireOpen_apply, opened]
    by_cases hclosed : a.closed = true
    · simp only [if_pos hclosed]
      rfl
    · simp only [if_neg hclosed]
      rfl
  rw [hopened, escapes_map]
  exact not_escapes_opened a

theorem not_escapes_read (i : Int) (a : TensorArray) : ¬Escapes (TensorArray.read (.int i) a).1 := by
  have hread : (TensorArray.read (.int i) a).1 = a.readable i := by
    rw [read_eq]
    cases a.readable i <;> rfl
  rw [hread]
  exact not_escapes_readable i a

theorem not_escapes_readMany (is : Sequence Int) (a : TensorArray) : ¬Escapes (readMany (is.toValue .int) a).1 := by
  have hreads : readMany (is.toValue .int) a = readEach (is.members.map .int) a := Action.bind_ok (lift_items a .int is)
  rw [hreads]
  exact not_escapes_readEach is.members a

theorem not_escapes_clearAndClose (hs : s.Default) (a : TensorArray) : ¬Escapes (clearAndClose (s, a)).1 := by
  show ¬Escapes (Session.record .tensorArray (closedLine a.name) s).1
  rw [hs.record]
  exact not_escapes_ok ()

/-- What an operation answers with is only wrapped up. -/
theorem escapes_wrapped {σ α : Type} (act : Action σ α) (f : α → Value) (p : σ) :
    Escapes ((act >>= fun x => pure (f x) : Action σ Value) p).1 ↔ Escapes (act p).1 := by
  rw [Action.fst_bind_pure, escapes_map]

theorem not_escapes_wrapped {α : Type} {act : Action TensorArray α} (h : ¬Escapes (act a).1) (f : α → Value)
    (s : Session) : ¬Escapes ((act.onSecond >>= fun x => pure (f x) : Action (Session × TensorArray) Value) (s, a)).1 :=
  mt (escapes_wrapped _ _ _).mp h

/-- A call on tensors of the host is refused or does what it is to do, unless it clashes. -/
theorem Call.escapes_iff (hs : s.Default) {d : DType} (hd : d ∈ DType.standard) (hdtype : a.dtype = .text d.name)
    (ha : a.Holds (Tensor.HostOf d)) {m : Making} {events : List Step} (h : Inv m a events) {c : Call}
    (hc : c.OnHost) (hspelled : ∀ n ∈ c.shown a, Spellable n) : Escapes (c.perform (s, a)).1 ↔ c.Clashes a := by
  rw [perform_eq]
  cases c with
  | size => exact iff_of_false (not_escapes_wrapped (not_escapes_openSize a) _ s) not_false
  | read i => exact iff_of_false (not_escapes_wrapped (not_escapes_read i a) _ s) not_false
  | readMany is => exact iff_of_false (not_escapes_wrapped (not_escapes_readMany is a) _ s) not_false
  | write i x =>
    have hwrite := (does_write a i x).not_escapes hdtype (not_escapes_ok _)
    exact iff_of_false (not_escapes_wrapped hwrite _ s) not_false
  | writeMany is xs =>
    have hwrites := (does_writeMany a is xs).not_escapes hdtype (not_escapes_steps_writeMany a is xs)
    exact iff_of_false (not_escapes_wrapped hwrites _ s) not_false
  | gather is asked =>
    exact (escapes_wrapped (TensorArray.gather _ _) _ _).trans (gather_escapes_iff hs hd hdtype ha is asked)
  | scatter is x =>
    obtain ⟨hhost, hstorable⟩ := hc x List.mem_cons_self
    have hscatter := (does_scatter a is x).not_escapes hdtype (not_escapes_steps_scatter hdtype is hhost hstorable)
    exact iff_of_false (not_escapes_wrapped hscatter _ s) not_false
  | concat asked =>
    exact (escapes_wrapped (TensorArray.concat _) _ _).trans (concat_escapes_iff hs hd hdtype ha h asked)
  | split ns x =>
    obtain ⟨hhost, hstorable⟩ := hc x List.mem_cons_self
    have hsum : Spellable ns.members.sum := hspelled _ (List.mem_append_right _ List.mem_cons_self)
    have hsplit := (does_split a ns x).not_escapes hdtype (not_escapes_steps_split hdtype ns hhost hstorable hsum)
    exact iff_of_false (not_escapes_wrapped hsplit _ s) not_false
  | clearAndClose => exact iff_of_false (mt (escapes_wrapped _ _ _).mp (not_escapes_clearAndClose hs a)) not_false

/-! ### Arrays in use -/

theorem mem_of_effective {ts : List Step} {t : Step} (h : t ∈ effective ts a) : t ∈ ts := by
  induction ts generalizing a with
  | nil => cases h
  | cons u ts ih =>
    rw [effective] at h
    rcases houtcome : u.outcome a with e | ⟨⟩
    · rw [houtcome] at h
      cases h
    · rw [houtcome] at h
      rcases List.mem_cons.mp h with rfl | h
      · exact List.mem_cons_self
      · exact List.mem_cons_of_mem _ (ih h)

/-- What a call of tensors of the host writes are tensors of the host. -/
theorem Call.OnHost.written {c : Call} (hc : c.OnHost) (hdtype : a.dtype = .text dtype) {ts : List Step}
    (hts : c.steps a = .ok ts) {i : Int} {x : Tensor} (hx : .write i x ∈ ts) : x.device = .host := by
  -- The parts that are written go to their slots pair by pair.
  have hpaired {is : List Int} {xs : List Tensor} (hmem : Step.write i x ∈ (is.zip xs).map .put) : x ∈ xs := by
    obtain ⟨w, hw, heq⟩ := List.mem_map.mp hmem
    cases heq
    exact (List.of_mem_zip hw).2
  cases c with
  | size | clearAndClose | read _ | readMany _ =>
    cases hts
    simp at hx
  | gather is asked =>
    obtain ⟨reads, rfl⟩ := Call.Collects.steps (c := .gather is asked) trivial hts
    simp at hx
  | concat asked =>
    obtain ⟨reads, rfl⟩ := Call.Collects.steps (c := .concat asked) trivial hts
    simp at hx
  | write j y =>
    cases hts
    cases List.mem_singleton.mp hx
    exact (hc x List.mem_cons_self).1
  | writeMany is xs =>
    rw [Call.steps] at hts
    split at hts <;> cases hts
    rw [zipWith_write] at hx
    exact (hc x (hpaired hx)).1
  | scatter is y =>
    obtain ⟨-, -, ⟨rest, hy⟩, -, rows, hrows, rfl⟩ := steps_scatter_eq_ok hdtype hts
    obtain rfl := Tensor.rowsUpTo_eq hy hrows
    exact (Tensor.like_of_mem_slices hy (hpaired hx)).device.trans (hc y List.mem_cons_self).1
  | split ns y =>
    obtain ⟨hhost, hstorable⟩ := hc y List.mem_cons_self
    obtain ⟨-, -, hne, -, parts, hparts, rfl⟩ := steps_split_eq_ok hdtype hts
    obtain ⟨n, rest, hy⟩ := List.exists_cons_of_ne_nil hne
    obtain ⟨-, -, hparted⟩ := Tensor.split_eq_ok hy hstorable hparts
    obtain ⟨k, hk⟩ := List.getElem?_of_mem (hpaired hx)
    obtain ⟨l, -, hlike⟩ := getElem?_of_forall₂ hparted.like.flip hk
    exact hlike.device.trans hhost

namespace Life

variable {m : Making} {cs : List Call}

theorem mem_events_after {l : Life} {c : Call} {t : Step} (h : t ∈ (l.after c).events) :
    t ∈ l.events ∨ ∃ ts, c.steps l.array = .ok ts ∧ t ∈ ts := by
  rcases List.mem_append.mp h with h | h
  · exact Or.inl h
  · cases hsteps : c.steps l.array with
    | error e =>
      rw [hsteps] at h
      cases h
    | ok ts =>
      rw [hsteps] at h
      exact Or.inr ⟨ts, rfl, mem_of_effective h⟩

theorem written_of (s : Session) (hcs : ∀ c ∈ cs, c.OnHost) {i : Int} {x : Tensor}
    (hx : .write i x ∈ (of s m.array cs).events) : x.device = .host := by
  induction cs using List.reverseRecOn with
  | nil => cases hx
  | append_singleton cs c ih =>
    rw [of_concat] at hx
    rcases mem_events_after hx with hx | ⟨ts, hts, hx⟩
    · exact ih (fun b hb => hcs b (List.mem_append_left _ hb)) hx
    · exact (hcs c (by simp)).written (inv_of m s cs).dtype hts hx

/-- After calls on tensors of the host, the array holds tensors of the host, and they have its element type. -/
theorem holds_of (s : Session) (hcs : ∀ c ∈ cs, c.OnHost) {d : DType} (hd : d ∈ DType.standard)
    (hname : m.dtype = d.name) : (of s m.array cs).array.Holds (Tensor.HostOf d) := by
  intro k slot x hk hx
  obtain ⟨hdtype, -⟩ := (inv_of m s cs).elements k slot x hk hx
  exact ⟨written_of s hcs (((inv_of m s cs).slots k slot hk).write_mem hx),
    (DType.eq_of_name hd (hdtype.trans hname).symm).symm⟩

theorem default_of (hs : s.Default) (a : TensorArray) (cs : List Call) : (of s a cs).session.Default := by
  induction cs using List.reverseRecOn with
  | nil => exact hs
  | append_singleton cs c ih =>
    rw [of_concat]
    exact ih.of_alike ((confined_call c.method c.arguments).keeps ((of s a cs).session, (of s a cs).array)).1

/-- However an array has been used, a call on tensors of the host is refused or does what it is to do, unless it
    clashes. -/
theorem escapes_iff (hs : s.Default) (hmake : ofArguments s m.arguments [] = .ok a) (hcs : ∀ c ∈ cs, c.OnHost)
    {c : Call} (hc : c.OnHost) (hspelled : ∀ n ∈ c.shown (of s a cs).array, Spellable n) :
    Escapes (c.perform ((of s a cs).session, (of s a cs).array)).1 ↔ c.Clashes (of s a cs).array := by
  obtain ⟨⟨i, hi⟩, rfl⟩ := Making.of_make hmake
  obtain ⟨d, hd, hname⟩ := Session.exists_standard hs.dtypes hi
  have hinv := inv_of m s cs
  have hholds := holds_of s hcs hd (Value.text.inj hname)
  exact c.escapes_iff (default_of hs _ cs) hd (hinv.dtype.trans hname) hholds hinv hc hspelled

end Life

end TensorArray

end Dataflow
