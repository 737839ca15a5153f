import Dataflow.Proofs.Creation
import Dataflow.Proofs.Joining
import Dataflow.Proofs.QueueLives

/-! Queues whose columns have known shapes, under the settings that are there by default. Dequeues answer as long as
    arrays can hold the answers, and the rows of the answers are the components of the tuples that were let in, in their
    order. -/

namespace Dataflow

/-! ### Default settings -/

namespace Session

/-- A session in which nothing has been set: the host makes the tensors, the standard element types are all that is
    registered, and no log is written. -/
structure Default (s : Session) : Prop where
  device : s.config.value .device = Device.host.name
  dtypes : s.dtypes = DType.standard.map .ofDType
  quiet : s.logs = false

theorem default_initial (torch : Bool) : (initial [] torch false).Default := ⟨rfl, rfl, rfl⟩

variable {s : Session}

theorem Default.settled (h : s.Default) (k : Setting) : (s.settled k).Default :=
  ⟨(Config.value_read k .device s.config).trans h.device, h.dtypes, h.quiet⟩

theorem Default.knowsStandard (h : s.Default) : s.KnowsStandard := by
  intro d hd
  obtain ⟨i, hi⟩ := (ready_initial false false).dtypes d hd
  refine ⟨i, ?_⟩
  rw [← hi, dtypeInfo, dtypeInfo, registeredDType?, registeredDType?, h.dtypes]
  rfl

theorem Default.record (h : s.Default) (source : LogSource) (text : Outcome String) :
    record source text s = (.ok (), s) := by
  rw [Session.record, Action.bind_ok (Action.get_apply s), h.quiet]
  rfl

theorem exists_standard (h : s.dtypes = DType.standard.map .ofDType) {d : Value} {i : DTypeInfo}
    (hi : s.dtypeInfo d = .ok i) :
    ∃ e ∈ DType.standard, d = .text e.name := by
  rw [dtypeInfo, registeredDType?] at hi
  by_cases hkey : d.isKey = true
  · rw [if_pos hkey, Outcome.ok_bind] at hi
    cases hfind : s.dtypes.find? (·.name.same d) with
    | none =>
      rw [hfind] at hi
      cases hi
    | some j =>
      have hj := List.mem_of_find?_eq_some hfind
      have hsame := List.find?_some hfind
      rw [h] at hj
      obtain ⟨e, he, rfl⟩ := List.mem_map.mp hj
      refine ⟨e, he, ?_⟩
      cases d <;> simp [DTypeInfo.ofDType, Value.same, Value.number?] at hsame
      rw [hsame]
  · rw [if_neg hkey] at hi
    cases hi

end Session

/-! ### Empty tensors -/

namespace Shape

theorem span_cons (n : Nat) (s : Shape) : span (n :: s) = (if n = 0 then 1 else n) * span s := by
  by_cases hn : n = 0
  · rw [if_pos hn, Nat.one_mul, span, List.filter_cons_of_neg (by simpa using hn), ← span]
  · rw [if_neg hn, span, List.filter_cons_of_pos (by simpa using hn), size_cons, ← span]

theorem span_pos (s : Shape) : 0 < span s := by
  induction s with
  | nil => exact Nat.zero_lt_one
  | cons n s ih =>
    rw [span_cons]
    exact Nat.mul_pos (by split <;> omega) ih

theorem le_span {n : Nat} {s : Shape} (hn : n ∈ s) : n ≤ span s := by
  induction s with
  | nil => cases hn
  | cons m s ih =>
    rw [span_cons]
    rcases List.mem_cons.mp hn with rfl | hn
    · exact Nat.le_mul_of_pos_right _ (span_pos s) |>.trans' (by split <;> omega)
    · exact (ih hn).trans (Nat.le_mul_of_pos_left _ (by split <;> omega))

/-- No dimension of an array of the host is beyond a word. -/
theorem lt_of_fits {n elementSize : Nat} {s : Shape} (h : fits s elementSize = true) (hsize : 0 < elementSize)
    (hn : n ∈ s) : n < byteLimit := by
  have hbytes : span s * elementSize < byteLimit := of_decide_eq_true h
  calc n ≤ span s := le_span hn
    _ ≤ span s * elementSize := Nat.le_mul_of_pos_right _ hsize
    _ < byteLimit := hbytes

end Shape

namespace Host

variable {d : DType} {s : Shape}

theorem dimension_natCast {n : Nat} (hn : n < Shape.byteLimit) : dimension (.int n) = .ok n := by
  have hword : n < 2 ^ 63 := hn
  have hholds : Storage.holds true 64 n = true := by
    simp only [Storage.holds, Storage.lowest, Storage.highest, if_true, Bool.and_eq_true, decide_eq_true_eq]
    omega
  rw [dimension, if_pos hholds]

theorem dimensions_tuple (hrank : s.length ≤ Shape.axisLimit) (hs : ∀ n ∈ s, n < Shape.byteLimit) :
    dimensions (.tuple (s.map fun (n : Nat) => .int n)) = .ok (s.map fun (n : Nat) => (n : Int)) := by
  have hone : ∀ n ∈ s, (dimension ∘ fun (n : Nat) => Value.int n) n = .ok (n : Int) := fun n hn =>
    dimension_natCast (hs n hn)
  rw [dimensions, List.length_map, if_neg (Nat.not_lt.mpr hrank), List.mapM_map, Outcome.mapM_ok hone]

theorem newShape_natCast {elementSize : Nat} (hrank : s.length ≤ Shape.axisLimit)
    (hroom : Shape.fits s elementSize = true) :
    newShape elementSize (s.map fun (n : Nat) => (n : Int)) = .ok s := by
  have hnats : (s.map fun (n : Nat) => (n : Int)).map Int.toNat = s := by
    rw [List.map_map]
    exact List.map_id _
  have hnonneg : ¬(s.map fun (n : Nat) => (n : Int)).any (· < 0) = true := by simp
  rw [newShape, hnats, if_neg]
  rintro (h | h | h)
  · exact hnonneg h
  · exact absurd h (Nat.not_lt.mpr hrank)
  · rw [hroom] at h
    cases h

theorem size_pos_of_standard (hd : d ∈ DType.standard) : 0 < d.size := by
  unfold DType.standard at hd
  fin_cases hd <;> decide

/-- A tensor of zeros of a standard element type, as long as an array can hold it. -/
theorem empty_ok (hd : d ∈ DType.standard) (hrank : s.length ≤ Shape.axisLimit) (hroom : s.fits d.size = true) :
    empty (.tuple (s.map fun (n : Nat) => .int n)) (.text d.name) = .ok (.zeros .host d s) := by
  have hwords : ∀ n ∈ s, n < Shape.byteLimit := fun n hn => Shape.lt_of_fits hroom (size_pos_of_standard hd) hn
  rw [empty, dimensions_tuple hrank hwords, typeFor_standard hd, Outcome.ok_bind, Outcome.ok_bind]
  show (do return Tensor.zeros .host d (← newShape d.size (s.map (fun (n : Nat) => (n : Int)) ++ []))) = _
  rw [List.append_nil, newShape_natCast hrank hroom]
  rfl

end Host

theorem Tensor.slices_of_shape_zero {x : Tensor} {s : Shape} (hx : x.shape = 0 :: s) : x.slices = [] := by
  rw [slices, hx]
  rfl

theorem Action.exists_mapM {σ α β : Type} {f : α → Action σ β} {I : σ → Prop} {P : α → β → Prop} {l : List α}
    (h : ∀ x ∈ l, ∀ s, I s → ∃ y t, f x s = (.ok y, t) ∧ I t ∧ P x y) {s : σ} (hs : I s) :
    ∃ ys t, l.mapM f s = (.ok ys, t) ∧ I t ∧ List.Forall₂ P l ys := by
  induction l generalizing s with
  | nil => exact ⟨[], s, rfl, hs, .nil⟩
  | cons x l ih =>
    obtain ⟨y, t, hy, ht, hxy⟩ := h x List.mem_cons_self s hs
    obtain ⟨ys, u, hys, hu, hl⟩ := ih (fun z hz => h z (List.mem_cons_of_mem _ hz)) ht
    refine ⟨y :: ys, u, ?_, hu, .cons hxy hl⟩
    rw [List.mapM_cons, bind_ok hy, bind_ok hys]
    rfl

namespace Queue

/-! ### Columns of known shapes -/

variable {s : Session} {q : Queue} {b : Device} {cols : List (DType × Shape)}

/-- A queue whose columns have these standard element types and these shapes. -/
structure Schema (cols : List (DType × Shape)) (q : Queue) : Prop where
  dtypes : q.dtypes = cols.map fun c => .text c.1.name
  shapes : q.shapes = cols.map fun c => .ofShape c.2
  standard : ∀ c ∈ cols, c.1 ∈ DType.standard

/-- A tuple of tensors of one device that has a component for each column. -/
def Fits (b : Device) (cols : List (DType × Shape)) (t : List Tensor) : Prop :=
  List.Forall₂ (fun (x : Tensor) c => x.device = b ∧ x.dtype = c.1 ∧ x.shape = c.2) t cols

theorem exists_map {α β : Type} {f : α → β} {P : α → Prop} {l : List β} (h : ∀ y ∈ l, ∃ x, P x ∧ y = f x) :
    ∃ xs : List α, l = xs.map f ∧ ∀ x ∈ xs, P x := by
  induction l with
  | nil => exact ⟨[], rfl, by simp⟩
  | cons y l ih =>
    obtain ⟨x, hx, rfl⟩ := h y List.mem_cons_self
    obtain ⟨xs, rfl, hxs⟩ := ih fun z hz => h z (List.mem_cons_of_mem _ hz)
    exact ⟨x :: xs, rfl, List.forall_mem_cons.mpr ⟨hx, hxs⟩⟩

theorem exists_ofShape {p : PartialShape Nat} (h : p.isDefined = true) : ∃ s, p = .ofShape s := by
  cases p with
  | none => cases h
  | some ds =>
    obtain ⟨s, hs, -⟩ := exists_map (f := some) (P := fun _ => True) (l := ds) fun d hd =>
      (Option.isSome_iff_exists.mp (List.all_eq_true.mp h d hd)).imp fun n hn => ⟨trivial, hn⟩
    exact ⟨s, congrArg some hs⟩

theorem exists_schema (hs : s.Default) (hq : Fresh s q) (hdefined : ∀ p ∈ q.shapes, p.isDefined = true) :
    ∃ cols, Schema cols q := by
  obtain ⟨ds, hds, hstandard⟩ := exists_map (f := fun d : DType => Value.text d.name) (l := q.dtypes) fun d hd =>
    let ⟨_, hi⟩ := hq.dtypes d hd
    Session.exists_standard hs.dtypes hi
  obtain ⟨ss, hss, -⟩ := exists_map (f := PartialShape.ofShape (α := Nat)) (P := fun _ => True) (l := q.shapes)
    fun p hp => (exists_ofShape (hdefined p hp)).imp fun s hs => ⟨trivial, hs⟩
  have hlength : ds.length = ss.length := by
    have hshapes := hq.shapes
    rw [hds, hss, List.length_map, List.length_map] at hshapes
    exact hshapes.symm
  refine ⟨ds.zip ss, ?_, ?_, fun c hc => hstandard _ (List.of_mem_zip hc).1⟩
  · calc
      q.dtypes = ((ds.zip ss).map Prod.fst).map fun d => .text d.name := by
        rw [List.map_fst_zip (Nat.le_of_eq hlength), hds]
      _ = (ds.zip ss).map fun c => .text c.1.name := List.map_map
  · calc
      q.shapes = ((ds.zip ss).map Prod.snd).map .ofShape := by
        rw [List.map_snd_zip (Nat.le_of_eq hlength.symm), hss]
      _ = (ds.zip ss).map fun c => .ofShape c.2 := List.map_map

theorem Schema.columns (h : Schema cols q) : q.columns = cols.map fun c => (.text c.1.name, .ofShape c.2) := by
  rw [Queue.columns, h.dtypes, h.shapes, List.zip_map']

theorem fits_of_admitted (h : Schema cols q) {xs : List Value} {ts : List Tensor} (hts : q.admitted xs = .ok ts)
    (hxs : ∀ x, .tensor x ∈ xs → x.device = b) : Fits b cols ts := by
  obtain ⟨rfl, hlength, hletsIn⟩ := admitted_ok hts
  refine List.forall₂_iff_zip.mpr ⟨by rw [hlength, h.dtypes, List.length_map], fun {x c} hmem => ?_⟩
  obtain ⟨hx, hc⟩ := List.of_mem_zip hmem
  have hin : LetsIn (.text c.1.name, .ofShape c.2) x := by
    refine hletsIn (x, (.text c.1.name, .ofShape c.2)) ?_
    rw [h.columns, List.zip_map_right]
    exact List.mem_map_of_mem hmem
  obtain ⟨what, hdtype⟩ := hin.dtype
  have hname : c.1.name = x.dtype.name := Value.text.inj (name_of_checkDType nofun hdtype)
  have hshape : PartialShape.ofShape c.2 = .ofShape x.shape :=
    PartialShape.eq_ofShape_of_isDefined (PartialShape.isDefined_ofShape _) hin.shape
  refine ⟨hxs x (List.mem_map_of_mem hx), (DType.eq_of_name (h.standard c hc) hname).symm, ?_⟩
  exact (PartialShape.ofShape_inj hshape).symm

theorem Fits.exists_component {t : List Tensor} (h : Fits b cols t) {k : Nat} {c : DType × Shape}
    (hc : cols[k]? = some c) : ∃ x, t[k]? = some x ∧ x.device = b ∧ x.dtype = c.1 ∧ x.shape = c.2 := by
  obtain ⟨hlength, hget⟩ := List.forall₂_iff_get.mp h
  obtain ⟨hk, rfl⟩ := List.getElem?_eq_some_iff.mp hc
  exact ⟨t[k], List.getElem?_eq_getElem _, hget k (hlength ▸ hk) hk⟩

theorem componentsAt_fits {tuples : List (List Tensor)} (h : ∀ t ∈ tuples, Fits b cols t) {k : Nat} {c : DType × Shape}
    (hc : cols[k]? = some c) :
    (componentsAt tuples k).length = tuples.length ∧
      ∀ x ∈ componentsAt tuples k, x.device = b ∧ x.dtype = c.1 ∧ x.shape = c.2 := by
  induction tuples with
  | nil => exact ⟨rfl, by simp [componentsAt]⟩
  | cons t tuples ih =>
    obtain ⟨x, hx, hxc⟩ := (h t List.mem_cons_self).exists_component hc
    obtain ⟨hlength, hall⟩ := ih fun u hu => h u (List.mem_cons_of_mem _ hu)
    rw [componentsAt_cons hx]
    exact ⟨congrArg (· + 1) hlength, List.forall_mem_cons.mpr ⟨hxc, hall⟩⟩

/-! ### Dequeues -/

/-- A dequeue that asks for no element types, or for those of the columns. -/
def Asks (q : Queue) (dtypes : Value) : Prop :=
  dtypes = .nothing ∨ dtypes.items = .ok [] ∨ dtypes.items = .ok q.dtypes

/-- Arrays can hold what a dequeue of a number of tuples gives out. -/
def HasRoom (q : Queue) (n : Nat) : Prop :=
  ∀ d ∈ DType.standard, ∀ s : Shape, (.text d.name, .ofShape s) ∈ q.columns →
    s.length < Shape.axisLimit ∧ Shape.fits (min n q.size :: s) d.size = true

/-- A tensor for each column, of its element type and shape, with the components of tuples as its rows. -/
structure Answers (q : Queue) (tuples : List (List Tensor)) (ys : List Tensor) : Prop where
  length : ys.length = q.dtypes.length
  dtype : ∀ (k : Nat) (y : Tensor), ys[k]? = some y → q.dtypes[k]? = some (.text y.dtype.name)
  shape : ∀ (k : Nat) (y : Tensor), ys[k]? = some y →
    ∃ s, q.shapes[k]? = some (.ofShape s) ∧ y.shape = tuples.length :: s
  rows : ∀ (k : Nat) (y : Tensor), ys[k]? = some y → y.slices = componentsAt tuples k

variable {tuples : List (List Tensor)} {ys : List Tensor}

theorem Schema.answers (hq : Schema cols q) (hlength : ys.length = cols.length)
    (h : ∀ (k : Nat) (c : DType × Shape) (y : Tensor), cols[k]? = some c → ys[k]? = some y →
      y.dtype = c.1 ∧ y.shape = tuples.length :: c.2 ∧ y.slices = componentsAt tuples k) : Answers q tuples ys := by
  have hcolumn : ∀ (k : Nat) (y : Tensor), ys[k]? = some y → ∃ c, cols[k]? = some c := by
    intro k y hy
    obtain ⟨hk, -⟩ := List.getElem?_eq_some_iff.mp hy
    rw [hlength] at hk
    exact ⟨_, List.getElem?_eq_getElem hk⟩
  refine ⟨by rw [hlength, hq.dtypes, List.length_map], fun k y hy => ?_, fun k y hy => ?_, fun k y hy => ?_⟩
  · obtain ⟨c, hc⟩ := hcolumn k y hy
    rw [hq.dtypes, List.getElem?_map, hc, (h k c y hc hy).1]
    rfl
  · obtain ⟨c, hc⟩ := hcolumn k y hy
    refine ⟨c.2, ?_, (h k c y hc hy).2.1⟩
    rw [hq.shapes, List.getElem?_map, hc]
    rfl
  · obtain ⟨c, hc⟩ := hcolumn k y hy
    exact (h k c y hc hy).2.2

theorem checkAsked_self (k : Nat) (names : List String) :
    q.checkAsked k ((names.map Value.text).zip (names.map Value.text)) = .ok () := by
  induction names generalizing k with
  | nil => rfl
  | cons name names ih =>
    rw [List.map_cons, List.zip_cons_cons, checkAsked, checkDType_text, if_pos rfl, Outcome.ok_bind]
    exact ih (k + 1)

theorem checkDTypes_of_items {dtypes : Value} {ds : List Value} (h : dtypes.items = .ok ds) :
    q.checkDTypes dtypes =
      if ds.isEmpty then .ok ()
      else if ds.length ≠ q.dtypes.length then .error (q.refusal (.dtypeCount q.dtypes.length ds.length))
      else q.checkAsked 0 (ds.zip q.dtypes) := by
  cases dtypes with
  | nothing => cases h
  | _ =>
    simp only [checkDTypes, h, Outcome.ok_bind]
    split
    · rfl
    · split <;> rfl

theorem Asks.check_names {dtypes : Value} (h : Asks q dtypes) (names : List String)
    (hnames : q.dtypes = names.map Value.text) : q.checkDTypes dtypes = .ok () := by
  rcases h with rfl | h | h
  · rfl
  · rw [checkDTypes_of_items h]
    rfl
  · have hlength : ¬q.dtypes.length ≠ q.dtypes.length := fun hne => hne rfl
    rw [checkDTypes_of_items h, if_neg hlength, hnames, checkAsked_self, ite_self]

theorem Asks.check {dtypes : Value} (h : Asks q dtypes) (hq : Schema cols q) : q.checkDTypes dtypes = .ok () :=
  h.check_names (cols.map fun c => c.1.name) <| by
    rw [hq.dtypes, List.map_map]
    rfl

/-- Without tuples, the host makes an empty tensor for each column. -/
theorem collected_nil (hs : s.Default) (hq : Schema cols q)
    (hroom : ∀ c ∈ cols, c.2.length < Shape.axisLimit ∧ Shape.fits (0 :: c.2) c.1.size = true) :
    ∃ ys t, q.collected [] s = (.ok ys, t) ∧ t.Default ∧ Answers q [] ys := by
  have hempty : ∀ c ∈ cols, ∀ s : Session, s.Default → ∃ y t,
      Session.empty (Shape.toValue (0 :: (PartialShape.ofShape c.2).collapse 0)) (.text c.1.name) Session.auto s =
        (.ok y, t) ∧ t.Default ∧ y.dtype = c.1 ∧ y.shape = 0 :: c.2 := by
    intro c hc s hs
    obtain ⟨hrank, hfits⟩ := hroom c hc
    have hcollapse : (PartialShape.ofShape c.2).collapse 0 = c.2 := by
      show (c.2.map some).map (·.getD 0) = c.2
      rw [List.map_map]
      exact List.map_id _
    have hkernel : Kernel.empty .host (.tuple ((0 :: c.2).map fun (n : Nat) => .int n)) (.text c.1.name) =
        .ok (.zeros .host c.1 (0 :: c.2)) := Host.empty_ok (hq.standard c hc) (Nat.succ_le_of_lt hrank) hfits
    refine ⟨.zeros .host c.1 (0 :: c.2), _, ?_, hs.settled .device, rfl, rfl⟩
    rw [hcollapse]
    exact Session.empty_ok hs.knowsStandard s.host_mem_devices hs.device (hq.standard c hc) rfl hkernel rfl
  obtain ⟨ys, t, hys, ht, hcolumns⟩ := Action.exists_mapM hempty hs
  obtain ⟨hlength, hget⟩ := List.forall₂_iff_get.mp hcolumns
  refine ⟨ys, t, ?_, ht, hq.answers hlength.symm fun k c y hc hy => ?_⟩
  · rw [collected, if_pos List.isEmpty_nil, hq.columns, List.mapM_map]
    exact hys
  · obtain ⟨hk, rfl⟩ := List.getElem?_eq_some_iff.mp hc
    obtain ⟨hk', rfl⟩ := List.getElem?_eq_some_iff.mp hy
    obtain ⟨hdtype, hshape⟩ := hget k hk hk'
    exact ⟨hdtype, hshape, Tensor.slices_of_shape_zero hshape⟩

theorem collected_tuples (hq : Schema cols q) (hne : tuples ≠ []) (htuples : ∀ t ∈ tuples, Fits b cols t)
    (hroom : ∀ c ∈ cols, c.2.length < Shape.axisLimit ∧ Shape.fits (tuples.length :: c.2) c.1.size = true) :
    ∃ ys, q.collected tuples s = (.ok ys, s) ∧ Answers q tuples ys := by
  have hstack : ∀ k ∈ List.range cols.length, ∀ t : Session, t = s → ∃ y u,
      (liftM (column tuples k) : Action Session Tensor) t = (.ok y, u) ∧ u = s ∧ ∀ c, cols[k]? = some c →
        y.dtype = c.1 ∧ y.shape = tuples.length :: c.2 ∧ y.slices = componentsAt tuples k := by
    rintro k hk t rfl
    obtain ⟨c, hc⟩ : ∃ c, cols[k]? = some c := ⟨_, List.getElem?_eq_getElem (List.mem_range.mp hk)⟩
    obtain ⟨hlength, hall⟩ := componentsAt_fits htuples hc
    obtain ⟨hrank, hfits⟩ := hroom c (List.mem_of_getElem? hc)
    have hcomponents : componentsAt tuples k ≠ [] := fun hnil => hne <| by
      rw [hnil] at hlength
      exact List.eq_nil_of_length_eq_zero hlength.symm
    obtain ⟨z, hz, hstacks⟩ := Tensor.stack_ok hcomponents hall (fun _ => hrank) fun _ => hlength ▸ hfits
    refine ⟨z, t, ?_, rfl, fun c' hc' => ?_⟩
    · rw [Action.lift_apply]
      exact congrArg (·, t) hz
    · obtain rfl := Option.some.inj (hc.symm.trans hc')
      exact ⟨hstacks.dtype, hlength ▸ hstacks.shape, hstacks.slices_eq hall⟩
  obtain ⟨ys, t, hys, rfl, hcolumns⟩ := Action.exists_mapM hstack rfl
  obtain ⟨hlength, hget⟩ := List.forall₂_iff_get.mp hcolumns
  rw [List.length_range] at hlength
  refine ⟨ys, ?_, hq.answers hlength.symm fun k c y hc hy => ?_⟩
  · have hempty : ¬tuples.isEmpty = true := fun hnil => hne (List.isEmpty_iff.mp hnil)
    have hcount : q.dtypes.length = cols.length := by rw [hq.dtypes, List.length_map]
    rw [collected, if_neg hempty, hcount]
    exact (Action.mapM_lift _ _ _).symm.trans hys
  · obtain ⟨hk, rfl⟩ := List.getElem?_eq_some_iff.mp hy
    have hk' : k < (List.range cols.length).length := by rwa [List.length_range, hlength]
    have hcolumn := hget k hk' hk
    rw [List.get_eq_getElem, List.getElem_range] at hcolumn
    exact hcolumn c hc

theorem dequeueUpTo_ok (hs : s.Default) (hq : Schema cols q) (hfits : ∀ t ∈ q.tuples, Fits b cols t) {n : Nat}
    {dtypes : Value} (hasks : Asks q dtypes) (hroom : HasRoom q n) :
    ∃ ys t, dequeueUpTo (.int n) dtypes (s, q) = (.ok ys, t, q.drop (min n q.size)) ∧ t.Default ∧
      Answers q (q.tuples.take (min n q.size)) ys := by
  have hlength : (q.tuples.take (min n q.size)).length = min n q.size :=
    List.length_take_of_le (Nat.min_le_right _ _)
  have hroom' : ∀ c ∈ cols, c.2.length < Shape.axisLimit ∧
      Shape.fits ((q.tuples.take (min n q.size)).length :: c.2) c.1.size = true := by
    intro c hc
    rw [hlength]
    refine hroom c.1 (hq.standard c hc) c.2 ?_
    rw [hq.columns]
    exact List.mem_map_of_mem hc
  have hcollected : ∃ ys t, q.collected (q.tuples.take (min n q.size)) s = (.ok ys, t) ∧ t.Default ∧
      Answers q (q.tuples.take (min n q.size)) ys := by
    by_cases hnil : q.tuples.take (min n q.size) = []
    · rw [hnil] at hroom' ⊢
      exact collected_nil hs hq hroom'
    · have htuples : ∀ t ∈ q.tuples.take (min n q.size), Fits b cols t := fun t ht => hfits t (List.mem_of_mem_take ht)
      obtain ⟨ys, hys, hanswers⟩ := collected_tuples (s := s) hq hnil htuples hroom'
      exact ⟨ys, s, hys, hs, hanswers⟩
  obtain ⟨ys, t, hys, ht, hanswers⟩ := hcollected
  refine ⟨ys, t, ?_, ht, hanswers⟩
  rw [dequeueUpTo_eq, due_natCast (hasks.check hq)]
  dsimp only
  rw [hs.record]
  dsimp only
  rw [hys]

/-! ### Lives -/

/-- An event with tensors of one device, or a dequeue that may ask for what it asks and whose answer arrays can hold. -/
inductive Event.Allowed (b : Device) (q : Queue) : Event → Prop
  | enqueue {xs : List Value} (hxs : ∀ x, .tensor x ∈ xs → x.device = b) : Allowed b q (.enqueue xs)
  | dequeue {n : Nat} {dtypes : Value} (hasks : Asks q dtypes) (hroom : HasRoom q n) :
      Allowed b q (.dequeue (.int n) dtypes)

namespace Life

/-- Every event is allowed when it happens. -/
def Legal (b : Device) (s : Session) (q : Queue) (es : List Event) : Prop :=
  ∀ before e after, es = before ++ e :: after → e.Allowed b (of s q before).queue

theorem legal_nil : Legal b s q [] := fun before e after h => by cases before <;> cases h

theorem Legal.of_concat {es : List Event} {e : Event} (h : Legal b s q (es ++ [e])) :
    Legal b s q es ∧ e.Allowed b (of s q es).queue := by
  refine ⟨fun before f after heq => h before f (after ++ [e]) ?_, h es e [] rfl⟩
  rw [heq, List.append_assoc, List.cons_append]

theorem legal_concat {es : List Event} {e : Event} (h : Legal b s q es) (he : e.Allowed b (of s q es).queue) :
    Legal b s q (es ++ [e]) := by
  intro before f after heq
  rcases List.eq_nil_or_concat after with rfl | ⟨after, g, rfl⟩
  · obtain ⟨rfl, hef⟩ := List.append_inj' heq rfl
    cases hef
    exact he
  · rw [List.concat_eq_append, ← List.cons_append, ← List.append_assoc] at heq
    exact h before f after (List.append_inj' heq rfl).1

/-- What was let in and was not taken off is what the queue holds, and the rest was given out. -/
structure Ordered (b : Device) (cols : List (DType × Shape)) (l : Life) : Prop where
  session : l.session.Default
  schema : Schema cols l.queue
  fits : ∀ t ∈ l.entered, Fits b cols t
  taken : l.taken ≤ l.entered.length
  tuples : l.queue.tuples = l.entered.drop l.taken
  given : ∀ k < cols.length, l.given k = componentsAt (l.entered.take l.taken) k

variable {l : Life}

theorem ordered_start (hs : s.Default) (hq : Schema cols q) (hempty : q.tuples = []) : Ordered b cols (start s q) where
  session := hs
  schema := hq
  fits := by simp [start]
  taken := Nat.le_refl 0
  tuples := hempty
  given := fun k _ => rfl

theorem Ordered.enqueue (h : Ordered b cols l) {xs : List Value}
    (hxs : ∀ x, .tensor x ∈ xs → x.device = b) : Ordered b cols (l.after (.enqueue xs)) := by
  rw [after_enqueue]
  cases hadmitted : l.queue.admitted xs with
  | error e => exact h
  | ok ts =>
    refine ⟨h.session, ⟨h.schema.dtypes, h.schema.shapes, h.schema.standard⟩, ?_, ?_, ?_, fun k hk => ?_⟩
    · intro t ht
      rcases List.mem_append.mp ht with ht | ht
      · exact h.fits t ht
      · rw [List.mem_singleton.mp ht]
        exact fits_of_admitted h.schema hadmitted hxs
    · exact h.taken.trans (by simp)
    · show l.queue.tuples ++ [ts] = (l.entered ++ [ts]).drop l.taken
      rw [List.drop_append_of_le_length h.taken, h.tuples]
    · show l.given k = componentsAt ((l.entered ++ [ts]).take l.taken) k
      rw [List.take_append_of_le_length h.taken, h.given k hk]

theorem Ordered.dequeueUpTo_ok (h : Ordered b cols l) {n : Nat} {dtypes : Value} (hasks : Asks l.queue dtypes)
    (hroom : HasRoom l.queue n) :
    ∃ ys t, dequeueUpTo (.int n) dtypes (l.session, l.queue) = (.ok ys, t, l.queue.drop (min n l.queue.size)) ∧
      t.Default ∧ Answers l.queue (l.queue.tuples.take (min n l.queue.size)) ys := by
  refine Queue.dequeueUpTo_ok (b := b) h.session h.schema (fun t ht => ?_) hasks hroom
  rw [h.tuples] at ht
  exact h.fits t (List.mem_of_mem_drop ht)

theorem Ordered.dequeue (h : Ordered b cols l) {n : Nat} {dtypes : Value} (hasks : Asks l.queue dtypes)
    (hroom : HasRoom l.queue n) : Ordered b cols (l.after (.dequeue (.int n) dtypes)) := by
  obtain ⟨ys, t, hdequeue, ht, hanswers⟩ := h.dequeueUpTo_ok hasks hroom
  have hsize : l.queue.size = l.entered.length - l.taken := by rw [size, h.tuples, List.length_drop]
  have htaken : l.queue.size - (l.queue.drop (min n l.queue.size)).size = min n l.queue.size := by
    have : (l.queue.drop (min n l.queue.size)).size = l.queue.size - min n l.queue.size := List.length_drop
    omega
  have hafter : l.after (.dequeue (.int n) dtypes) =
      ⟨t, l.queue.drop (min n l.queue.size), l.entered, l.taken + min n l.queue.size, l.answers ++ [ys]⟩ := by
    simp only [after, hdequeue, htaken]
    rfl
  have hle := h.taken
  rw [hafter]
  refine ⟨ht, ⟨h.schema.dtypes, h.schema.shapes, h.schema.standard⟩, h.fits, ?_, ?_, fun k hk => ?_⟩
  · show l.taken + min n l.queue.size ≤ l.entered.length
    omega
  · show l.queue.tuples.drop (min n l.queue.size) = l.entered.drop (l.taken + min n l.queue.size)
    rw [h.tuples, List.drop_drop]
  · have hlength : k < ys.length := by
      rw [hanswers.length, h.schema.dtypes, List.length_map]
      exact hk
    have hrows : (ys[k]?.map Tensor.slices).getD [] = componentsAt (l.queue.tuples.take (min n l.queue.size)) k := by
      rw [List.getElem?_eq_getElem hlength]
      exact hanswers.rows k _ (List.getElem?_eq_getElem hlength)
    show (l.answers ++ [ys]).flatMap (fun ys => (ys[k]?.map Tensor.slices).getD []) =
      componentsAt (l.entered.take (l.taken + min n l.queue.size)) k
    rw [List.flatMap_append, List.flatMap_singleton, hrows, List.take_add, componentsAt_append, h.tuples]
    exact congrArg (· ++ _) (h.given k hk)

theorem Ordered.after (h : Ordered b cols l) {e : Event} (he : e.Allowed b l.queue) : Ordered b cols (l.after e) := by
  cases he with
  | enqueue hxs => exact h.enqueue hxs
  | dequeue hasks hroom => exact h.dequeue hasks hroom

theorem ordered_of (hs : s.Default) (hq : Schema cols q) (hempty : q.tuples = []) {es : List Event}
    (hlegal : Legal b s q es) : Ordered b cols (of s q es) := by
  induction es using List.reverseRecOn with
  | nil => exact ordered_start hs hq hempty
  | append_singleton es e ih =>
    obtain ⟨hes, he⟩ := hlegal.of_concat
    rw [Life.of_concat]
    exact (ih hes).after he

end Life

/-- After whatever is allowed to happen to it, a queue holds the tuples that were let in and were not taken off, in
    their order; what it gave out for a column are the components of the tuples taken off, in their order; and every
    dequeue that is allowed answers with the tuples at the front. -/
theorem dequeues_in_order {s : Session} (hs : s.Default) {byPosition : List Value} {byName : List (String × Value)}
    {q : Queue} (hmake : ofArguments s byPosition byName = .ok q) (hshapes : ∀ p ∈ q.shapes, p.isDefined = true)
    {b : Device} {es : List Event} (hlegal : Life.Legal b s q es) :
    let l := Life.of s q es
    l.taken ≤ l.entered.length ∧ l.queue.tuples = l.entered.drop l.taken ∧
      (∀ k < q.dtypes.length, l.given k = componentsAt (l.entered.take l.taken) k) ∧
      ∀ (n : Nat) (dtypes : Value), Event.Allowed b l.queue (.dequeue (.int n) dtypes) →
        ∃ ys t, dequeueUpTo (.int n) dtypes (l.session, l.queue) = (.ok ys, t, l.queue.drop (min n l.queue.size)) ∧
          Answers q (l.queue.tuples.take (min n l.queue.size)) ys := by
  intro l
  have hfresh := fresh_of_arguments hmake
  obtain ⟨cols, hq⟩ := exists_schema hs hfresh hshapes
  have hordered : Life.Ordered b cols l := Life.ordered_of hs hq hfresh.tuples hlegal
  refine ⟨hordered.taken, hordered.tuples, fun k hk => hordered.given k ?_, fun n dtypes hallowed => ?_⟩
  · rwa [hq.dtypes, List.length_map] at hk
  · obtain ⟨ys, t, hdequeue, -, hanswers⟩ : ∃ ys t, dequeueUpTo (.int n) dtypes (l.session, l.queue) =
        (.ok ys, t, l.queue.drop (min n l.queue.size)) ∧ t.Default ∧
          Answers l.queue (l.queue.tuples.take (min n l.queue.size)) ys := by
      cases hallowed with
      | dequeue hasks hroom => exact hordered.dequeueUpTo_ok hasks hroom
    refine ⟨ys, t, hdequeue, ?_⟩
    have hdtypes : l.queue.dtypes = q.dtypes := Life.dtypes_of s q es
    have hshapes : l.queue.shapes = q.shapes := Life.shapes_of s q es
    exact ⟨hdtypes ▸ hanswers.length, hdtypes ▸ hanswers.dtype, hshapes ▸ hanswers.shape, hanswers.rows⟩

/-- One tuple is let in and another one is not; asking for five takes the one. -/
theorem dequeues_in_order_one_tuple :
    let s := Session.initial [] false false
    let args : List Value := [.list [.text "float32"], .list [.list [.int 2]]]
    let q : Queue := ⟨none, [.text "float32"], [some [some 2]], .int 0, .text "", .text "", []⟩
    let x : Tensor := ⟨.host, .float32, [2], [.real (.ofInt 1), .real (.ofInt 2)], rfl⟩
    let es : List Event := [.enqueue [.tensor x], .enqueue []]
    let l := Life.of s q es
    s.Default ∧ ofArguments s args [] = .ok q ∧ (∀ p ∈ q.shapes, p.isDefined = true) ∧ Life.Legal .host s q es ∧
      Event.Allowed .host l.queue (.dequeue (.int (5 : Nat)) .nothing) ∧ l.queue.tuples = [[x]] ∧
      ∃ ys t after, dequeueUpTo (.int (5 : Nat)) .nothing (l.session, l.queue) = (.ok ys, t, after) ∧
        after.tuples = [] ∧ ys.map Tensor.slices = [[x]] := by
  intro s args q x es l
  have hs : s.Default := Session.default_initial false
  have hmake : ofArguments s args [] = .ok q := rfl
  have hshapes : ∀ p ∈ q.shapes, p.isDefined = true := by simp [q, PartialShape.isDefined]
  have hx : ∀ y, .tensor y ∈ [Value.tensor x] → y.device = .host := by
    intro y hy
    obtain rfl := Value.tensor.inj (List.mem_singleton.mp hy)
    rfl
  have hfirst : Life.Legal .host s q ([] ++ [.enqueue [.tensor x]]) := Life.legal_concat Life.legal_nil (.enqueue hx)
  have hlegal : Life.Legal .host s q es := Life.legal_concat hfirst (.enqueue (by simp))
  have hroom : HasRoom l.queue 5 := by
    intro d hd dims hcolumn
    obtain ⟨hname, hdims⟩ := Prod.mk.inj (List.mem_singleton.mp hcolumn)
    obtain rfl : dims = [2] := PartialShape.ofShape_inj hdims
    obtain rfl : d = .float32 := DType.eq_of_name hd (Value.text.inj hname)
    exact ⟨by decide, by decide⟩
  have hallowed : Event.Allowed .host l.queue (.dequeue (.int (5 : Nat)) .nothing) := .dequeue (Or.inl rfl) hroom
  have htuples : l.queue.tuples = [[x]] := rfl
  obtain ⟨-, -, -, hdequeue⟩ := dequeues_in_order hs hmake hshapes hlegal
  obtain ⟨ys, t, hys, hanswers⟩ := hdequeue 5 .nothing hallowed
  refine ⟨hs, hmake, hshapes, hlegal, hallowed, htuples, ys, t, _, hys, rfl, ?_⟩
  obtain ⟨y, rfl⟩ := List.length_eq_one_iff.mp hanswers.length
  exact congrArg (fun rows => [rows]) (hanswers.rows 0 y rfl)

/-- Of a column so vast that no array can have its shape with another axis, a dequeue fails even on an empty queue. -/
theorem dequeue_of_vast_column_fails :
    let s := Session.initial [] false false
    let args : List Value := [.list [.text "float32"], .list [.list [.int 4294967296, .int 4294967296]]]
    let vast : PartialShape Nat := some [some 4294967296, some 4294967296]
    let q : Queue := ⟨none, [.text "float32"], [vast], .int 0, .text "", .text "", []⟩
    s.Default ∧ ofArguments s args [] = .ok q ∧ (∀ p ∈ q.shapes, p.isDefined = true) ∧
      (dequeueUpTo (.int (1 : Nat)) .nothing (s, q)).1 = .error .badValue := by
  intro s args vast q
  have hmake : ofArguments s args [] = .ok q := rfl
  -- The host makes the empty tensor, and the room that it makes for one disregards the dimension of zero.
  let op : Operator := .empty (.tuple [.int 0, .int 4294967296, .int 4294967296]) (.text "float32")
  have hplaced : Dispatch.run Session.means 0 [.placed (.operator op) (.text "host")] (s.settled .device) =
      (.error .badValue, s.settled .device) := by
    rw [Dispatch.run]
    rfl
  have hauto : Dispatch.run Session.means 1 [.placed (.operator op) Session.auto] s =
      (.error .badValue, s.settled .device) := by
    rw [Dispatch.run]
    exact hplaced
  have hcreate : Session.create op Session.auto s = (.error .badValue, s.settled .device) := Action.bind_error hauto
  have hempty : Session.empty (.tuple [.int 0, .int 4294967296, .int 4294967296]) (.text "float32") Session.auto s =
      (.error .badValue, s.settled .device) := hcreate
  have hcollected : q.collected [] s = (.error .badValue, s.settled .device) := Action.bind_error hempty
  have hrecord := (Session.default_initial false).record .queue (takenLine 0 (.int (1 : Nat)) (q.drop 0))
  refine ⟨Session.default_initial false, hmake, by simp [q, vast, PartialShape.isDefined], ?_⟩
  have hdue : q.due (.int (1 : Nat)) .nothing = .ok 0 := due_natCast rfl 1
  rw [dequeueUpTo_eq, hdue]
  dsimp only
  rw [hrecord]
  exact congrArg Prod.fst hcollected

end Queue

end Dataflow
