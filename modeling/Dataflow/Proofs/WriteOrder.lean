import Dataflow.Proofs.Devices
import Dataflow.Proofs.Escapes
import Dataflow.Proofs.ScatterGather

/-! Writes in another order. A write decides the size of the array, the element shape where this is still open, and its
    own slot. Which of several writes comes first shows on the way, in what they find, but not in the end: as long as no
    slot is written twice, every order succeeds if one does, and all orders end in the same array. A scatter of the
    tensors as rows ends there too. -/

namespace Dataflow

namespace Tensor

/-! ### Tensors as rows -/

/-- A tensor that consists of some tensors along its outermost axis, in their order. -/
def ConsistsOf (x : Tensor) (ys : List Tensor) : Prop := ∃ s, x.shape = ys.length :: s ∧ x.slices = ys

/-- Tensors that are alike, few enough and small enough for their backend to stack them. -/
structure StackableAs (ys : List Tensor) (b : Device) (d : DType) (s : Shape) : Prop where
  alike : ∀ y ∈ ys, Like b d s y
  count : ys.length < 2 ^ 63
  axes : b = .host → s.length < Shape.axisLimit
  dims : b = .host → ∀ n ∈ s, n < 2 ^ 63
  bytes : b = .host → Shape.fits (ys.length :: s) d.size = true

variable {x : Tensor} {ys zs : List Tensor} {n : Nat} {s : Shape}

theorem StackableAs.perm {b : Device} {d : DType} (h : StackableAs ys b d s) (hperm : zs.Perm ys) :
    StackableAs zs b d s where
  alike z hz := h.alike z (hperm.mem_iff.mp hz)
  count := hperm.length_eq ▸ h.count
  axes := h.axes
  dims := h.dims
  bytes := hperm.length_eq ▸ h.bytes

theorem StackableAs.exists_rows {b : Device} {d : DType} (h : StackableAs ys b d s) (hne : ys ≠ []) :
    ∃ x, stack ys (.int 0) = .ok x ∧ x.ConsistsOf ys ∧ x.Storable := by
  have hall : ∀ y ∈ ys, y.device = b ∧ y.dtype = d ∧ y.shape = s := fun y hy =>
    ⟨(h.alike y hy).device, (h.alike y hy).dtype, (h.alike y hy).shape⟩
  obtain ⟨x, hx, hstacks⟩ := stack_ok hne hall h.axes h.bytes
  refine ⟨x, hx, ⟨s, hstacks.shape, hstacks.slices_eq hall⟩, fun hhost => ?_, fun hhost => ?_, fun hhost => ?_⟩
  all_goals rw [hstacks.device] at hhost
  · rw [rank, hstacks.shape]
    exact h.axes hhost
  · rw [hstacks.shape]
    exact List.forall_mem_cons.mpr ⟨h.count, h.dims hhost⟩
  · rw [hstacks.shape, hstacks.dtype]
    exact h.bytes hhost

/-- Every tensor gives its rows one by one, as long as the backend has a word for their number. -/
theorem rowsUpTo_of_fits (hx : x.shape = n :: s) (hstorable : x.Storable) (hn : n < 2 ^ 63) :
    x.rowsUpTo n = .ok x.slices := by
  cases hdevice : x.device with
  | host => exact rowsUpTo_ok hdevice hx hstorable
  | torch =>
    have hrow : ∀ k ∈ List.range n, ∃ y, x.index (.int k) (.int 0) = .ok y := fun k hk => by
      have hlt : k < n := List.mem_range.mp hk
      have hslice : k < x.slices.length := (length_slices hx).symm ▸ hlt
      have hselect : x.select? 0 k = some x.slices[k] := by
        rw [← getElem?_slices hx hlt, List.getElem?_eq_getElem hslice]
      rw [index_eq, hdevice]
      exact ⟨_, Torch.index_ok hx (Host.holds_word (Int.natCast_nonneg k) (by omega)) (position?_ofNat hlt) hselect⟩
    cases hrows : x.rowsUpTo n with
    | ok ys => rw [rowsUpTo_eq hx hrows]
    | error e =>
      obtain ⟨k, hk, hindex⟩ := Outcome.mapM_error hrows
      obtain ⟨y, hy⟩ := hrow k hk
      rw [hy] at hindex
      cases hindex

end Tensor

namespace TensorArray

variable {a : TensorArray} {dtype : String} {x y : Tensor} {vs ws : List (Int × Tensor)}

/-! ### Two writes -/

/-- After a write another one is possible where it was possible before; where all elements are to have one shape, it has
    to have the shape of the first. -/
theorem writable_written {i j : Int} (hdtype : a.dtype = .text dtype) (hx : a.writable i x = .ok ()) :
    (a.written i.toNat x).writable j y = .ok () ↔
      a.writable j y = .ok () ∧ (a.identical = true → y.shape = x.shape) := by
  obtain ⟨hopen, hname, hadmits, h0, hroom⟩ := (writable_eq_ok hdtype).mp hx
  have hdtype' : (a.written i.toNat x).dtype = .text dtype := by rw [written_with, hdtype]
  have hclosed : (a.written i.toNat x).closed = a.closed := by rw [written_with]
  have hdynamic : (a.written i.toNat x).dynamicSize = a.dynamicSize := by rw [written_with]
  -- An array of fixed size had room for the first write and has not grown.
  have hsize : (j < (a.written i.toNat x).size ∨ a.dynamicSize.truth = true) ↔
      (j < a.size ∨ a.dynamicSize.truth = true) := by
    rw [size_written]
    cases hdynamic' : a.dynamicSize.truth with
    | true => simp
    | false =>
      have hlt : i < a.size := hroom.resolve_right (by simp [hdynamic'])
      have hmax : max a.size (i.toNat + 1) = a.size := by omega
      rw [hmax]
  have hshape : (a.written i.toNat x).elementShape.admits y.shape = true ↔
      a.elementShape.admits y.shape = true ∧ (a.identical = true → y.shape = x.shape) := by
    rw [elementShape_written]
    cases hid : a.identical with
    | false => simp
    | true =>
      have hfixed : (if true && !a.elementShape.isDefined then .ofShape x.shape else a.elementShape) =
          .ofShape x.shape := by
        cases hdefined : a.elementShape.isDefined with
        | false => rfl
        | true => exact PartialShape.eq_ofShape_of_isDefined hdefined hadmits
      have hsame : (PartialShape.ofShape x.shape).admits y.shape = true ↔ y.shape = x.shape := by
        refine ⟨fun h => ?_, fun h => h ▸ PartialShape.admits_ofShape _⟩
        exact (PartialShape.ofShape_inj (PartialShape.eq_ofShape_of_isDefined (by simp) h)).symm
      rw [hfixed, hsame]
      refine ⟨fun h => ⟨h ▸ hadmits, fun _ => h⟩, fun h => h.2 rfl⟩
  rw [writable_eq_ok hdtype', writable_eq_ok hdtype, hclosed, hdynamic, hsize, hshape]
  exact ⟨fun ⟨h1, h2, ⟨h3, h4⟩, h5, h6⟩ => ⟨⟨h1, h2, h3, h5, h6⟩, h4⟩,
    fun ⟨⟨h1, h2, h3, h5, h6⟩, h4⟩ => ⟨h1, h2, ⟨h3, h4⟩, h5, h6⟩⟩

theorem written_twice {j k : Nat} :
    (a.written j x).written k y = { a with
      slots := ((a.written j x).written k y).slots
      elementShape := ((a.written j x).written k y).elementShape } := by
  refine written_with.trans ?_
  generalize ((a.written j x).written k y).slots = slots, ((a.written j x).written k y).elementShape = shape
  rw [written_with]

/-- Writes of two slots end in the same array in either order. Both have to fix the same element shape, where it is
    theirs to fix. -/
theorem written_comm {j k : Nat} (hne : j ≠ k) (hshape : a.identical = true → y.shape = x.shape) :
    (a.written j x).written k y = (a.written k y).written j x := by
  have hslots : ((a.written j x).written k y).slots = ((a.written k y).written j x).slots := by
    refine List.ext_getElem? fun i => ?_
    simp only [slots_written, size_written]
    by_cases hj : i = j
    · have hlt : j < max a.size (j + 1) := by omega
      simp only [hj, hne, hlt, if_true, if_false]
    · by_cases hk : i = k
      · have hlt : k < max a.size (k + 1) := by omega
        simp only [hk, hne.symm, hlt, if_true, if_false]
      · by_cases hsize : i < a.size
        · have hlt : ∀ l, i < max a.size l := fun l => by omega
          simp only [hj, hk, hsize, hlt, if_true, if_false]
        · have hbeyond : ∀ l, i ≠ l → (i < max a.size (l + 1) ↔ i < l) := fun l hl => by omega
          simp only [hj, hk, hsize, hbeyond j hj, hbeyond k hk, if_false]
          by_cases hlj : i < j <;> by_cases hlk : i < k <;> simp [hlj, hlk]
  have helement : ((a.written j x).written k y).elementShape = ((a.written k y).written j x).elementShape := by
    have hidentical : ∀ l (z : Tensor), (a.written l z).identical = a.identical := fun l z => by rw [written_with]
    simp only [elementShape_written, hidentical]
    cases hid : a.identical with
    | false => rfl
    | true => rw [hshape hid]
  rw [written_twice, hslots, helement, ← written_twice]

/-! ### Writes one after another -/

theorem performEach_put (w : Int × Tensor) (ws : List (Int × Tensor)) (a : TensorArray) :
    performEach ((w :: ws).map .put) a = match a.writable w.1 w.2 with
      | .ok () => performEach (ws.map .put) (a.written w.1.toNat w.2)
      | .error e => (.error e, a) := performEach_cons (.put w) (ws.map .put) a

theorem performEach_swap {v w : Int × Tensor} (hdtype : a.dtype = .text dtype) (hne : v.1 ≠ w.1)
    (hok : (performEach ((v :: w :: ws).map .put) a).1 = .ok ()) :
    performEach ((w :: v :: ws).map .put) a = performEach ((v :: w :: ws).map .put) a := by
  have hfirst : a.writable v.1 v.2 = .ok () := by
    rcases h : a.writable v.1 v.2 with e | ⟨⟩
    · rw [performEach_put, h] at hok
      cases hok
    · rfl
  have hsecond : (a.written v.1.toNat v.2).writable w.1 w.2 = .ok () := by
    rcases h : (a.written v.1.toNat v.2).writable w.1 w.2 with e | ⟨⟩
    · rw [performEach_put, hfirst] at hok
      simp only [performEach_put, h] at hok
      cases hok
    · rfl
  obtain ⟨hother, hshape⟩ := (writable_written hdtype hfirst).mp hsecond
  have hlater : (a.written w.1.toNat w.2).writable v.1 v.2 = .ok () :=
    (writable_written hdtype hother).mpr ⟨hfirst, fun hid => (hshape hid).symm⟩
  have h0 : 0 ≤ v.1 := ((writable_eq_ok hdtype).mp hfirst).2.2.2.1
  have h0' : 0 ≤ w.1 := ((writable_eq_ok hdtype).mp hother).2.2.2.1
  have hcomm : (a.written w.1.toNat w.2).written v.1.toNat v.2 = (a.written v.1.toNat v.2).written w.1.toNat w.2 :=
    written_comm (by omega) fun hid => (hshape hid).symm
  simp only [performEach_put, hother, hfirst, hlater, hsecond, hcomm]

/-- Writes of different slots do the same in every order, if they succeed in one. -/
theorem performEach_perm (hdtype : a.dtype = .text dtype) (hperm : vs.Perm ws) (hdistinct : (ws.map Prod.fst).Nodup)
    (hok : (performEach (ws.map .put) a).1 = .ok ()) :
    performEach (vs.map .put) a = performEach (ws.map .put) a := by
  -- From the order that is known to succeed, one exchange of neighbours after another.
  replace hperm := hperm.symm
  induction hperm generalizing a with
  | nil => rfl
  | @cons w ws vs _ ih =>
    rw [performEach_put] at hok ⊢
    rcases hw : a.writable w.1 w.2 with e | ⟨⟩
    · rw [performEach_put, hw]
    · rw [hw] at hok
      rw [performEach_put, hw]
      exact ih (by rw [written_with, hdtype]) (List.nodup_cons.mp hdistinct).2 hok
  | swap v w ws =>
    rw [List.map_cons, List.map_cons, List.nodup_cons, List.mem_cons, not_or] at hdistinct
    exact performEach_swap hdtype hdistinct.1.1 hok
  | trans hfirst _ ih ih' =>
    have hmiddle := ih hdtype hdistinct hok
    have hdistinct' := (hfirst.map Prod.fst).nodup_iff.mp hdistinct
    rw [ih' hdtype hdistinct' (hmiddle ▸ hok), hmiddle]

/-! ### Calls that perform the writes -/

theorem unzip_put (ws : List (Int × Tensor)) :
    List.zipWith Step.write (ws.map Prod.fst) (ws.map Prod.snd) = ws.map .put := by
  rw [List.zipWith_map, List.zipWith_self]
  rfl

theorem perform_writeMany {b : TensorArray} (hwrites : performEach (vs.map .put) a = (.ok (), b))
    (tuple tuple' : Bool) (t : Session) :
    (Call.writeMany ⟨tuple, vs.map Prod.fst⟩ ⟨tuple', vs.map Prod.snd⟩).perform (t, a) = (.ok .nothing, t, b) := by
  have hsteps : Call.steps a (.writeMany ⟨tuple, vs.map Prod.fst⟩ ⟨tuple', vs.map Prod.snd⟩) = .ok (vs.map .put) := by
    rw [Call.steps, if_pos (by simp [Sequence.length]), unzip_put]
  have hdoes := does_writeMany a ⟨tuple, vs.map Prod.fst⟩ ⟨tuple', vs.map Prod.snd⟩
  simp only [Does, hsteps] at hdoes
  rw [Call.perform_eq]
  refine (Action.bind_ok (x := ()) (t := (t, b)) ?_).trans rfl
  rw [Action.onSecond_apply, hdoes, hwrites]

/-- A scatter is accepted where the writes of its rows are possible. -/
theorem steps_scatter_of_ok {is : Sequence Int} {s : Shape} (hdtype : a.dtype = .text dtype)
    (hne : is.members ≠ []) (hx : x.shape = is.length :: s) (hname : x.dtype.name = dtype) (hopen : a.closed = false)
    (hroom : ∀ i ∈ is.members, i < a.size ∨ a.dynamicSize.truth = true)
    (hrows : x.rowsUpTo is.length = .ok x.slices) :
    (Call.scatter is x).steps a = .ok (List.zipWith .write is.members x.slices) := by
  have hopened : a.opened = .ok () := if_neg (by simp [hopen])
  have hchecked : checkElementType (.text dtype) (.tensor x) (a.label "scatter") = .ok x.shape := by
    rw [checkElementType_tensor, checkDType_text, if_pos hname.symm]
    rfl
  obtain ⟨last, hlast⟩ := Option.ne_none_iff_exists'.mp (mt List.max?_eq_none_iff.mp hne)
  have hfits : ¬(!a.dynamicSize.truth && decide ((a.size : Int) ≤ last)) = true := by
    rcases hroom last (List.max?_eq_some_iff.mp hlast).1 with hlt | hdynamic
    · have hle : ¬(a.size : Int) ≤ last := by omega
      simp [hle]
    · simp [hdynamic]
  rw [Call.steps, hdtype, hopened, hchecked]
  simp only [Outcome.ok_bind, hx, List.head?_cons, ne_eq, not_true_eq_false, if_false, hlast]
  rw [if_neg hfits, hrows]
  rfl

theorem perform_scatter {b : TensorArray} (hdtype : a.dtype = .text dtype) (hne : vs ≠ [])
    (hwrites : performEach (vs.map .put) a = (.ok (), b)) (hwritable : ∀ w ∈ vs, a.writable w.1 w.2 = .ok ())
    (hrows : x.ConsistsOf (vs.map Prod.snd)) (hstorable : x.Storable) (hcount : vs.length < 2 ^ 63) (tuple : Bool)
    (t : Session) : (Call.scatter ⟨tuple, vs.map Prod.fst⟩ x).perform (t, a) = (.ok .nothing, t, b) := by
  obtain ⟨s, hx, hslices⟩ := hrows
  have hlength : x.shape = Sequence.length ⟨tuple, vs.map Prod.fst⟩ :: s := by
    rw [hx, Sequence.length, List.length_map, List.length_map]
  obtain ⟨w, hw⟩ := List.exists_mem_of_ne_nil vs hne
  have hname : x.dtype.name = dtype := by
    have hrow : w.2 ∈ x.slices := hslices ▸ List.mem_map_of_mem hw
    rw [← (Tensor.like_of_mem_slices hx hrow).dtype]
    exact ((writable_eq_ok hdtype).mp (hwritable w hw)).2.1
  have hroom : ∀ i ∈ vs.map Prod.fst, i < a.size ∨ a.dynamicSize.truth = true := fun i hi => by
    obtain ⟨v, hv, rfl⟩ := List.mem_map.mp hi
    exact ((writable_eq_ok hdtype).mp (hwritable v hv)).2.2.2.2
  have hrowsUpTo : x.rowsUpTo (Sequence.length ⟨tuple, vs.map Prod.fst⟩) = .ok x.slices :=
    Tensor.rowsUpTo_of_fits hlength hstorable (by simpa [Sequence.length] using hcount)
  have hsteps : (Call.scatter ⟨tuple, vs.map Prod.fst⟩ x).steps a = .ok (vs.map .put) := by
    have hopen : a.closed = false := ((writable_eq_ok hdtype).mp (hwritable w hw)).1
    rw [steps_scatter_of_ok hdtype (by simpa using hne) hlength hname hopen hroom hrowsUpTo, hslices, unzip_put]
  have hdoes := does_scatter a ⟨tuple, vs.map Prod.fst⟩ x
  simp only [Does, hsteps] at hdoes
  rw [Call.perform_eq]
  refine (Action.bind_ok (x := ()) (t := (t, b)) ?_).trans rfl
  rw [Action.onSecond_apply, hdoes, hwrites]

/-- Where writes succeed, each of them is possible on the array as it was before. -/
theorem writable_of_performEach (hdtype : a.dtype = .text dtype) (hok : (performEach (ws.map .put) a).1 = .ok ()) :
    ∀ w ∈ ws, a.writable w.1 w.2 = .ok () := by
  induction ws generalizing a with
  | nil => simp
  | cons v ws ih =>
    rw [performEach_put] at hok
    rcases hv : a.writable v.1 v.2 with e | ⟨⟩
    · rw [hv] at hok
      cases hok
    · rw [hv] at hok
      refine List.forall_mem_cons.mpr ⟨hv, fun w hw => ?_⟩
      exact ((writable_written hdtype hv).mp (ih (by rw [written_with, hdtype]) hok w hw)).1

/-- After whatever calls, writes of different slots that succeed in one order succeed in every order, and all orders end
    in the same array; so does one call that writes them all. A tensor that has their tensors as rows, in whatever
    order, is scattered to the same end; where the tensors are alike, stacking them makes one. -/
theorem writes_commute {m : Making} {s : Session} {a : TensorArray} (hmake : ofArguments s m.arguments [] = .ok a)
    (cs : List Call) {ws vs : List (Int × Tensor)} (hdistinct : (ws.map Prod.fst).Nodup)
    (hok : (performEach (ws.map .put) (Life.of s a cs).array).1 = .ok ()) (hperm : vs.Perm ws) :
    let before := (Life.of s a cs).array
    let after := (performEach (ws.map .put) before).2
    performEach (vs.map .put) before = (.ok (), after) ∧
      (∀ t tuple tuple', (Call.writeMany ⟨tuple, vs.map Prod.fst⟩ ⟨tuple', vs.map Prod.snd⟩).perform (t, before) =
        (.ok .nothing, t, after)) ∧
      (ws ≠ [] → ∀ x : Tensor, x.ConsistsOf (vs.map Prod.snd) → x.Storable → vs.length < 2 ^ 63 → ∀ t tuple,
        (Call.scatter ⟨tuple, vs.map Prod.fst⟩ x).perform (t, before) = (.ok .nothing, t, after)) ∧
      (ws ≠ [] → ∀ b d shape, Tensor.StackableAs (ws.map Prod.snd) b d shape →
        ∃ x, Tensor.stack (vs.map Prod.snd) (.int 0) = .ok x ∧ ∀ t tuple,
          (Call.scatter ⟨tuple, vs.map Prod.fst⟩ x).perform (t, before) = (.ok .nothing, t, after)) := by
  intro before after
  obtain rfl := Making.eq_array hmake
  have hdtype : before.dtype = .text m.dtype := (inv_of m s cs).dtype
  have hwrites : performEach (vs.map .put) before = (.ok (), after) :=
    (performEach_perm hdtype hperm hdistinct hok).trans (Prod.ext hok rfl)
  have hwritable : ∀ w ∈ vs, before.writable w.1 w.2 = .ok () := fun w hw =>
    writable_of_performEach hdtype hok w (hperm.mem_iff.mp hw)
  have hscatter : ws ≠ [] → ∀ x : Tensor, x.ConsistsOf (vs.map Prod.snd) → x.Storable → vs.length < 2 ^ 63 → ∀ t tuple,
      (Call.scatter ⟨tuple, vs.map Prod.fst⟩ x).perform (t, before) = (.ok .nothing, t, after) :=
    fun hne x hrows hstorable hcount t tuple =>
      perform_scatter hdtype (fun hnil => hne ((hnil ▸ hperm).symm.eq_nil)) hwrites hwritable hrows hstorable hcount
        tuple t
  refine ⟨hwrites, fun t tuple tuple' => perform_writeMany hwrites tuple tuple' t, hscatter, ?_⟩
  intro hne b d shape halike
  have hstackable := halike.perm (hperm.map Prod.snd)
  have hne' : vs.map Prod.snd ≠ [] := by
    rw [Ne, List.map_eq_nil_iff]
    exact fun hnil => hne ((hnil ▸ hperm).symm.eq_nil)
  obtain ⟨x, hx, hrows, hstorable⟩ := hstackable.exists_rows hne'
  exact ⟨x, hx, hscatter hne x hrows hstorable (by simpa using hstackable.count)⟩

/-- Of two vectors the first to come fixes the element shape, and the farther one makes the array grow: on the way the
    orders differ, in the end they do not. -/
theorem writes_commute_two_vectors :
    let m : Making := ⟨"a", "float32", 0, none, true, true, true⟩
    let s := Session.initial [] false false
    let row (n : Int) : Tensor := ⟨.host, .float32, [1], [.real (.ofInt n)], rfl⟩
    let x : Tensor := ⟨.host, .float32, [2, 1], [.real (.ofInt 8), .real (.ofInt 7)], rfl⟩
    let ws : List (Int × Tensor) := [(2, row 7), (0, row 8)]
    let vs : List (Int × Tensor) := [(0, row 8), (2, row 7)]
    let after := (performEach (ws.map .put) m.array).2
    ofArguments s m.arguments [] = .ok m.array ∧ (ws.map Prod.fst).Nodup ∧
      (performEach (ws.map .put) m.array).1 = .ok () ∧ vs.Perm ws ∧
      ((Step.put (0, row 8)).result m.array).size ≠ ((Step.put (2, row 7)).result m.array).size ∧
      after.slots = [⟨some (row 8), false⟩, .empty, ⟨some (row 7), false⟩] ∧
      after.elementShape = .ofShape [1] ∧
      performEach (vs.map .put) m.array = (.ok (), after) ∧
      Tensor.stack (vs.map Prod.snd) (.int 0) = .ok x ∧
      (Call.scatter ⟨false, [0, 2]⟩ x).perform (s, m.array) = (.ok .nothing, s, after) := by
  intro m s row x ws vs after
  have hmake : ofArguments s m.arguments [] = .ok m.array := rfl
  have hdistinct : (ws.map Prod.fst).Nodup := by decide
  have hok : (performEach (ws.map .put) m.array).1 = .ok () := by
    subst ws row m
    rfl
  have hperm : vs.Perm ws := .swap _ _ _
  have hstackable : Tensor.StackableAs (ws.map Prod.snd) .host .float32 [1] := by
    refine ⟨?_, by decide, fun _ => by decide, fun _ => by decide, fun _ => by decide⟩
    simp only [List.forall_mem_map, ws, List.forall_mem_cons]
    exact ⟨⟨rfl, rfl, rfl⟩, ⟨rfl, rfl, rfl⟩, nofun⟩
  have hstack : Tensor.stack (vs.map Prod.snd) (.int 0) = .ok x := rfl
  obtain ⟨hwrites, -, -, hstacked⟩ := writes_commute hmake [] hdistinct hok hperm
  obtain ⟨y, hy, hscatter⟩ := hstacked nofun .host .float32 [1] hstackable
  obtain rfl : x = y := Except.ok.inj (hstack.symm.trans hy)
  have hafter : after.slots = [⟨some (row 8), false⟩, .empty, ⟨some (row 7), false⟩] ∧
      after.elementShape = .ofShape [1] := by
    subst after ws row m
    exact ⟨rfl, rfl⟩
  exact ⟨hmake, hdistinct, hok, hperm, by decide, hafter.1, hafter.2, hwrites, hstack, hscatter s false⟩

end TensorArray

end Dataflow
