import Dataflow.Proofs.Joining
import Dataflow.Proofs.RowMajor

/-! Tensors one after the other. They can be tied only on one device; the result has the rows of each of them in turn.
    The one backend passes over empty rows of no shape in particular, and the other asks for room. -/

namespace Dataflow

/-! ### Only tensors of one device are tied -/

theorem Operator.device_of_apply {op : Operator} (hop : op.kind.joins) {xs zs : List Tensor}
    (h : op.apply xs = .ok zs) : ∃ b, ∀ x ∈ xs, x.device = b := by
  rcases Decidable.em (xs = []) with rfl | hne
  · exact ⟨.host, nofun⟩
  obtain ⟨f, hf, -⟩ := Outcome.bind_eq_ok.mp h
  rw [Table.types_beside] at hf
  obtain ⟨b, -, hb⟩ := ((Table.decides_joining hop (by simpa using hne)).found f).mp hf
  exact ⟨b, List.forall_mem_map.mp hb⟩

theorem Kernel.tensorsOf_eq_ok {b : Device} {operation : String} {xs ys : List Tensor}
    (h : tensorsOf b operation (xs.map .tensor) = .ok ys) : ys = xs := by
  cases b with
  | torch => exact (Except.ok.inj ((mapM_tensorOf xs).symm.trans h)).symm
  | host =>
    obtain ⟨⟨⟩, -, h⟩ := Outcome.bind_eq_ok.mp h
    exact (Except.ok.inj ((mapM_tensorOf xs).symm.trans h)).symm

/-! ### What a tie makes -/

/-- A tensor made of others one after the other: it has their rows. Their shapes agree but for the lengths of the
    outermost axes, except that one backend passes over rows without elements. -/
structure Tensor.Ties (xs : List Tensor) (z : Tensor) : Prop where
  alike : ∀ x ∈ xs, x.device = z.device ∧ x.dtype = z.dtype
  slices : z.slices = xs.flatMap Tensor.slices
  ranked : z.shape ≠ []
  inner : ∀ x ∈ xs, x.device = .host ∨ x.shape ≠ [0] → x.shape.tail = z.shape.tail
  void : (∀ x ∈ xs, x.shape = [0]) → z.shape = [0]

/-- Two types of one name are one type, unless the library knows neither. -/
theorem DType.eq_or_hidden {c d : DType} (h : c.name = d.name) : c = d ∨ c.storage = .hidden ∧ d.storage = .hidden := by
  let own : List DType := standard ++ [.complex128, .complex64]
  have hinj : ∀ a ∈ own, ∀ b ∈ own, a.name = b.name → a = b := by decide
  have hnames : ∀ a ∈ own, a.name ∈ ownNames := by decide
  have hkind (a : DType) : a ∈ own ∨ a.storage = .hidden ∧ a.name ∉ ownNames := by
    cases a with
    | other m size hm => exact Or.inr ⟨rfl, hm⟩
    | _ => exact Or.inl (by decide)
  rcases hkind c with hc | ⟨hc, hnew⟩ <;> rcases hkind d with hd | ⟨hd, hnew'⟩
  · exact Or.inl (hinj c hc d hd h)
  · exact absurd (h ▸ hnames c hc) hnew'
  · exact absurd (h ▸ hnames d hd) hnew
  · exact Or.inr ⟨hc, hd⟩

variable {b : Device} {d : DType} {s : Shape} {n : Nat} {x z : Tensor} {xs : List Tensor} {name : String}

namespace Tensor

theorem Joins.ties (hne : xs ≠ []) (hxs : ∀ x ∈ xs, Fits b d s x) (h : Joins b d s xs z) : Ties xs z where
  alike x hx := by
    obtain ⟨n, hlike⟩ := hxs x hx
    exact ⟨hlike.device.trans h.like.device.symm, hlike.dtype.trans h.like.dtype.symm⟩
  slices := h.slices_eq hxs
  ranked := by
    rw [h.like.shape]
    exact List.cons_ne_nil _ _
  inner x hx _ := by
    obtain ⟨n, hlike⟩ := hxs x hx
    rw [hlike.shape, h.like.shape]
    rfl
  void hvoid := by
    have hsum : (xs.map (·.shape.headD 0)).sum = 0 := by
      refine List.sum_eq_zero fun k hk => ?_
      obtain ⟨x, hx, rfl⟩ := List.mem_map.mp hk
      rw [hvoid x hx]
      rfl
    obtain ⟨x, hx⟩ := List.exists_mem_of_ne_nil xs hne
    obtain ⟨n, hlike⟩ := hxs x hx
    rw [h.like.shape, hsum, (List.cons.inj (hlike.shape.symm.trans (hvoid x hx))).2]

/-- Tensors can be tied to one tensor only. -/
theorem Ties.unique {w : Tensor} (hne : xs ≠ []) (hz : Ties xs z) (hw : Ties xs w) : w = z := by
  obtain ⟨x, hx⟩ := List.exists_mem_of_ne_nil xs hne
  obtain ⟨hdevice, hdtype⟩ := hz.alike x hx
  obtain ⟨hdevice', hdtype'⟩ := hw.alike x hx
  obtain ⟨n, s, hzs⟩ := List.exists_cons_of_ne_nil hz.ranked
  obtain ⟨m, t, hws⟩ := List.exists_cons_of_ne_nil hw.ranked
  have hslices : z.slices = w.slices := hz.slices.trans hw.slices.symm
  have hshape : w.shape = z.shape := by
    by_cases hvoid : ∀ y ∈ xs, y.shape = [0]
    · rw [hz.void hvoid, hw.void hvoid]
    obtain ⟨y, hy, hsolid⟩ : ∃ y ∈ xs, y.shape ≠ [0] := by simpa using hvoid
    have htail := (hz.inner y hy (Or.inr hsolid)).symm.trans (hw.inner y hy (Or.inr hsolid))
    rw [hzs, hws] at htail ⊢
    rw [← length_slices hzs, ← length_slices hws, hslices]
    exact congrArg (_ :: ·) htail.symm
  exact (eq_of_slices hzs ⟨hdevice'.symm.trans hdevice, hdtype'.symm.trans hdtype, hshape⟩ hslices).symm

end Tensor

namespace Host

theorem tie_along {a : Int} {k : Nat} (hne : xs ≠ []) (hnumber : axisNumber (.int a) = .ok (some a))
    (ha : ∀ x ∈ xs, position? x.rank a = some k) :
    tie (.int a) xs = requireSameDType "tie" xs >>= fun _ => joined (Tensor.concat? k xs) := by
  obtain ⟨x, xs, rfl⟩ := List.exists_cons_of_ne_nil hne
  have hx := ha x List.mem_cons_self
  have haxis : axisOf x.rank a = .ok k := by rw [axisOf, hx]
  simp only [tie, hnumber, Outcome.ok_bind, if_neg (Nat.ne_zero_of_lt (lt_of_position? hx)), haxis]
  rfl

theorem tie_eq (hne : xs ≠ []) (hranked : ∀ x ∈ xs, x.shape ≠ []) :
    tie (.int 0) xs = requireSameDType "tie" xs >>= fun _ => joined (Tensor.concat? 0 xs) :=
  tie_along hne rfl fun x hx => Tensor.position?_zero (hranked x hx)

/-- Tensors that the host ties differ only in the lengths of their outermost axes, and there is room for the result. -/
theorem fits_of_tie (hb : ∀ x ∈ xs, x.device = b) (hranked : ∀ x ∈ xs, x.shape ≠ []) (h : tie (.int 0) xs = .ok z) :
    ∃ d s, (∀ x ∈ xs, Tensor.Fits b d s x) ∧ Tensor.concat? 0 xs = some z ∧ z.shape.fits z.dtype.size = true := by
  obtain ⟨⟨⟩, hdtypes, -⟩ := Outcome.bind_eq_ok.mp h
  rcases xs with _ | ⟨x, xs⟩
  · cases h
  rw [tie_eq (List.cons_ne_nil x xs) hranked, hdtypes, Outcome.ok_bind] at h
  obtain ⟨n, s, hx⟩ := List.exists_cons_of_ne_nil (hranked x List.mem_cons_self)
  obtain ⟨hz, hroom⟩ := joined_eq_ok h
  refine ⟨x.dtype, s, fun y hy => ?_, hz, hroom⟩
  obtain ⟨m, hm⟩ := Tensor.concat?_some hx hz y hy
  exact ⟨m, hb y hy, dtype_of_requireSameDType hdtypes y hy, hm⟩

theorem ties_of_tie (hne : xs ≠ []) (hb : ∀ x ∈ xs, x.device = b) (hranked : ∀ x ∈ xs, x.shape ≠ [])
    (h : tie (.int 0) xs = .ok z) : Tensor.Ties xs z := by
  obtain ⟨d, s, hfits, hz, -⟩ := fits_of_tie hb hranked h
  obtain ⟨w, hw, hjoins⟩ := Tensor.concat?_joins hne hfits
  obtain rfl : w = z := Option.some.inj (hw.symm.trans hz)
  exact hjoins.ties hne hfits

theorem tie_ok (hne : xs ≠ []) (hxs : ∀ x ∈ xs, Tensor.Fits b d s x)
    (hroom : Shape.fits ((xs.map (·.shape.headD 0)).sum :: s) d.size = true) : ∃ z, tie (.int 0) xs = .ok z := by
  have hranked : ∀ x ∈ xs, x.shape ≠ [] := fun x hx => by
    obtain ⟨n, hlike⟩ := hxs x hx
    rw [hlike.shape]
    exact List.cons_ne_nil _ _
  have hdtypes : ∀ x ∈ xs, x.dtype = d := fun x hx => (hxs x hx).elim fun _ hlike => hlike.dtype
  obtain ⟨z, hz, hjoins⟩ := Tensor.concat?_joins hne hxs
  refine ⟨z, ?_⟩
  rw [tie_eq hne hranked, requireSameDType_ok hdtypes, Outcome.ok_bind, hz, joined, hjoins.like.shape,
    hjoins.like.dtype, if_pos hroom]

end Host

namespace Torch

/-- Types of one name have a common type only if they are one type. -/
theorem common?_eq_some {c e : DType} (hname : c.name = d.name) (h : common? c d = some e) : d = c ∧ e = c := by
  by_cases hsame : c = d
  · subst hsame
    rw [common?_self] at h
    exact ⟨rfl, (Option.some.inj h).symm⟩
  -- Different types of one name are both unknown to the library, which joins no such types.
  rcases DType.eq_or_hidden hname with rfl | ⟨hc, hd⟩
  · exact absurd rfl hsame
  cases c <;> cases hc
  cases d <;> cases hd
  simp [common?, commonReal?, DType.isComplex, DType.parts, hsame, DType.storage] at h

theorem dtype_of_commonDType (hname : ∀ y ∈ x :: xs, y.dtype.name = name) (h : commonDType (x :: xs) = .ok d) :
    ∀ y ∈ x :: xs, y.dtype = d := by
  have hfold : xs.foldlM (fun c (y : Tensor) => common? c y.dtype) x.dtype = some d := by
    rw [commonDType] at h
    split at h
    · rename_i e he
      rw [he]
      exact congrArg some (Except.ok.inj h)
    · cases h
  have hx := hname x List.mem_cons_self
  have hrest : ∀ y ∈ xs, y.dtype.name = name := fun y hy => hname y (List.mem_cons_of_mem _ hy)
  -- Along the fold the common type stays the one of the first tensor.
  suffices hall : d = x.dtype ∧ ∀ y ∈ xs, y.dtype = x.dtype by
    obtain ⟨rfl, hall⟩ := hall
    exact List.forall_mem_cons.mpr ⟨rfl, hall⟩
  clear h hname
  induction xs with
  | nil => exact ⟨(Option.some.inj hfold).symm, by simp⟩
  | cons y xs ih =>
    rw [List.foldlM_cons] at hfold
    obtain ⟨c, hc, hfold⟩ := Option.bind_eq_some_iff.mp hfold
    obtain ⟨hy, rfl⟩ := common?_eq_some (hx.trans (hrest y List.mem_cons_self).symm) hc
    obtain ⟨hd, hall⟩ := ih hfold fun z hz => hrest z (List.mem_cons_of_mem _ hz)
    exact ⟨hd, List.forall_mem_cons.mpr ⟨hy, hall⟩⟩

/-- The tensors that a tie does not pass over. -/
def solid (xs : List Tensor) : List Tensor := xs.filter fun x => !isVoid x

theorem mem_solid : x ∈ solid xs ↔ x ∈ xs ∧ x.shape ≠ [0] := by
  simp [solid, isVoid]

theorem along_void (k : Nat) (hx : x.shape = [0]) : x.extent k = 0 ∧ x.along k = [] := by
  have hextent : x.extent k = 0 := by
    rw [Tensor.extent, hx]
    cases k <;> rfl
  exact ⟨hextent, by rw [Tensor.along, hextent]; rfl⟩

/-- What a tie passes over adds nothing to an axis. -/
theorem along_solid (k : Nat) (xs : List Tensor) : ((solid xs).map (Tensor.extent k)).sum = (xs.map (Tensor.extent k)).sum ∧
    (solid xs).flatMap (Tensor.along k) = xs.flatMap (Tensor.along k) := by
  induction xs with
  | nil => exact ⟨rfl, rfl⟩
  | cons x xs ih =>
    obtain ⟨hsum, halong⟩ := ih
    rw [List.map_cons, List.sum_cons, List.flatMap_cons, ← hsum, ← halong, solid, List.filter_cons]
    split
    · exact ⟨rfl, rfl⟩
    · rename_i hvoid
      obtain ⟨hextent, hnone⟩ := along_void (x := x) k (by simpa [isVoid] using hvoid)
      rw [hextent, hnone, Nat.zero_add, List.nil_append]
      exact ⟨rfl, rfl⟩

theorem flatMap_slices_solid (xs : List Tensor) : (solid xs).flatMap Tensor.slices = xs.flatMap Tensor.slices := by
  rw [funext Tensor.slices_eq_along]
  exact (along_solid 0 xs).2

theorem tie_along {a : Int} {k : Nat} (hne : xs ≠ []) (hword : Storage.holds true 64 a = true)
    (ha : ∀ x ∈ xs, position? x.rank a = some k) :
    tie (.int a) xs = match solid xs with
      | [] => joined List.head? xs
      | y :: ys => commonDType xs >>= fun d => joined (Tensor.concat? k) (y :: ys) >>= fun z => return z.cast d := by
  have hnumber : number (.int a) = .ok a := rfl
  have hword : word .badValue a = .ok a := if_pos hword
  have hvalid : ¬(xs.isEmpty = true ∨ xs.any (·.rank = 0) = true) := by
    rintro (hempty | hscalar)
    · exact hne (List.isEmpty_iff.mp hempty)
    · obtain ⟨x, hx, hrank⟩ := List.any_eq_true.mp hscalar
      have hlt := lt_of_position? (ha x hx)
      rw [of_decide_eq_true hrank] at hlt
      exact Nat.not_lt_zero k hlt
  simp only [tie, hnumber, Outcome.ok_bind, hword, if_neg hvalid]
  cases hsolid : solid xs with
  | nil =>
    rw [solid] at hsolid
    simp only [hsolid]
  | cons y ys =>
    have hy : y ∈ xs := (mem_solid.mp (hsolid ▸ List.mem_cons_self)).1
    have haxis : positionOf y.rank a = .ok k := by rw [positionOf, ha y hy]
    rw [solid] at hsolid
    simp only [hsolid, haxis, Outcome.ok_bind]

theorem tie_eq (hne : xs ≠ []) (hranked : ∀ x ∈ xs, x.shape ≠ []) :
    tie (.int 0) xs = match solid xs with
      | [] => joined List.head? xs
      | y :: ys => commonDType xs >>= fun d => joined (Tensor.concat? 0) (y :: ys) >>= fun z => return z.cast d :=
  tie_along hne rfl fun x hx => Tensor.position?_zero (hranked x hx)

/-- Rows without elements make one such row. -/
theorem ties_void (hxs : ∀ y ∈ x :: xs, Tensor.Like b d [0] y) : Tensor.Ties (x :: xs) x where
  alike y hy := by
    obtain ⟨hdevice, hdtype, -⟩ := hxs x List.mem_cons_self
    exact ⟨(hxs y hy).device.trans hdevice.symm, (hxs y hy).dtype.trans hdtype.symm⟩
  slices := by
    have hnone : ∀ y ∈ x :: xs, y.slices = [] := fun y hy =>
      List.eq_nil_of_length_eq_zero (Tensor.length_slices (hxs y hy).shape)
    rw [hnone x List.mem_cons_self, List.flatMap_eq_nil_iff.mpr hnone]
  ranked := by
    rw [(hxs x List.mem_cons_self).shape]
    exact List.cons_ne_nil _ _
  inner y hy _ := by rw [(hxs y hy).shape, (hxs x List.mem_cons_self).shape]
  void _ := (hxs x List.mem_cons_self).shape

/-- Rows without elements may be left out, unless there is nothing else. -/
theorem ties_of_solid (hb : ∀ x ∈ xs, x.device = .torch) (hd : ∀ x ∈ xs, x.dtype = d) (hne : solid xs ≠ [])
    (h : Tensor.Ties (solid xs) z) : Tensor.Ties xs z := by
  obtain ⟨y, hy⟩ := List.exists_mem_of_ne_nil _ hne
  have hyxs := mem_solid.mp hy
  obtain ⟨hdevice, hdtype⟩ := h.alike y hy
  exact {
    alike := fun x hx =>
      ⟨(hb x hx).trans ((hb y hyxs.1).symm.trans hdevice), (hd x hx).trans ((hd y hyxs.1).symm.trans hdtype)⟩
    slices := h.slices.trans (flatMap_slices_solid xs)
    ranked := h.ranked
    inner := fun x hx hshape => by
      rcases hshape with hhost | hshape
      · rw [hb x hx] at hhost
        cases hhost
      · exact h.inner x (mem_solid.mpr ⟨hx, hshape⟩) (Or.inr hshape)
    void := fun hvoid => absurd (hvoid y hyxs.1) hyxs.2 }

theorem joined_eq_ok {join : List Tensor → Option Tensor} (h : joined join xs = .ok z) :
    ∃ d, commonDType xs = .ok d ∧ ((∀ x ∈ xs, x.dtype = d) → join xs = some z) := by
  obtain ⟨d, hd, h⟩ := Outcome.bind_eq_ok.mp h
  refine ⟨d, hd, fun hdtypes => ?_⟩
  have hcast : (xs.map fun y => y.cast d) = xs :=
    (List.map_congr_left fun y hy => if_pos (hdtypes y hy)).trans (List.map_id _)
  rw [hcast] at h
  split at h <;> cases h
  assumption

theorem ties_of_tie (hne : xs ≠ []) (hb : ∀ x ∈ xs, x.device = .torch) (hranked : ∀ x ∈ xs, x.shape ≠ [])
    (hname : ∀ x ∈ xs, x.dtype.name = name) (h : tie (.int 0) xs = .ok z) : Tensor.Ties xs z := by
  rw [tie_eq hne hranked] at h
  cases hsolid : solid xs with
  | nil =>
    rw [hsolid] at h
    obtain ⟨d, hd, hjoin⟩ := joined_eq_ok h
    obtain ⟨x, xs, rfl⟩ := List.exists_cons_of_ne_nil hne
    have hdtypes := dtype_of_commonDType hname hd
    obtain rfl : x = z := Option.some.inj (hjoin hdtypes)
    refine ties_void fun y hy => ⟨hb y hy, hdtypes y hy, ?_⟩
    by_contra hshape
    have hmem := mem_solid.mpr ⟨hy, hshape⟩
    rw [hsolid] at hmem
    cases hmem
  | cons y ys =>
    rw [hsolid] at h
    obtain ⟨d, hd, h⟩ := Outcome.bind_eq_ok.mp h
    obtain ⟨w, hw, h⟩ := Outcome.bind_eq_ok.mp h
    -- The type is asked of all tensors, and not only of those that are joined.
    have hdtypes : ∀ x ∈ xs, x.dtype = d := by
      obtain ⟨x, xs, rfl⟩ := List.exists_cons_of_ne_nil hne
      exact dtype_of_commonDType hname hd
    have hsub : ∀ x ∈ y :: ys, x ∈ xs := fun x hx => (mem_solid.mp (hsolid ▸ hx)).1
    obtain ⟨n, s, hy⟩ := List.exists_cons_of_ne_nil (hranked y (hsub y List.mem_cons_self))
    have hjoin : Tensor.concat? 0 (y :: ys) = some w := by
      obtain ⟨e, he, hjoin⟩ := joined_eq_ok hw
      exact hjoin (dtype_of_commonDType (fun x hx => hname x (hsub x hx)) he)
    have hfits : ∀ x ∈ y :: ys, Tensor.Fits .torch d s x := fun x hx => by
      obtain ⟨m, hm⟩ := Tensor.concat?_some hy hjoin x hx
      exact ⟨m, hb x (hsub x hx), hdtypes x (hsub x hx), hm⟩
    obtain ⟨v, hv, hjoins⟩ := Tensor.concat?_joins (List.cons_ne_nil y ys) hfits
    obtain rfl : v = w := Option.some.inj (hv.symm.trans hjoin)
    obtain rfl : v = z := by
      rw [Tensor.cast, if_pos hjoins.like.dtype] at h
      exact Except.ok.inj h
    have hne' : solid xs ≠ [] := hsolid ▸ List.cons_ne_nil y ys
    exact ties_of_solid hb hdtypes hne' (hsolid ▸ hjoins.ties (List.cons_ne_nil y ys) hfits)

/-- A tie along an axis has the parts of each of its tensors in turn. -/
theorem tie_at {outer inner : Shape} {a : Int} (hne : xs ≠ []) (hword : Storage.holds true 64 a = true)
    (ha : ∀ x ∈ xs, position? x.rank a = some outer.length) (hxs : ∀ x ∈ xs, Tensor.Crosses b d outer inner x) :
    ∃ z, tie (.int a) xs = .ok z ∧
      Tensor.Like b d (outer ++ (xs.map (Tensor.extent outer.length)).sum :: inner) z ∧
      z.along outer.length = xs.flatMap (Tensor.along outer.length) := by
  have hdtypes : ∀ x ∈ xs, x.dtype = d := fun x hx => (hxs x hx).dtype
  obtain ⟨hsum, halong⟩ := along_solid outer.length xs
  rw [tie_along hne hword ha, ← hsum, ← halong]
  cases hsolid : solid xs with
  | nil =>
    obtain ⟨x, xs, rfl⟩ := List.exists_cons_of_ne_nil hne
    have hvoid : x.shape = [0] := by
      by_contra hshape
      have hmem : x ∈ solid (x :: xs) := mem_solid.mpr ⟨List.mem_cons_self, hshape⟩
      rw [hsolid] at hmem
      cases hmem
    obtain ⟨hextent, hnone⟩ := along_void outer.length hvoid
    have hx := hxs x List.mem_cons_self
    rw [Tensor.Crosses, hextent] at hx
    exact ⟨x, joined_eq hdtypes rfl, hx, hnone⟩
  | cons y ys =>
    have hsub : ∀ x ∈ y :: ys, x ∈ xs := fun x hx => (mem_solid.mp (hsolid ▸ hx)).1
    obtain ⟨z, hz, hlike, halong'⟩ := Tensor.concat?_at (List.cons_ne_nil y ys) fun x hx => hxs x (hsub x hx)
    have hcommon : commonDType xs = .ok d := by
      obtain ⟨x, xs, rfl⟩ := List.exists_cons_of_ne_nil hne
      exact commonDType_ok hdtypes
    have hjoined : joined (Tensor.concat? outer.length) (y :: ys) = .ok z :=
      joined_eq (fun x hx => hdtypes x (hsub x hx)) hz
    refine ⟨z, ?_, hlike, halong'⟩
    simp only [hcommon, Outcome.ok_bind, hjoined, Outcome.pure_eq, Tensor.cast, if_pos hlike.dtype]

theorem tie_ok (hne : xs ≠ []) (hxs : ∀ x ∈ xs, Tensor.Fits b d s x) : ∃ z, tie (.int 0) xs = .ok z := by
  have hfirst : ∀ x ∈ xs, position? x.rank 0 = some 0 := fun x hx => (hxs x hx).elim fun _ hlike =>
    Tensor.position?_outermost hlike.shape
  have hcross : ∀ x ∈ xs, Tensor.Crosses b d [] s x := fun x hx => (hxs x hx).elim fun n hlike =>
    Tensor.Like.crosses (show Tensor.Like b d ([] ++ n :: s) x from hlike)
  obtain ⟨z, hz, -⟩ := tie_at hne rfl hfirst hcross
  exact ⟨z, hz⟩

end Torch

namespace Tensor

/-- A tie is the kernel of the device of the tensors. -/
theorem tie_eq (hne : xs ≠ []) (hb : ∀ x ∈ xs, x.device = b) (axis : Value) :
    tie xs axis = Kernel.tensorsOf b "tie" (xs.map .tensor) >>= Kernel.tie b axis := by
  rw [tie, if_neg fun hempty => hne (List.isEmpty_iff.mp hempty)]
  exact Operator.applySingle_joining (Or.inr rfl) hne hb rfl

/-- Tensors that can be tied are of one device, and of one element type where the types agree by name. -/
theorem ties_of_tie (hranked : ∀ x ∈ xs, x.shape ≠ []) (hname : ∀ x ∈ xs, x.dtype.name = name)
    (h : tie xs (.int 0) = .ok z) : Ties xs z := by
  have hne : xs ≠ [] := by
    rintro rfl
    cases h
  obtain ⟨b, hb⟩ : ∃ b, ∀ x ∈ xs, x.device = b := by
    rw [tie, if_neg fun hempty => hne (List.isEmpty_iff.mp hempty)] at h
    obtain ⟨zs, hzs, -⟩ := Outcome.bind_eq_ok.mp h
    exact Operator.device_of_apply (Or.inr rfl) hzs
  rw [tie_eq hne hb] at h
  obtain ⟨ys, hys, hkernel⟩ := Outcome.bind_eq_ok.mp h
  obtain rfl := Kernel.tensorsOf_eq_ok hys
  cases b with
  | host => exact Host.ties_of_tie hne hb hranked hkernel
  | torch => exact Torch.ties_of_tie hne hb hranked hname hkernel

/-- Tensors that differ only in the lengths of their outermost axes can be tied, where there is room for the result. -/
theorem tie_ok (hne : xs ≠ []) (hxs : ∀ x ∈ xs, Fits b d s x)
    (hroom : b = .host → Shape.fits ((xs.map (·.shape.headD 0)).sum :: s) d.size = true) :
    ∃ z, tie xs (.int 0) = .ok z := by
  have hdtypes : ∀ x ∈ xs, x.dtype = d := fun x hx => (hxs x hx).elim fun _ hlike => hlike.dtype
  have hdevices : ∀ x ∈ xs, x.device = b := fun x hx => (hxs x hx).elim fun _ hlike => hlike.device
  rw [tie_eq hne hdevices, Kernel.tensorsOf_tensors (Host.requireSameDType_ok hdtypes), Outcome.ok_bind]
  cases b with
  | host => exact Host.tie_ok hne hxs (hroom rfl)
  | torch => exact Torch.tie_ok hne hxs

end Tensor

end Dataflow
