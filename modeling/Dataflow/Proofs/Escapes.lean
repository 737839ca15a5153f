import Dataflow.Proofs.FailedDequeues
import Dataflow.Proofs.Zeros

/-! Failures that are no refusals. The kernels refuse nothing in the name of the library: what they cannot do is a fault
    of another kind. For tensors of the host it is known exactly when a stack, a tie and an empty tensor fail, and that
    the rows of a tensor and its parts of given sizes never do. -/

namespace Dataflow

/-! ### Outcomes -/

namespace Outcome

variable {α β : Type} {o : Outcome α} {f : α → Outcome β} {l : List α}

/-- A failure other than a refusal. -/
def Escapes (o : Outcome α) : Prop := ∃ e, o = .error e ∧ ∀ cause, e ≠ .refused cause

/-- Whatever comes out, it is no refusal. -/
def Unrefused (o : Outcome α) : Prop := ∀ cause, o ≠ .error (.refused cause)

@[simp] theorem not_escapes_ok (x : α) : ¬Escapes (.ok x : Outcome α) := by simp [Escapes]

@[simp] theorem not_escapes_refused (cause : Refusal) : ¬Escapes (.error (.refused cause) : Outcome α) := by
  simp [Escapes]

@[simp] theorem unrefused_ok (x : α) : Unrefused (.ok x : Outcome α) := by simp [Unrefused]

@[simp] theorem unrefused_error {e : Failure} : Unrefused (.error e : Outcome α) ↔ ∀ cause, e ≠ .refused cause := by
  simp [Unrefused]

theorem escapes_bind : (o >>= f).Escapes ↔ o.Escapes ∨ ∃ x, o = .ok x ∧ (f x).Escapes := by
  cases o with
  | error e => simp [Escapes]
  | ok x => simp

/-- After what does not escape, what follows may. -/
theorem escapes_after (h : ¬o.Escapes) : (o >>= f).Escapes ↔ ∃ x, o = .ok x ∧ (f x).Escapes := by
  rw [escapes_bind, or_iff_right h]

theorem not_escapes_bind (h : ¬o.Escapes) (hf : ∀ x, o = .ok x → ¬(f x).Escapes) : ¬(o >>= f).Escapes := by
  rw [escapes_after h]
  rintro ⟨x, hx, hfx⟩
  exact hf x hx hfx

/-- A refusal under a condition, and what is done otherwise. -/
theorem not_escapes_refuse_if {c : Prop} [Decidable c] {cause : Refusal} {g : Unit → Outcome α}
    (h : ¬c → ¬(g ()).Escapes) : ¬(if c then throw (.refused cause) >>= g else g ()).Escapes := by
  by_cases hc : c
  · rw [if_pos hc]
    exact not_escapes_refused cause
  · rw [if_neg hc]
    exact h hc

theorem escapes_map {g : α → β} : (g <$> o).Escapes ↔ o.Escapes := by
  cases o with
  | error e => simp [Escapes, Functor.map, Except.map]
  | ok x => simp

theorem Unrefused.bind (h : o.Unrefused) (hf : ∀ x, (f x).Unrefused) : (o >>= f).Unrefused := by
  cases o with
  | error e => exact fun cause hcause => h cause (congrArg Except.error (Except.error.inj hcause))
  | ok x => exact hf x

/-- Where nothing is refused, every failure escapes. -/
theorem Unrefused.escapes_iff (h : o.Unrefused) : o.Escapes ↔ ∀ x, o ≠ .ok x := by
  cases o with
  | ok x => simp
  | error e =>
    refine iff_of_true ⟨e, rfl, ?_⟩ nofun
    rintro cause rfl
    exact h cause rfl

theorem mapM_eq_ok {ys : List β} : l.mapM f = .ok ys ↔ List.Forall₂ (fun x y => f x = .ok y) l ys := by
  refine ⟨forall₂_of_mapM, fun h => ?_⟩
  induction h with
  | nil => rfl
  | cons hx _ ih =>
    rw [List.mapM_cons, hx, ok_bind, ih]
    rfl

/-- What escapes from a list of operations escapes from one of them. -/
theorem exists_escapes_of_mapM (h : (l.mapM f).Escapes) : ∃ x ∈ l, (f x).Escapes := by
  obtain ⟨e, he, hcause⟩ := h
  obtain ⟨x, hx, hfx⟩ := mapM_error he
  exact ⟨x, hx, e, hfx, hcause⟩

theorem escapes_mapM (h : ∀ x ∈ l, (f x).Unrefused) : (l.mapM f).Escapes ↔ ∃ x ∈ l, (f x).Escapes := by
  have hall : (l.mapM f).Unrefused := fun cause hcause => by
    obtain ⟨x, hx, hfx⟩ := mapM_error hcause
    exact h x hx cause hfx
  refine ⟨exists_escapes_of_mapM, ?_⟩
  rintro ⟨x, hx, e, hfx, -⟩
  rw [hall.escapes_iff]
  intro ys hys
  obtain ⟨y, hy⟩ := ok_of_mapM hys hx
  rw [hfx] at hy
  cases hy

/-- A failure that does not escape is a refusal. -/
theorem refused_of_not_escapes {e : Failure} (h : ¬Escapes (.error e : Outcome α)) : ∃ cause, e = .refused cause := by
  by_contra hnone
  exact h ⟨e, rfl, fun cause hcause => hnone ⟨cause, hcause⟩⟩

end Outcome

open Outcome (Unrefused unrefused_ok)

/-! ### Joining on the host -/

/-- No array of the host has a shape: it has too many axes, or elements of so many bytes are too many. -/
def Shape.Excessive (s : Shape) (elementSize : Nat) : Prop := axisLimit < s.length ∨ s.fits elementSize = false

/-- Tensors that cannot be tied: two of them differ in more than their elements and their outermost axes, or an array
    cannot hold them one after the other. -/
def Tensor.Untieable (xs : List Tensor) : Prop :=
  (∃ x ∈ xs, ∃ y ∈ xs, x.device ≠ y.device ∨ x.dtype ≠ y.dtype ∨ x.shape.tail ≠ y.shape.tail) ∨
    ∃ x ∈ xs, Shape.fits ((xs.map (·.shape.headD 0)).sum :: x.shape.tail) x.dtype.size = false

variable {x z : Tensor} {xs ys : List Tensor} {d : DType} {s : Shape} {n : Nat}

namespace Host

theorem unrefused_joined (o : Option Tensor) : (joined o).Unrefused := by
  unfold joined
  split
  · split <;> simp
  · simp

theorem unrefused_requireSameDType (operation : String) (xs : List Tensor) :
    (requireSameDType operation xs).Unrefused := by
  unfold requireSameDType
  split
  · simp
  · split <;> simp

theorem unrefused_stack (x : Tensor) (xs : List Tensor) : (stack (.int 0) (x :: xs)).Unrefused := by
  rw [stack_eq]
  refine .bind (unrefused_requireSameDType _ _) fun _ => ?_
  split
  · simp
  split
  · simp
  · exact unrefused_joined _

theorem unrefused_tie (hne : xs ≠ []) (hranked : ∀ x ∈ xs, x.shape ≠ []) : (tie (.int 0) xs).Unrefused := by
  rw [tie_eq hne hranked]
  exact .bind (unrefused_requireSameDType _ _) fun _ => unrefused_joined _

end Host

namespace Tensor

/-- For tensors of the host, a stack is what its kernel makes of them. -/
theorem stack_host (hne : xs ≠ []) (hxs : ∀ x ∈ xs, x.device = .host) : stack xs (.int 0) = Host.stack (.int 0) xs := by
  rw [stack_eq hne hxs, Kernel.tensorsOf_host]
  obtain ⟨x, xs, rfl⟩ := List.exists_cons_of_ne_nil hne
  -- The kernel asks for one element type once more.
  cases hdtypes : Host.requireSameDType "stack" (x :: xs) with
  | error e =>
    rw [Host.stack_eq, hdtypes]
    rfl
  | ok _ => rfl

theorem tie_host (hne : xs ≠ []) (hxs : ∀ x ∈ xs, x.device = .host) (hranked : ∀ x ∈ xs, x.shape ≠ []) :
    tie xs (.int 0) = Host.tie (.int 0) xs := by
  rw [tie_eq hne hxs, Kernel.tensorsOf_host]
  cases hdtypes : Host.requireSameDType "tie" xs with
  | error e =>
    rw [Host.tie_eq hne hranked, hdtypes]
    rfl
  | ok _ => rfl

theorem unrefused_stack (hne : xs ≠ []) (hxs : ∀ x ∈ xs, x.device = .host) : (stack xs (.int 0)).Unrefused := by
  rw [stack_host hne hxs]
  obtain ⟨x, xs, rfl⟩ := List.exists_cons_of_ne_nil hne
  exact Host.unrefused_stack x xs

theorem stack_escapes_iff (hne : xs ≠ []) (hxs : ∀ x ∈ xs, x.device = .host) :
    (stack xs (.int 0)).Escapes ↔ Unstackable xs := by
  refine ⟨fun ⟨e, he, _⟩ => unstackable_of_error hne he, fun h => ?_⟩
  rw [stack_host hne hxs]
  obtain ⟨x, xs, rfl⟩ := List.exists_cons_of_ne_nil hne
  refine (Host.unrefused_stack x xs).escapes_iff.mpr fun z hz => ?_
  obtain ⟨halike, hrank, hstack, hroom⟩ := Host.stack_eq_ok hz
  obtain ⟨w, hw, hstacks⟩ := stack?_outermost fun y hy => (halike y hy).2
  obtain rfl : w = z := Option.some.inj (hw.symm.trans hstack)
  rw [hstacks.shape, hstacks.dtype] at hroom
  rcases h with ⟨y, hy, y', hy', hdiffer⟩ | ⟨y, hy, hlimits⟩
  · obtain ⟨hdtype, hshape⟩ := halike y hy
    obtain ⟨hdtype', hshape'⟩ := halike y' hy'
    rcases hdiffer with hne | hne | hne
    · exact hne ((hxs y hy).trans (hxs y' hy').symm)
    · exact hne (hdtype.trans hdtype'.symm)
    · exact hne (hshape.trans hshape'.symm)
  · obtain ⟨hdtype, hshape⟩ := halike y hy
    rw [hdtype, hshape, rank, hshape] at hlimits
    rcases hlimits with hlimit | hlimit
    · exact absurd hrank (Nat.not_lt.mpr hlimit)
    · rw [hroom] at hlimit
      cases hlimit

theorem untieable_of_error {e : Failure} (hne : xs ≠ []) (hranked : ∀ x ∈ xs, x.shape ≠ [])
    (h : tie xs (.int 0) = .error e) : Untieable xs := by
  obtain ⟨x, hx⟩ := List.exists_mem_of_ne_nil xs hne
  by_contra hnot
  rw [Untieable, not_or] at hnot
  obtain ⟨hagree, hroom⟩ := hnot
  have hfits : ∀ y ∈ xs, Fits x.device x.dtype x.shape.tail y := by
    intro y hy
    obtain ⟨n, s, hys⟩ := List.exists_cons_of_ne_nil (hranked y hy)
    have hsame : y.device = x.device ∧ y.dtype = x.dtype ∧ y.shape.tail = x.shape.tail := by
      by_contra hdiffer
      exact hagree ⟨y, hy, x, hx, by tauto⟩
    obtain ⟨hdevice, hdtype, htail⟩ := hsame
    rw [hys, List.tail_cons] at htail
    exact ⟨n, hdevice, hdtype, htail ▸ hys⟩
  obtain ⟨z, hz⟩ := tie_ok hne hfits fun _ => by
    by_contra hfull
    exact hroom ⟨x, hx, Bool.not_eq_true _ ▸ hfull⟩
  rw [hz] at h
  cases h

theorem tie_escapes_iff (hne : xs ≠ []) (hxs : ∀ x ∈ xs, x.device = .host) (hranked : ∀ x ∈ xs, x.shape ≠ []) :
    (tie xs (.int 0)).Escapes ↔ Untieable xs := by
  refine ⟨fun ⟨e, he, _⟩ => untieable_of_error hne hranked he, fun h => ?_⟩
  rw [tie_host hne hxs hranked]
  refine (Host.unrefused_tie hne hranked).escapes_iff.mpr fun z hz => ?_
  obtain ⟨d, s, hfits, hconcat, hroom⟩ := Host.fits_of_tie hxs hranked hz
  obtain ⟨w, hw, hjoins⟩ := concat?_joins hne hfits
  obtain rfl : w = z := Option.some.inj (hw.symm.trans hconcat)
  rw [hjoins.like.shape, hjoins.like.dtype] at hroom
  rcases h with ⟨y, hy, y', hy', hdiffer⟩ | ⟨y, hy, hfull⟩
  · obtain ⟨n, hlike⟩ := hfits y hy
    obtain ⟨n', hlike'⟩ := hfits y' hy'
    rcases hdiffer with hne | hne | hne
    · exact hne (hlike.device.trans hlike'.device.symm)
    · exact hne (hlike.dtype.trans hlike'.dtype.symm)
    · rw [hlike.shape, hlike'.shape] at hne
      exact hne rfl
  · obtain ⟨n, hlike⟩ := hfits y hy
    rw [hlike.dtype, hlike.shape, List.tail_cons, hroom] at hfull
    cases hfull

end Tensor

/-! ### Empty tensors -/

namespace Host

theorem unrefused_empty (hd : d ∈ DType.standard) : (empty s.toValue (.text d.name)).Unrefused := by
  rw [empty, typeFor_standard hd]
  refine .bind ?_ fun dims => .bind (o := Except.ok _) (unrefused_ok _) fun t => .bind ?_ fun _ => unrefused_ok _
  · have hdimensions : dimensions s.toValue = if Shape.axisLimit < (s.map fun (n : Nat) => Value.int n).length then
        .error .badValue else (s.map fun (n : Nat) => Value.int n).mapM dimension := rfl
    rw [hdimensions]
    split
    · simp
    · intro cause hcause
      obtain ⟨v, -, hv⟩ := Outcome.mapM_error hcause
      unfold dimension at hv
      split at hv
      · split at hv <;> cases hv
      · split at hv <;> cases hv
      · cases hv
  · unfold newShape
    dsimp only
    split <;> simp

theorem empty_escapes_iff (hd : d ∈ DType.standard) :
    (empty s.toValue (.text d.name)).Escapes ↔ s.Excessive d.size := by
  rw [(unrefused_empty hd).escapes_iff]
  constructor
  · intro hfail
    by_contra hroom
    rw [Shape.Excessive, not_or] at hroom
    exact hfail _ ((empty_iff hd).mpr ⟨Nat.not_lt.mp hroom.1, Bool.not_eq_false _ ▸ hroom.2, rfl⟩)
  · intro hlimits x hx
    obtain ⟨hrank, hroom, -⟩ := (empty_iff hd).mp hx
    rcases hlimits with hlimit | hlimit
    · exact absurd hrank (Nat.not_le.mpr hlimit)
    · rw [hroom] at hlimit
      cases hlimit

end Host

namespace Session.Default

variable {σ : Session}

/-- An empty tensor is left to the host, and the session remains as it is by default. -/
theorem empty_eq (h : σ.Default) (hd : d ∈ DType.standard) :
    empty s.toValue (.text d.name) auto σ = (Host.empty s.toValue (.text d.name), σ.settled .device) := by
  obtain ⟨i, hi⟩ := h.knowsStandard d hd
  rw [Session.empty_eq σ.host_mem_devices h.device rfl, hi]
  show (Host.empty s.toValue (.text d.name) >>= _, _) = _
  cases hx : Host.empty s.toValue (.text d.name) with
  | error e => rfl
  | ok x =>
    obtain ⟨-, -, rfl⟩ := (Host.empty_iff hd).mp hx
    have hdtype : (Tensor.zeros .host d s).dtype = d := rfl
    rw [Outcome.ok_bind, hdtype, hi]
    rfl

end Session.Default

/-! ### Parts on the host -/

namespace Tensor

theorem index_ok (hhost : x.device = .host) (hx : x.shape = n :: s) (hstorable : x.Storable) {k : Nat} (hk : k < n) :
    ∃ y, x.index (.int k) (.int 0) = .ok y := by
  have hn : n < 2 ^ 63 := hstorable.dims hhost n (hx ▸ List.mem_cons_self)
  have hword : Host.word 64 .tooLarge (k : Int) = .ok (k : Int) :=
    if_pos (Host.holds_word (Int.natCast_nonneg k) (by omega))
  have hlimit : ¬Shape.axisLimit < s.length := by
    have haxes := hstorable.axes hhost
    rw [rank, hx, List.length_cons] at haxes
    omega
  have hplace : Host.placeOn n k = .ok k := by rw [Host.placeOn, position?_ofNat hk]
  have hlt : k < x.slices.length := (length_slices hx).symm ▸ hk
  have hselect : x.select? 0 k = some x.slices[k] := by
    rw [← getElem?_slices hx hk, List.getElem?_eq_getElem hlt]
  refine ⟨x.slices[k], ?_⟩
  rw [Tensor.index_eq, hhost]
  show Host.index x (.int 0) (.int k) = _
  rw [Host.index_eq hx, hword, Outcome.ok_bind, if_neg hlimit, hplace, Outcome.ok_bind, hselect]
  rfl

theorem rowsUpTo_ok (hhost : x.device = .host) (hx : x.shape = n :: s) (hstorable : x.Storable) :
    x.rowsUpTo n = .ok x.slices := by
  obtain ⟨ys, hys⟩ : ∃ ys, x.rowsUpTo n = .ok ys := by
    cases hrows : x.rowsUpTo n with
    | ok ys => exact ⟨ys, rfl⟩
    | error e =>
      obtain ⟨k, hk, hindex⟩ := Outcome.mapM_error hrows
      obtain ⟨y, hy⟩ := index_ok hhost hx hstorable (List.mem_range.mp hk)
      rw [hy] at hindex
      cases hindex
  rw [hys, rowsUpTo_eq hx hys]

theorem split_ok (hhost : x.device = .host) (hx : x.shape = n :: s) (hstorable : x.Storable) {sizes : List Int}
    (h0 : ∀ m ∈ sizes, 0 ≤ m) (hsum : sizes.sum = n) : ∃ ys, x.split (.int 0) sizes = .ok ys := by
  have hle : 0 + (sizes.map Int.toNat).sum ≤ n := by
    have := sum_map_toNat h0
    omega
  obtain ⟨ys, hys⟩ := parts_ok hx hle
  refine ⟨ys, (split_iff hx).mpr ⟨h0, hsum, ?_⟩⟩
  rw [hhost]
  show Host.split x (.int 0) (.tuple (sizes.map .int)) = _
  rw [Host.split_eq hx (hstorable.dims hhost n (hx ▸ List.mem_cons_self)) h0 hsum, hys]
  rfl

end Tensor

end Dataflow
