import Dataflow.Proofs.Escapes

/-! Coercion to integers. A number that is equal to an integer is taken for this integer, however large it is, and every
    other value is refused. What fails are plain integers that double precision has no place for: a number is made a
    double first, to see whether it has a fraction, and they are too large for one. -/

namespace Dataflow

open Rounding (doubleLimit)

namespace Value

variable {v : Value} {n m : Int} {x : Floating} {what : String} {f : Failure} {vs : List Value} {ns : List Int}

/-! ### Numbers that are equal to an integer -/

/-- The number that a value is, if it is a finite one. Truth values are no numbers here. -/
def rational? (v : Value) : Option Rat :=
  match v.numeric with
  | .whole n => some n
  | .real x => x.value?.map Dyadic.toRat
  | .none => none

/-- A number that is equal to an integer. -/
def IsInt (v : Value) (n : Int) : Prop := v.rational? = some (n : Rat)

/-- An integer half a unit above the greatest double, or further away from zero. -/
def IsOutsize (v : Value) : Prop := ∃ n, v.numeric = .whole n ∧ doubleLimit ≤ n.natAbs

/-- A value that is taken for an integer: it is equal to it, and no integer that is too large. -/
def StandsFor (v : Value) (n : Int) : Prop := v.IsInt n ∧ ¬v.IsOutsize

theorem isInt_of_whole (h : v.numeric = .whole m) : v.IsInt n ↔ m = n := by
  rw [IsInt, rational?, h, Option.some_inj, Rat.intCast_inj]

theorem isInt_of_real (h : v.numeric = .real x) : v.IsInt n ↔ x.value? = some (.ofInt n) := by
  rw [IsInt, rational?, h, ← Floating.toRat_ofInt, ← Option.map_some]
  exact (Option.map_injective fun _ _ => Dyadic.toRat_inj.mp).eq_iff

theorem not_isInt_of_none (h : v.numeric = .none) : ¬v.IsInt n := by
  simp [IsInt, rational?, h]

theorem isOutsize_of_whole (h : v.numeric = .whole m) : v.IsOutsize ↔ isHuge m = true := by
  rw [isHuge_iff]
  constructor
  · rintro ⟨k, hk, hsize⟩
    rw [h] at hk
    cases hk
    exact hsize
  · exact fun hsize => ⟨m, h, hsize⟩

theorem not_isOutsize (h : ∀ m, v.numeric ≠ .whole m) : ¬v.IsOutsize := fun ⟨m, hm, _⟩ => h m hm

theorem not_isOutsize_of_word (h : v.numeric = .whole m) (hm : m.natAbs < 2 ^ 64) : ¬v.IsOutsize := by
  rw [isOutsize_of_whole h, isHuge_eq_false hm]
  exact Bool.false_ne_true

theorem IsOutsize.exists_isInt (h : v.IsOutsize) : ∃ n, v.IsInt n := by
  obtain ⟨m, hm, -⟩ := h
  exact ⟨m, (isInt_of_whole hm).mpr rfl⟩

/-- A value is taken for an integer, or too large an integer, or equal to none. -/
theorem standsFor_cases (v : Value) : (∃ n, v.StandsFor n) ∨ v.IsOutsize ∨ ∀ n, ¬v.IsInt n := by
  by_cases hsize : v.IsOutsize
  · exact Or.inr (Or.inl hsize)
  by_cases hint : ∃ n, v.IsInt n
  · obtain ⟨n, hn⟩ := hint
    exact Or.inl ⟨n, hn, hsize⟩
  · exact Or.inr (Or.inr (not_exists.mp hint))

/-! ### Coercion of one value -/

theorem integer_of_standsFor (h : v.StandsFor n) (what : String) : integer what v = .ok n := by
  obtain ⟨hint, hsize⟩ := h
  rw [integer_eq]
  cases hv : v.numeric with
  | whole m =>
    rw [isOutsize_of_whole hv] at hsize
    exact (if_neg hsize).trans (congrArg Except.ok ((isInt_of_whole hv).mp hint))
  | real x =>
    have hvalue := (isInt_of_real hv).mp hint
    exact (if_pos (Floating.isIntegral_iff.mpr ⟨n, hvalue⟩)).trans (integerPart_of_value hvalue)
  | none => exact absurd hint (not_isInt_of_none hv)

theorem integer_of_isOutsize (h : v.IsOutsize) (what : String) : integer what v = .error .tooLarge := by
  obtain ⟨m, hm, -⟩ := id h
  rw [integer_eq, hm]
  exact if_pos ((isOutsize_of_whole hm).mp h)

theorem integer_of_not_isInt (h : ∀ n, ¬v.IsInt n) (what : String) :
    integer what v = v.refuse (.notInteger what) := by
  rw [integer_eq]
  cases hv : v.numeric with
  | whole m => exact absurd ((isInt_of_whole hv).mpr rfl) (h m)
  | real x =>
    refine if_neg fun hintegral => ?_
    obtain ⟨k, hk⟩ := Floating.isIntegral_iff.mp hintegral
    exact h k ((isInt_of_real hv).mpr hk)
  | none => rfl

theorem refuse_ne_ok {α : Type} {cause : Value → Refusal} {a : α} : v.refuse cause ≠ .ok a := by
  unfold refuse
  split <;> exact nofun

theorem refuse_escapes_iff {α : Type} {cause : Value → Refusal} :
    (v.refuse cause : Outcome α).Escapes ↔ v.isWritable = false := by
  unfold refuse
  split
  · simp [*]
  · simp [*, Outcome.Escapes]

theorem integer_ok_iff : integer what v = .ok n ↔ v.StandsFor n := by
  refine ⟨fun h => ?_, fun h => integer_of_standsFor h what⟩
  -- what comes out is decided by what the value is, and only one of the three gives an integer
  rcases standsFor_cases v with ⟨m, hm⟩ | hsize | hint
  · rw [integer_of_standsFor hm] at h
    cases h
    exact hm
  · rw [integer_of_isOutsize hsize] at h
    cases h
  · rw [integer_of_not_isInt hint] at h
    exact absurd h refuse_ne_ok

/-- A value whose coercion fails otherwise than by a refusal: an integer that is too large, or a value to be refused
    that cannot be written in the message. -/
def Breaks (v : Value) : Prop := v.IsOutsize ∨ (∀ n, ¬v.IsInt n) ∧ v.isWritable = false

theorem integer_escapes_iff : (integer what v).Escapes ↔ v.Breaks := by
  rcases standsFor_cases v with ⟨m, hm⟩ | hsize | hint
  · rw [integer_of_standsFor hm]
    refine iff_of_false (Outcome.not_escapes_ok m) ?_
    rintro (hsize | ⟨hint, -⟩)
    · exact hm.2 hsize
    · exact hint m hm.1
  · rw [integer_of_isOutsize hsize]
    exact iff_of_true ⟨_, rfl, nofun⟩ (Or.inl hsize)
  · have hsize : ¬v.IsOutsize := fun h => h.exists_isInt.elim hint
    rw [integer_of_not_isInt hint, refuse_escapes_iff, Breaks, or_iff_right hsize, and_iff_right hint]

/-! ### Coercion of the members of a sequence -/

end Value

end Dataflow
