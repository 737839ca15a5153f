import Dataflow.Proofs.Integers

/-! Integers in double precision. An integer that is rounded stays an integer, unless it is so large that it becomes an
    infinity, which begins half a unit above the greatest number of the format. So no integer is turned away because
    its double-precision form has a fraction, and every integer of a word stands for itself. -/

namespace Dataflow

/-! ### Rounding -/

namespace Rounding

variable {n : Nat}

theorem nearestEven_one (n : Nat) : nearestEven n 1 = n := by
  simp [nearestEven, Nat.mod_one]

/-- Rounding adds no more than half a unit. -/
theorem nearestEven_mul_le (n d : Nat) : 2 * (nearestEven n d * d) ≤ 2 * n + d := by
  have h := Nat.div_add_mod n d
  rw [Nat.mul_comm] at h
  have hs : (n / d + 1) * d = n / d * d + d := by rw [Nat.add_mul, Nat.one_mul]
  simp only [nearestEven]
  split <;> omega

theorem div_le_nearestEven (n d : Nat) : n / d ≤ nearestEven n d := by
  rw [nearestEven]
  split
  · exact Nat.le_succ _
  · exact Nat.le_refl _

/-- In the last half unit before a power of two an integer rounds up to it, and so it does from the middle, since the
    multiple of the unit below is odd. -/
theorem nearestEven_last {half : Nat} (hlow : (2 ^ 54 - 1) * half ≤ n) (hhigh : n < 2 ^ 54 * half) :
    nearestEven n (half * 2) = 2 ^ 53 := by
  have hpos : 0 < half * 2 := by omega
  have hquotient : n / (half * 2) = 2 ^ 53 - 1 := by
    rw [Nat.div_eq_iff hpos]
    omega
  have hrest := Nat.div_add_mod n (half * 2)
  rw [hquotient] at hrest
  rw [nearestEven, hquotient]
  exact if_pos (by omega)

theorem binade_one (hn : n ≠ 0) : binade n 1 = n.log2 := by
  have h : 2 ^ n.log2 ≤ n := Nat.log2_self_le hn
  have h1 : Nat.log2 1 = 0 := by decide
  simp [binade, h1, h]

theorem unitAt_double (hn : n ≠ 0) : (unitAt .double n 1).toNat = n.log2 - 52 := by
  have hp : ((Format.double.precision : Nat) : Int) = 53 := rfl
  have hl : Format.double.least = -1074 := rfl
  rw [unitAt, binade_one hn, hp, hl]
  omega

theorem ofIntWithPrec_neg (m u : Nat) : Dyadic.ofIntWithPrec m (-u) = .ofInt ((m * 2 ^ u : Nat) : Int) := by
  rw [← Dyadic.toRat_inj, Floating.toRat_ofInt, Dyadic.toRat_ofIntWithPrec_eq_mul_two_pow, Int.neg_neg, Rat.zpow_natCast]
  push_cast
  rfl

/-- The multiple of the unit of a format that is nearest to an integer. Where the unit is less than one this is the
    integer itself. -/
def rounded (f : Format) (n : Nat) : Nat :=
  nearestEven n (2 ^ (unitAt f n 1).toNat) * 2 ^ (unitAt f n 1).toNat

theorem magnitude_eq (f : Format) (n : Nat) :
    Dyadic.ofIntWithPrec (inUnits n 1 (unitAt f n 1)) (-unitAt f n 1) = .ofInt (rounded f n) := by
  rw [rounded]
  generalize unitAt f n 1 = unit
  by_cases hunit : 0 ≤ unit
  · obtain ⟨u, rfl⟩ := Int.eq_ofNat_of_zero_le hunit
    rw [inUnits, if_pos hunit, Int.natAbs_natCast, Int.toNat_natCast, Nat.one_mul, ofIntWithPrec_neg]
  · obtain ⟨u, rfl⟩ : ∃ u : Nat, unit = -u := ⟨unit.natAbs, by omega⟩
    have hnat : (-(u : Int)).toNat = 0 := by omega
    rw [inUnits, if_neg hunit, Int.natAbs_neg, Int.natAbs_natCast, hnat, Nat.pow_zero, Nat.mul_one, nearestEven_one,
      nearestEven_one, ← Dyadic.toRat_inj, Floating.toRat_ofInt, Dyadic.toRat_ofIntWithPrec_eq_mul_two_pow, Int.neg_neg]
    push_cast
    rw [← Rat.zpow_natCast, Rat.mul_assoc, ← Rat.zpow_add (by decide), Int.add_right_neg, Rat.zpow_zero, Rat.mul_one]

theorem rounded_zero (f : Format) : rounded f 0 = 0 := by
  simp [rounded, nearestEven]

theorem value_zero (b : Bool) : (Floating.zero b).value? = some (.ofInt 0) := by
  cases b <;> rfl

/-- An integer that is rounded becomes an infinity or stays an integer. -/
theorem ofQuotient_cases (f : Format) (b : Bool) (n : Nat) :
    (2 ^ f.bound ≤ rounded f n ∧ ofQuotient f b n 1 = .infinite b) ∨
      (rounded f n < 2 ^ f.bound ∧ ∃ k, (ofQuotient f b n 1).value? = some (.ofInt k)) := by
  have hlimit : Dyadic.ofIntWithPrec 1 (-f.bound) = .ofInt ((2 ^ f.bound : Nat) : Int) := by
    rw [← Nat.one_mul (2 ^ f.bound)]
    exact ofIntWithPrec_neg 1 f.bound
  have hle : Dyadic.ofIntWithPrec 1 (-f.bound) ≤ .ofInt (rounded f n) ↔ 2 ^ f.bound ≤ rounded f n := by
    rw [hlimit, Floating.ofInt_le, Int.ofNat_le]
  have hmagnitude := magnitude_eq f n
  have hpos : 0 < 2 ^ f.bound := Nat.two_pow_pos _
  by_cases hn : n = 0
  · rw [hn, rounded_zero, ofQuotient, if_pos rfl]
    exact Or.inr ⟨hpos, 0, value_zero b⟩
  simp only [ofQuotient, if_neg hn, hmagnitude]
  by_cases hm : inUnits n 1 (unitAt f n 1) = 0
  · rw [hm] at hmagnitude
    have hzero : (rounded f n : Int) = 0 := Floating.ofInt_inj.mp hmagnitude.symm
    rw [if_pos hm, Int.ofNat_eq_zero.mp hzero]
    exact Or.inr ⟨hpos, 0, value_zero b⟩
  rw [if_neg hm]
  by_cases hlarge : 2 ^ f.bound ≤ rounded f n
  · exact Or.inl ⟨hlarge, if_pos (hle.mpr hlarge)⟩
  · refine Or.inr ⟨Nat.lt_of_not_le hlarge, ?_⟩
    rw [if_neg (mt hle.mp hlarge)]
    cases b with
    | false => exact ⟨_, rfl⟩
    | true => exact ⟨-(rounded f n : Int), congrArg some (Floating.neg_ofInt _)⟩

/-- Rounding does not take an integer below the power of two that it has reached. -/
theorem log2_le_rounded (hn : 52 ≤ n.log2) : 2 ^ n.log2 ≤ rounded .double n := by
  have hzero : n ≠ 0 := by
    rintro rfl
    exact absurd hn (by decide)
  obtain ⟨u, hu⟩ : ∃ u, n.log2 = 52 + u := Nat.exists_eq_add_of_le hn
  have hquotient : 2 ^ 52 ≤ n / 2 ^ u := by
    rw [Nat.le_div_iff_mul_le (Nat.two_pow_pos u), ← Nat.pow_add, ← hu]
    exact Nat.log2_self_le hzero
  rw [rounded, unitAt_double hzero, hu, Nat.add_sub_cancel_left, Nat.pow_add]
  exact Nat.mul_le_mul_right _ (Nat.le_trans hquotient (div_le_nearestEven n _))

/-- Integers from the first power of two on that is too large do not round below it. -/
theorem bound_le_rounded_of_le (h : 2 ^ Format.double.bound ≤ n) : 2 ^ Format.double.bound ≤ rounded .double n := by
  have hn : n ≠ 0 := Nat.ne_of_gt (Nat.lt_of_lt_of_le (Nat.two_pow_pos _) h)
  have hlog : Format.double.bound ≤ n.log2 := (Nat.le_log2 hn).mpr h
  exact Nat.le_trans (Nat.pow_le_pow_right Nat.two_pos hlog) (log2_le_rounded (Nat.le_trans (by decide) hlog))

/-- Half a unit above the greatest number of double precision. -/
def doubleLimit : Nat := (2 ^ 54 - 1) * 2 ^ 970

/-- Integers round to the first power of two that is too large, or beyond it, from half a unit above the greatest number
    of double precision on. -/
theorem bound_le_rounded : 2 ^ Format.double.bound ≤ rounded .double n ↔ doubleLimit ≤ n := by
  -- half a unit is a power with a variable for its exponent, so that nothing computes it
  obtain ⟨k, hk⟩ : ∃ k, 970 = k := ⟨_, rfl⟩
  have hexponent : Format.double.bound = 54 + k := hk ▸ rfl
  have hbound : 2 ^ Format.double.bound = 2 ^ 54 * 2 ^ k := by rw [hexponent, Nat.pow_add]
  have hpow : 2 ^ (k + 1) = 2 ^ k * 2 := Nat.pow_succ 2 k
  have hhalf := Nat.two_pow_pos k
  rw [doubleLimit, hk]
  by_cases hn : n = 0
  · rw [hn, rounded_zero]
    omega
  by_cases hlarge : 2 ^ Format.double.bound ≤ n
  · exact iff_of_true (bound_le_rounded_of_le hlarge) (by omega)
  have hlog : n.log2 < Format.double.bound := (Nat.log2_lt hn).mpr (Nat.lt_of_not_le hlarge)
  rw [rounded, unitAt_double hn]
  constructor
  · intro h
    have hunit : n.log2 - 52 ≤ k + 1 := by omega
    have hunits := Nat.pow_le_pow_right Nat.two_pos hunit
    have hle := nearestEven_mul_le n (2 ^ (n.log2 - 52))
    omega
  · intro h
    have hlow : 53 + k ≤ n.log2 := by
      rw [Nat.le_log2 hn, Nat.pow_add]
      omega
    have hunit : n.log2 - 52 = k + 1 := by omega
    rw [hunit, hpow, nearestEven_last h (by omega)]
    omega

end Rounding

namespace Value

variable {n : Int} {x : Floating}

theorem isHuge_iff_rounded : isHuge n = true ↔ 2 ^ Format.double.bound ≤ Rounding.rounded .double n.natAbs := by
  rw [isHuge, Floating.roundInt]
  rcases Rounding.ofQuotient_cases .double (n < 0) n.natAbs with ⟨hlarge, hinfinite⟩ | ⟨hsmall, k, hvalue⟩
  · rw [hinfinite]
    exact iff_of_true rfl hlarge
  · refine iff_of_false ?_ (Nat.not_le.mpr hsmall)
    split
    · rename_i hinfinite
      rw [hinfinite] at hvalue
      cases hvalue
    · exact Bool.false_ne_true

/-- The integers that have no place in double precision begin half a unit above its greatest number. -/
theorem isHuge_iff : isHuge n = true ↔ Rounding.doubleLimit ≤ n.natAbs :=
  isHuge_iff_rounded.trans Rounding.bound_le_rounded

/-- An integer from the first power of two on that is too large for double precision. -/
theorem isHuge_of_le (h : 2 ^ Format.double.bound ≤ n.natAbs) : isHuge n = true :=
  isHuge_iff_rounded.mpr (Rounding.bound_le_rounded_of_le h)

theorem natAbs_lt_of_isHuge (h : isHuge n = false) : n.natAbs < 2 ^ Format.double.bound :=
  Nat.lt_of_not_le fun hlarge => Bool.false_ne_true (h.symm.trans (isHuge_of_le hlarge))

/-- An integer of a word is not too large for double precision. -/
theorem isHuge_eq_false (h : n.natAbs < 2 ^ 64) : isHuge n = false := by
  rw [← Bool.not_eq_true, isHuge_iff, Rounding.doubleLimit]
  have hword : 64 ≤ 970 := by decide
  have hpow := Nat.pow_le_pow_right Nat.two_pos hword
  omega

/-- In double precision an integer is without a fraction. -/
theorem isIntegral_roundInt (h : isHuge n = false) : (Floating.roundInt .double n).isIntegral = true := by
  rcases Rounding.ofQuotient_cases .double (n < 0) n.natAbs with ⟨hlarge, -⟩ | ⟨-, k, hvalue⟩
  · rw [isHuge_iff_rounded.mpr hlarge] at h
    cases h
  · exact Floating.isIntegral_iff.mpr ⟨k, hvalue⟩

/-! ### Numbers that are coerced -/

/-- A value as a number: an integer or a floating-point number by its type, or none. Truth values are no numbers here. -/
inductive Numeric where
  | whole (n : Int)
  | real (x : Floating)
  | none

def numeric : Value → Numeric
  | .int n | .scalar _ (.whole n) => .whole n
  | .real x | .scalar _ (.real x) => .real x
  | _ => .none

theorem integer_of_whole {v : Value} (hdouble : v.asDouble = asDouble (.int n)) (hwhole : v.wholePart = .ok n)
    (what : String) : integer what v = if isHuge n then .error .tooLarge else .ok n := by
  rw [integer, hdouble, asDouble]
  split
  · rfl
  · rename_i hsmall
    rw [Outcome.ok_bind, Option.any_some, isIntegral_roundInt (Bool.eq_false_iff.mpr hsmall), if_pos rfl, hwhole]

/-- An integer stands for itself, though its double-precision form may be another one. -/
theorem integer_eq (what : String) (v : Value) :
    integer what v = match v.numeric with
      | .whole n => if isHuge n then .error .tooLarge else .ok n
      | .real x => if x.isIntegral then integerPart x else v.refuse (.notInteger what)
      | .none => v.refuse (.notInteger what) := by
  cases v with
  | int n => exact integer_of_whole rfl rfl what
  | scalar d e =>
    cases e with
    | whole n =>
      have hdouble : (Value.scalar d (.whole n)).asDouble = asDouble (.int n) := rfl
      exact integer_of_whole hdouble rfl what
    | _ => rfl
  | _ => rfl

theorem integer_int (what : String) (n : Int) :
    integer what (.int n) = if isHuge n then .error .tooLarge else .ok n :=
  integer_eq what (.int n)

theorem integerPart_of_value (h : x.value? = some (.ofInt n)) : integerPart x = .ok n := by
  have htruncate := Floating.truncate?_of_value h
  unfold integerPart
  split
  · cases h
  · cases h
  · rw [htruncate]

/-! ### Refusals -/

theorem areWritable_iff {vs : List Value} : areWritable vs = true ↔ ∀ v ∈ vs, v.isWritable = true := by
  induction vs with
  | nil => simp [areWritable]
  | cons v vs ih => simp [areWritable, ih]

theorem isWritable_int (h : n.natAbs < 2 ^ 64) : (Value.int n).isWritable = true := by
  rw [isWritable]
  refine decide_eq_true (Nat.lt_of_lt_of_le h ?_)
  calc 2 ^ 64 ≤ 10 ^ 64 := Nat.pow_le_pow_left (by decide) _
    _ ≤ 10 ^ Text.longestNumeral := Nat.pow_le_pow_right (by decide) (by decide)

theorem refuse_writable {α : Type} {v : Value} (h : v.isWritable = true) (cause : Value → Refusal) :
    (v.refuse cause : Outcome α) = .error (.refused (cause v)) := if_pos h

end Value

end Dataflow
