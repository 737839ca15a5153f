import Dataflow.Action
import Dataflow.Value.Coercion

/-! Integers among the values and among the floating-point numbers. Integers compare as numbers do, whatever their size,
    and a number is without a fraction exactly if it is equal to an integer. -/

namespace Dataflow

namespace Floating

theorem toRat_ofInt (n : Int) : (Dyadic.ofInt n).toRat = n := Dyadic.toRat_intCast n

theorem ofInt_inj {a b : Int} : Dyadic.ofInt a = Dyadic.ofInt b ↔ a = b := by
  rw [← Dyadic.toRat_inj, toRat_ofInt, toRat_ofInt, Rat.intCast_inj]

theorem ofInt_lt {a b : Int} : Dyadic.ofInt a < Dyadic.ofInt b ↔ a < b := by
  rw [← Dyadic.toRat_lt_toRat_iff, toRat_ofInt, toRat_ofInt, Rat.intCast_lt_intCast]

theorem ofInt_le {a b : Int} : Dyadic.ofInt a ≤ Dyadic.ofInt b ↔ a ≤ b := by
  rw [← Dyadic.toRat_le_toRat_iff, toRat_ofInt, toRat_ofInt, Rat.intCast_le_intCast]

theorem neg_ofInt (a : Int) : -Dyadic.ofInt a = Dyadic.ofInt (-a) := by
  rw [← Dyadic.toRat_inj, Dyadic.toRat_neg, toRat_ofInt, toRat_ofInt, Rat.intCast_neg]

@[simp] theorem lt_ofInt (a b : Int) : (ofInt a).lt (ofInt b) = decide (a < b) := by
  simp [lt, ofInt, value?, ofInt_lt]

@[simp] theorem eq_ofInt (a b : Int) : (ofInt a).eq (ofInt b) = decide (a = b) := by
  have : (ofInt a).eq (ofInt b) = (!decide (a < b) && !decide (b < a)) := by
    rw [← lt_ofInt, ← lt_ofInt]
    rfl
  rw [this, Bool.eq_iff_iff]
  simp
  omega

end Floating

namespace Value

/-! ### Equality and order -/

@[simp] theorem align_int (a b : Int) : align (.int a) (.int b) = .ok (some (.ofInt a, .ofInt b)) := rfl

@[simp] theorem less_int (a b : Int) : (Value.int a).less (.int b) = .ok (decide (a < b)) := by
  simp [less, lessAtoms]

@[simp] theorem isNegative_int (a : Int) : (Value.int a).isNegative = .ok (decide (a < 0)) := less_int a 0

@[simp] theorem atLeast_int (a b : Int) : (Value.int a).atLeast (.int b) = .ok (decide (b ≤ a)) := by
  simp only [atLeast, align_int, Outcome.ok_bind, Outcome.pure_eq, Floating.lt_ofInt, Floating.eq_ofInt]
  congr 1
  rw [Bool.eq_iff_iff]
  simp
  omega

@[simp] theorem equals_int (a b : Int) : (Value.int a).equals (.int b) = .ok (decide (a = b)) := by
  simp [equals, equalAtoms]

@[simp] theorem equals_text (s t : String) : (Value.text s).equals (.text t) = .ok (decide (s = t)) := by
  simp only [equals, equalAtoms]
  rfl

theorem equals_tuple (as bs : List Value) : (Value.tuple as).equals (.tuple bs) = equalItems as bs := by
  rw [equals]

theorem equalItems_cons (a b : Value) (as bs : List Value) :
    equalItems (a :: as) (b :: bs) = do if ← a.equals b then equalItems as bs else return false := by
  rw [equalItems]

@[simp] theorem int_beq (a b : Int) : ((Value.int a == .int b) : Bool) = decide (a = b) := by
  show same _ _ = _
  simp [same, number?]

end Value

/-! ### Numbers without a fraction -/

namespace Floating

variable {x : Floating} {n k : Int}

theorem toRat_of_integral (h : n % 2 = 1) (hk : k ≤ 0) :
    (Dyadic.ofOdd n k h).toRat = (truncateDyadic (.ofOdd n k h) : Int) := by
  have hnat : -k = (k.natAbs : Int) := by omega
  rw [truncateDyadic, if_pos hk, Dyadic.toRat_ofOdd_eq_mul_two_pow, hnat, Rat.zpow_natCast, Rat.intCast_mul,
    Rat.intCast_pow]
  rfl

theorem ofInt_cases (n : Int) :
    (n = 0 ∧ Dyadic.ofInt n = .zero) ∨ ∃ m k h, Dyadic.ofInt n = .ofOdd m k h ∧ k ≤ 0 := by
  rw [Dyadic.ofInt, Dyadic.ofIntWithPrec]
  split
  · rename_i hzero
    exact Or.inl ⟨hzero, rfl⟩
  · rename_i hne
    exact Or.inr ⟨_, _, Int.shiftRight_trailingZeros_mod_two hne, rfl, by omega⟩

theorem truncateDyadic_ofInt (n : Int) : truncateDyadic (.ofInt n) = n := by
  have hrat : (Dyadic.ofInt n).toRat = n := Dyadic.toRat_intCast n
  rcases ofInt_cases n with ⟨hzero, h⟩ | ⟨m, k, hodd, h, hk⟩
  · rw [h, hzero]
    rfl
  · rw [h] at hrat ⊢
    exact_mod_cast (toRat_of_integral hodd hk).symm.trans hrat

/-- A number is without a fraction exactly if it is equal to an integer. -/
theorem isIntegral_iff : x.isIntegral = true ↔ ∃ n, x.value? = some (.ofInt n) := by
  rw [isIntegral]
  constructor
  · intro h
    split at h
    · cases h
    · rename_i hvalue
      exact ⟨0, hvalue⟩
    · rename_i n k hodd hvalue
      refine ⟨truncateDyadic (.ofOdd n k hodd), hvalue.trans (congrArg some ?_)⟩
      rw [← Dyadic.toRat_inj, toRat_of_integral hodd (of_decide_eq_true h)]
      exact (Dyadic.toRat_intCast _).symm
  · rintro ⟨n, hvalue⟩
    rw [hvalue]
    rcases ofInt_cases n with ⟨-, h⟩ | ⟨m, k, hodd, h, hk⟩
    · rw [h]
    · rw [h]
      exact decide_eq_true hk

theorem truncate?_of_value (h : x.value? = some (.ofInt n)) : x.truncate? = some n := by
  rw [truncate?, h, Option.map_some, truncateDyadic_ofInt]

end Floating

end Dataflow
