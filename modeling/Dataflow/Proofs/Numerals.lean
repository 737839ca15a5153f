import Dataflow.Number.Numeral

/-! Numerals that are written and read back. The decimal text of a number consists of plain digits, and reading it
    gives the number, as long as it has no more digits than a written integer may have. -/

namespace Dataflow

namespace Text

theorem isDigit_toNat {c : Char} (h : c.isDigit = true) : 48 ≤ c.toNat ∧ c.toNat ≤ 57 := by
  simp [Char.isDigit, UInt32.le_iff_toNat_le] at h
  exact h

theorem decimalValue?_of_isDigit {c : Char} (h : c.isDigit = true) : decimalValue? c = some (c.toNat - 48) := by
  obtain ⟨lo, hi⟩ := isDigit_toNat h
  have hd : c.toNat < 0x30 + 10 := by omega
  simp [decimalValue?, zeroDigits, lo, hd]

theorem isBlank_of_isDigit {c : Char} (h : c.isDigit = true) : isBlank c = false := by
  obtain ⟨lo, hi⟩ := isDigit_toNat h
  simp [isBlank, blanks]
  omega

theorem trimBlanks_of_isDigit {cs : List Char} (h : ∀ c ∈ cs, c.isDigit = true) : trimBlanks cs = cs := by
  have keep : ∀ l : List Char, (∀ c ∈ l, c.isDigit = true) → l.dropWhile isBlank = l := by
    intro l hl
    cases l with
    | nil => rfl
    | cons c l => simp [isBlank_of_isDigit (hl c (by simp))]
  rw [trimBlanks, keep cs h, keep _ (by simpa using h), List.reverse_reverse]

end Text

/-! ### The digits of a number -/

namespace Numeral
open Text

theorem isDigit_of_mem_toDigits {n : Nat} {c : Char} (h : c ∈ Nat.toDigits 10 n) : c.isDigit = true :=
  Nat.isDigit_of_mem_toDigits (by decide) (by decide) h

theorem notMem_toDigits {c : Char} (hc : c.isDigit = false) (n : Nat) : c ∉ Nat.toDigits 10 n := fun h => by
  rw [isDigit_of_mem_toDigits h] at hc
  cases hc

theorem isDigits_toDigits (n : Nat) : isDigits (Nat.toDigits 10 n) = true := by
  simp only [isDigits, Bool.and_eq_true, Bool.not_eq_true', List.isEmpty_eq_false_iff, List.all_eq_true]
  refine ⟨Nat.toDigits_ne_nil, fun c hc => ?_⟩
  simp [Text.isDigit, decimalValue?_of_isDigit (isDigit_of_mem_toDigits hc)]

theorem digits?_of_isDigit {cs : List Char} (hne : cs ≠ []) (h : ∀ c ∈ cs, c.isDigit = true) :
    digits? cs = some (cs.map fun c => c.toNat - 48) := by
  fun_induction digits? cs with
  | case1 => exact absurd rfl hne
  | case2 c => simp [decimalValue?_of_isDigit (h c (by simp))]
  | case3 c rest ih => exact absurd (h '_' (by simp)) (by decide)
  | case4 c rest hsingle hscore ih =>
    have hrest : rest ≠ [] := fun hnil => hsingle hnil
    rw [ih hrest fun d hd => h d (List.mem_cons_of_mem _ hd), decimalValue?_of_isDigit (h c (by simp))]
    rfl

theorem sign_of_isDigit {c : Char} {cs : List Char} (h : c.isDigit = true) : sign (c :: cs) = (false, c :: cs) := by
  unfold sign
  split
  · rename_i heq
    cases heq
    exact absurd h (by decide)
  · rename_i heq
    cases heq
    exact absurd h (by decide)
  · rfl

theorem sign_toDigits (n : Nat) : sign (Nat.toDigits 10 n) = (false, Nat.toDigits 10 n) := by
  cases hd : Nat.toDigits 10 n with
  | nil => exact absurd hd Nat.toDigits_ne_nil
  | cons c cs => exact sign_of_isDigit (isDigit_of_mem_toDigits (n := n) (by simp [hd]))

theorem valueOfDigits_append (ds : List Nat) (d : Nat) : valueOfDigits (ds ++ [d]) = 10 * valueOfDigits ds + d := by
  simp [valueOfDigits]

/-- The decimal digits of a number have its value. -/
theorem valueOfDigits_toDigits (n : Nat) : valueOfDigits ((Nat.toDigits 10 n).map fun c => c.toNat - 48) = n := by
  induction n using Nat.strongRecOn with
  | ind n ih =>
    rcases Nat.lt_or_ge n 10 with h | h
    · rw [Nat.toDigits_of_lt_base h]
      simp [valueOfDigits, Nat.toNat_digitChar_sub_48_of_lt_ten h]
    · rw [Nat.toDigits_of_base_le (by decide) h, List.map_append, List.map_singleton, valueOfDigits_append,
        ih (n / 10) (by omega), Nat.toNat_digitChar_sub_48_of_lt_ten (Nat.mod_lt _ (by decide))]
      omega

theorem toDigits_inj {m n : Nat} : Nat.toDigits 10 m = Nat.toDigits 10 n ↔ m = n := by
  refine ⟨fun h => ?_, fun h => h ▸ rfl⟩
  rw [← valueOfDigits_toDigits m, h, valueOfDigits_toDigits]

theorem longestNumeral_lt_length {n : Nat} :
    longestNumeral < (Nat.toDigits 10 n).length ↔ ¬n < 10 ^ longestNumeral := by
  rw [← Nat.length_toDigits_le_iff (by decide) (by decide)]
  omega

/-- The text of a number is read as the number, unless it has too many digits. -/
theorem integer?_repr (n : Nat) : integer? n.repr = if n < 10 ^ longestNumeral then some (n : Int) else none := by
  have hdigit : ∀ c ∈ Nat.toDigits 10 n, c.isDigit = true := fun c => isDigit_of_mem_toDigits
  simp only [integer?, Nat.toList_repr, trimBlanks_of_isDigit hdigit, sign_toDigits,
    digits?_of_isDigit Nat.toDigits_ne_nil hdigit, Option.bind_eq_bind, Option.bind_some, List.length_map,
    longestNumeral_lt_length, ite_not]
  simp only [signed, valueOfDigits_toDigits]
  split <;> rfl

end Numeral

end Dataflow
