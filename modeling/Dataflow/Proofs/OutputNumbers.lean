import Dataflow.Proofs.EdgeNames
import Mathlib.Data.List.Forall2
import Mathlib.Data.Nat.Digits.Defs

/-! Numbers of outputs in the names of edges. What stands behind the last colon of a name is the number of an output if
    it consists of digits, of whatever script. A character that only has the form of a digit passes for one there, but
    has no place in a numeral: such a name cannot be read at all. -/

namespace Dataflow

/-! ### Digits of every script -/

namespace Text

/-- The ranges of all digits, decimal or not. -/
def digitRanges : List (Nat × Nat) := zeroDigits.map (fun z => (z, z + 9)) ++ digitForms

theorem decimalValue?_isSome {c : Char} :
    (decimalValue? c).isSome = true ↔ ∃ z ∈ zeroDigits, z ≤ c.toNat ∧ c.toNat ≤ z + 9 := by
  rw [decimalValue?, List.isSome_findSome?, List.any_eq_true]
  refine exists_congr fun z => and_congr_right fun _ => ?_
  rw [Option.isSome_ite]
  omega

theorem isDigit_iff {c : Char} : isDigit c = true ↔ ∃ r ∈ digitRanges, r.1 ≤ c.toNat ∧ c.toNat ≤ r.2 := by
  simp only [isDigit, Bool.or_eq_true, decimalValue?_isSome, List.any_eq_true, Bool.and_eq_true, decide_eq_true_eq,
    digitRanges, List.mem_append, or_and_right, exists_or, List.mem_map, exists_exists_and_eq_and]

theorem isBlank_iff {c : Char} : isBlank c = true ↔ ∃ r ∈ blanks, r.1 ≤ c.toNat ∧ c.toNat ≤ r.2 := by
  simp only [isBlank, List.any_eq_true, Bool.and_eq_true, decide_eq_true_eq]

theorem blanks_beside_digits : ∀ r ∈ digitRanges, ∀ q ∈ blanks, r.2 < q.1 ∨ q.2 < r.1 := by decide +kernel

theorem isBlank_of_digit {c : Char} (h : isDigit c = true) : isBlank c = false := by
  rw [Bool.eq_false_iff]
  intro hblank
  obtain ⟨r, hr, hlow, hhigh⟩ := isDigit_iff.mp h
  obtain ⟨q, hq, hlow', hhigh'⟩ := isBlank_iff.mp hblank
  rcases blanks_beside_digits r hr q hq with hlt | hlt <;> omega

theorem trimBlanks_of_none {cs : List Char} (h : ∀ c ∈ cs, isBlank c = false) : trimBlanks cs = cs := by
  have keep : ∀ l : List Char, (∀ c ∈ l, isBlank c = false) → l.dropWhile isBlank = l := fun l hl => by
    cases l with
    | nil => rfl
    | cons c l => simp [hl c List.mem_cons_self]
  rw [trimBlanks, keep cs h, keep _ (by simpa using h), List.reverse_reverse]

theorem isDigits_iff {cs : List Char} : isDigits cs = true ↔ cs ≠ [] ∧ ∀ c ∈ cs, isDigit c = true := by
  simp only [isDigits, Bool.and_eq_true, Bool.not_eq_true', List.isEmpty_eq_false_iff, List.all_eq_true]

/-- Digits have their values one by one where none of them only has the form of a digit. -/
theorem decimals_iff {cs : List Char} :
    (∃ ds, List.Forall₂ (fun c d => decimalValue? c = some d) cs ds) ↔ ∀ c ∈ cs, decimalValue? c ≠ none := by
  constructor
  · rintro ⟨ds, h⟩
    induction h with
    | nil => simp
    | cons hc _ ih => exact List.forall_mem_cons.mpr ⟨by simp [hc], ih⟩
  · intro h
    induction cs with
    | nil => exact ⟨[], .nil⟩
    | cons c cs ih =>
      obtain ⟨hc, hcs⟩ := List.forall_mem_cons.mp h
      obtain ⟨d, hd⟩ := Option.ne_none_iff_exists'.mp hc
      obtain ⟨ds, hds⟩ := ih hcs
      exact ⟨d :: ds, .cons hd hds⟩

theorem valueOfDigits_eq (ds : List Nat) : valueOfDigits ds = Nat.ofDigits 10 ds.reverse := by
  rw [Nat.ofDigits_eq_foldr, List.foldr_reverse, valueOfDigits]
  simp only [Nat.cast_id, Nat.add_comm]

end Text

namespace Numeral

open Text

/-- Digits are read one by one; none of them is the mark that may stand between two. -/
theorem digits?_cons {c : Char} {cs : List Char} (hne : cs ≠ []) (h : isDigits cs = true) :
    digits? (c :: cs) = (decimalValue? c).bind fun d => (digits? cs).map (d :: ·) := by
  rw [digits?]
  · cases decimalValue? c <;> cases digits? cs <;> rfl
  · exact hne
  · rintro rest rfl
    exact absurd ((isDigits_iff.mp h).2 '_' List.mem_cons_self) (by decide +kernel)

theorem digits?_eq_some {cs : List Char} {ds : List Nat} (h : isDigits cs = true) :
    digits? cs = some ds ↔ List.Forall₂ (fun c d => decimalValue? c = some d) cs ds := by
  obtain ⟨hne, hdigits⟩ := isDigits_iff.mp h
  clear h
  induction cs generalizing ds with
  | nil => exact absurd rfl hne
  | cons c cs ih =>
    cases cs with
    | nil =>
      rw [digits?, List.forall₂_cons_left_iff]
      cases decimalValue? c <;> simp [eq_comm]
    | cons c' cs =>
      have hrest : isDigits (c' :: cs) = true :=
        isDigits_iff.mpr ⟨List.cons_ne_nil _ _, fun d hd => hdigits d (List.mem_cons_of_mem _ hd)⟩
      rw [digits?_cons (List.cons_ne_nil _ _) hrest, List.forall₂_cons_left_iff]
      simp only [Option.bind_eq_some_iff, Option.map_eq_some_iff,
        ih (List.cons_ne_nil _ _) fun d hd => hdigits d (List.mem_cons_of_mem _ hd)]
      exact exists_congr fun d => ⟨fun ⟨hd, ds, hds, h⟩ => ⟨ds, hd, hds, h.symm⟩,
        fun ⟨ds, hd, hds, h⟩ => ⟨hd, ds, hds, h.symm⟩⟩

theorem sign_of_isDigits {cs : List Char} (h : isDigits cs = true) : sign cs = (false, cs) := by
  obtain ⟨-, hdigits⟩ := isDigits_iff.mp h
  unfold sign
  split
  · exact absurd (hdigits '-' List.mem_cons_self) (by decide +kernel)
  · exact absurd (hdigits '+' List.mem_cons_self) (by decide +kernel)
  · rfl

/-- A numeral of digits has neither blanks nor a sign to take away. -/
theorem integer?_of_isDigits {cs : List Char} (h : isDigits cs = true) :
    integer? (String.ofList cs) = (digits? cs).bind fun ds =>
      if longestNumeral < ds.length then none else some ((Nat.ofDigits 10 ds.reverse : Nat) : Int) := by
  have hblank : ∀ c ∈ cs, isBlank c = false := fun c hc => isBlank_of_digit ((isDigits_iff.mp h).2 c hc)
  simp only [integer?, String.toList_ofList, trimBlanks_of_none hblank, sign_of_isDigits h]
  cases digits? cs with
  | none => rfl
  | some ds =>
    simp only [Option.bind_eq_bind, Option.bind_some, ← valueOfDigits_eq]
    rfl

end Numeral

namespace Edge

/-! ### The last colon -/

theorem breakAtLastColon_eq_none {cs : List Char} : breakAtLastColon cs = none ↔ ':' ∉ cs := by
  refine ⟨fun h hmem => ?_, breakAtLastColon_of_notMem⟩
  obtain ⟨after, before, hcs, hlast⟩ := List.eq_append_cons_of_mem (List.mem_reverse.mpr hmem)
  have hsplit : cs = before.reverse ++ ':' :: after.reverse := by
    rw [← List.reverse_reverse cs, hcs]
    simp
  rw [hsplit, breakAtLastColon_append _ (by simpa using hlast)] at h
  cases h

theorem breakAtLastColon_eq_some {cs before after : List Char} :
    breakAtLastColon cs = some (before, after) ↔ cs = before ++ ':' :: after ∧ ':' ∉ after := by
  refine ⟨fun h => ?_, fun ⟨hcs, hafter⟩ => hcs ▸ breakAtLastColon_append before hafter⟩
  induction cs generalizing before with
  | nil => cases h
  | cons c cs ih =>
    rw [breakAtLastColon] at h
    split at h
    · rename_i before' after' hrest
      cases h
      obtain ⟨hcs, hafter⟩ := ih hrest
      exact ⟨congrArg (c :: ·) hcs, hafter⟩
    · rename_i hrest
      split at h
      · rename_i hc
        cases h
        exact ⟨by rw [hc]; rfl, breakAtLastColon_eq_none.mp hrest⟩
      · cases h

/-- A name that ends in a colon and digits behind it. -/
structure Numbered (name node index : String) : Prop where
  parts : name = node ++ ":" ++ index
  last : ':' ∉ index.toList
  digits : Text.isDigits index.toList = true

variable {name node index : String} {ds : List Nat}

theorem ofName_of_numbered (h : Numbered name node index) :
    ofName name = match Numeral.integer? index with
      | some k => .ok ⟨node, k.toNat⟩
      | none => .error .badValue := by
  have hlist : name.toList = node.toList ++ ':' :: index.toList := by
    rw [h.parts, String.toList_append, String.toList_append, List.append_assoc]
    rfl
  cases hindex : Numeral.integer? index <;>
    simp only [ofName, hlist, breakAtLastColon_append _ h.last, h.digits, if_true, String.ofList_toList, hindex]

theorem ofName_of_not_numbered (h : ∀ node index, ¬Numbered name node index) : ofName name = .ok ⟨name, 0⟩ := by
  rw [ofName]
  split
  · rfl
  · rename_i before after hbreak
    obtain ⟨hname, hlast⟩ := breakAtLastColon_eq_some.mp hbreak
    refine if_neg fun hdigits => h (String.ofList before) (String.ofList after) ⟨?_, ?_, ?_⟩
    · rw [← String.toList_inj, hname, String.toList_append, String.toList_append]
      simp
    · rwa [String.toList_ofList]
    · rwa [String.toList_ofList]

/-- A name that ends in a colon and decimal digits, not too many of them, is read as the output of their value. -/
theorem ofName_of_decimals (h : Numbered name node index)
    (hds : List.Forall₂ (fun c d => Text.decimalValue? c = some d) index.toList ds)
    (hlength : index.length ≤ Text.longestNumeral) : ofName name = .ok ⟨node, Nat.ofDigits 10 ds.reverse⟩ := by
  have hshort : ¬Text.longestNumeral < ds.length := by
    rw [← hds.length_eq, String.length_toList]
    exact Nat.not_lt.mpr hlength
  have hvalue := Numeral.integer?_of_isDigits h.digits
  rw [String.ofList_toList, (Numeral.digits?_eq_some h.digits).mpr hds, Option.bind_some, if_neg hshort] at hvalue
  rw [ofName_of_numbered h, hvalue]
  rfl

/-- A name cannot be read where a character behind the last colon passes for a digit and has no value. -/
theorem ofName_of_undecimal (h : Numbered name node index)
    (hchar : ∃ c ∈ index.toList, Text.decimalValue? c = none) : ofName name = .error .badValue := by
  obtain ⟨c, hc, hnovalue⟩ := hchar
  have hnone : Numeral.digits? index.toList = none := by
    rw [Option.eq_none_iff_forall_ne_some]
    intro ds hds
    exact Text.decimals_iff.mp ⟨ds, (Numeral.digits?_eq_some h.digits).mp hds⟩ c hc hnovalue
  have hvalue := Numeral.integer?_of_isDigits h.digits
  rw [String.ofList_toList, hnone, Option.bind_none] at hvalue
  rw [ofName_of_numbered h, hvalue]

/-- A name of at most 4000 characters that ends in a colon and decimal digits is read as the output that they number,
    and one that does not end in a colon and digits of any form as the first output of its node; the name of an output
    is read as that output. A name cannot be read if and only if it ends in a colon and digits and one of these is not
    a decimal digit. -/
theorem ofName_exact (hlength : name.length ≤ 4000) :
    (∀ node index ds, Numbered name node index →
      List.Forall₂ (fun c d => Text.decimalValue? c = some d) index.toList ds →
        ofName name = .ok ⟨node, Nat.ofDigits 10 ds.reverse⟩) ∧
      ((∀ node index, ¬Numbered name node index) → ofName name = .ok ⟨name, 0⟩) ∧
      (∀ node k, name = node ++ ":" ++ toString k → ofName name = .ok ⟨node, k⟩) ∧
      ∀ e, ofName name = .error e ↔ e = .badValue ∧
        ∃ node index, Numbered name node index ∧ ∃ c ∈ index.toList, Text.decimalValue? c = none := by
  have hshort : ∀ node index, name = node ++ ":" ++ index → index.length ≤ Text.longestNumeral := by
    rintro node index rfl
    rw [String.length_append, String.length_append] at hlength
    have hlimit : Text.longestNumeral = 4300 := rfl
    omega
  refine ⟨fun node index ds h hds => ofName_of_decimals h hds (hshort node index h.parts), ofName_of_not_numbered,
    ?_, ?_⟩
  · rintro node k rfl
    have hdigits : (toString k).length ≤ Text.longestNumeral := hshort node (toString k) rfl
    have hk : k < 10 ^ Text.longestNumeral := by
      by_contra hlarge
      have hlong := Numeral.longestNumeral_lt_length.mpr hlarge
      rw [← Nat.toList_repr, String.length_toList] at hlong
      exact absurd hdigits (Nat.not_le.mpr hlong)
    rw [ofName_output, if_pos hk]
  · intro e
    refine ⟨fun herror => ?_, fun ⟨he, node, index, h, hchar⟩ => he ▸ ofName_of_undecimal h hchar⟩
    by_cases hnumbered : ∃ node index, Numbered name node index
    · obtain ⟨node, index, h⟩ := hnumbered
      by_cases hchar : ∃ c ∈ index.toList, Text.decimalValue? c = none
      · rw [ofName_of_undecimal h hchar] at herror
        exact ⟨(Except.error.inj herror).symm, node, index, h, hchar⟩
      · obtain ⟨ds, hds⟩ := Text.decimals_iff.mpr fun c hc hnone => hchar ⟨c, hc, hnone⟩
        rw [ofName_of_decimals h hds (hshort node index h.parts)] at herror
        cases herror
    · rw [ofName_of_not_numbered fun node index h => hnumbered ⟨node, index, h⟩] at herror
      cases herror

/-- Colons before the last one belong to the node, and digits of other scripts number outputs too. -/
theorem ofName_exact_two_colons :
    let name := "a:1:٣7"
    name.length ≤ 4000 ∧ Numbered name "a:1" "٣7" ∧ ofName name = .ok ⟨"a:1", 37⟩ := by
  have hnumbered : Numbered "a:1:٣7" "a:1" "٣7" := ⟨rfl, by decide +kernel, by decide +kernel⟩
  have hlength : "a:1:٣7".length ≤ 4000 := by decide +kernel
  refine ⟨hlength, hnumbered, ?_⟩
  have hds : List.Forall₂ (fun c d => Text.decimalValue? c = some d) "٣7".toList [3, 7] :=
    .cons (by decide +kernel) (.cons (by decide +kernel) .nil)
  exact (ofName_exact hlength).1 "a:1" "٣7" [3, 7] hnumbered hds

/-- A superscript two passes for a digit, but the name that ends in it cannot be read. -/
theorem superscript_unread :
    "x:²".length ≤ 4000 ∧ Numbered "x:²" "x" "²" ∧ ofName "x:²" = .error .badValue := by
  have hnumbered : Numbered "x:²" "x" "²" := ⟨rfl, by decide +kernel, by decide +kernel⟩
  exact ⟨by decide +kernel, hnumbered, ofName_of_undecimal hnumbered ⟨'²', by decide +kernel, by decide +kernel⟩⟩

end Edge

end Dataflow
