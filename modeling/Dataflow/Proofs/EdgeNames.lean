import Dataflow.Graph.Edge
import Dataflow.Proofs.Numerals

/-! Names of edges and keys of outputs. An edge is named by its node, a colon and the number of an output, and reading
    the name gives both back. A key joins a node's name and the identifier of a stack of frames; the parts cannot be
    confused as long as no name of a node has the mark in it that stands between them. -/

namespace Dataflow

namespace Edge

/-! ### Names of edges -/

theorem breakAtLastColon_of_notMem {cs : List Char} (h : ':' ∉ cs) : breakAtLastColon cs = none := by
  induction cs with
  | nil => rfl
  | cons c cs ih =>
    have hc : c ≠ ':' := fun hc => h (hc ▸ List.mem_cons_self)
    simp [breakAtLastColon, ih fun hmem => h (List.mem_cons_of_mem _ hmem), hc]

theorem breakAtLastColon_append (before : List Char) {after : List Char} (h : ':' ∉ after) :
    breakAtLastColon (before ++ ':' :: after) = some (before, after) := by
  induction before with
  | nil => simp [breakAtLastColon, breakAtLastColon_of_notMem h]
  | cons c cs ih => simp [breakAtLastColon, ih]

/-- A name without a colon is read as the first output of its node. -/
theorem ofName_of_notMem {name : String} (h : ':' ∉ name.toList) : ofName name = .ok ⟨name, 0⟩ := by
  rw [ofName, breakAtLastColon_of_notMem h]

/-- The name of an output is read as that output, unless its number has too many digits. -/
theorem ofName_output (node : String) (k : Nat) :
    ofName (node ++ ":" ++ toString k) =
      if k < 10 ^ Text.longestNumeral then .ok ⟨node, k⟩ else .error .badValue := by
  have hlist : (node ++ ":" ++ toString k).toList = node.toList ++ ':' :: Nat.toDigits 10 k := by
    rw [String.toList_append, String.toList_append, List.append_assoc]
    exact congrArg (node.toList ++ ':' :: ·) Nat.toList_repr
  have hdigits : String.ofList (Nat.toDigits 10 k) = k.repr := by
    rw [← Nat.toList_repr, String.ofList_toList]
  simp only [ofName, hlist, breakAtLastColon_append node.toList (Numeral.notMem_toDigits (by decide) k),
    Numeral.isDigits_toDigits, if_true, hdigits, Numeral.integer?_repr, String.ofList_toList]
  by_cases hk : k < 10 ^ Text.longestNumeral
  · simp only [if_pos hk]
    rfl
  · simp only [if_neg hk]

/-! ### Keys -/

/-- A name of a node without the mark that starts an identifier inside a key. -/
def Plain (node : String) : Prop := ¬['-', '/'] <:+: node.toList

theorem plain_of_notMem {node : String} (h : '-' ∉ node.toList) : Plain node := fun hmark =>
  h (hmark.subset List.mem_cons_self)

/-- The identifier of the root, or one that goes on from it. -/
def Rooted (contextId : String) : Prop := contextId = "" ∨ ∃ cs, contextId.toList = '/' :: cs

theorem append_mark_inj {ms ns cs ds : List Char} (hm : ¬['-', '/'] <:+: ms) (hn : ¬['-', '/'] <:+: ns)
    (h : ms ++ '-' :: '/' :: cs = ns ++ '-' :: '/' :: ds) : ms = ns ∧ cs = ds := by
  -- Where one name ends before the other, the other one goes on with the mark.
  induction ms generalizing ns with
  | nil =>
    match ns, hn with
    | [], _ => exact ⟨rfl, by simpa using h⟩
    | [n], _ => simp at h
    | n :: n' :: ns, hn =>
      simp only [List.nil_append, List.cons_append, List.cons.injEq] at h
      obtain ⟨rfl, rfl, -⟩ := h
      exact absurd (List.prefix_append ['-', '/'] ns).isInfix hn
  | cons m ms ih =>
    cases ns with
    | nil =>
      match ms, hm with
      | [], _ => simp at h
      | m' :: ms, hm =>
        simp only [List.nil_append, List.cons_append, List.cons.injEq] at h
        obtain ⟨rfl, rfl, -⟩ := h
        exact absurd (List.prefix_append ['-', '/'] ms).isInfix hm
    | cons n ns =>
      simp only [List.cons_append, List.cons.injEq] at h
      obtain ⟨rfl, h⟩ := h
      obtain ⟨rfl, rfl⟩ := ih (fun hi => hm (List.infix_cons hi)) (fun hi => hn (List.infix_cons hi)) h
      exact ⟨rfl, rfl⟩

theorem toList_key {node contextId : String} {cs : List Char} (h : contextId.toList = '/' :: cs) :
    (key node contextId).toList = node.toList ++ '-' :: '/' :: cs := by
  have hne : contextId.isEmpty = false := by
    rw [String.isEmpty_eq_false_iff]
    rintro rfl
    cases h
  rw [key, hne, if_neg (by decide), String.toList_append, String.toList_append, h, List.append_assoc]
  rfl

theorem plain_ne_key {m n d : String} (hm : Plain m) {ds : List Char} (hd : d.toList = '/' :: ds) : m ≠ key n d := by
  intro h
  refine hm ⟨n.toList, ds, ?_⟩
  rw [h, toList_key hd, List.append_assoc]
  rfl

/-- Keys of plain names are equal only for the same name and the same identifier. -/
theorem key_inj {m n c d : String} (hm : Plain m) (hn : Plain n) (hc : Rooted c) (hd : Rooted d) :
    key m c = key n d ↔ m = n ∧ c = d := by
  refine ⟨fun h => ?_, fun h => by rw [h.1, h.2]⟩
  rcases hc with rfl | ⟨cs, hc⟩ <;> rcases hd with rfl | ⟨ds, hd⟩
  · exact ⟨h, rfl⟩
  · exact absurd h (plain_ne_key hm hd)
  · exact absurd h.symm (plain_ne_key hn hc)
  · have hlist := congrArg String.toList h
    rw [toList_key hc, toList_key hd] at hlist
    obtain ⟨hmn, hcd⟩ := append_mark_inj hm hn hlist
    exact ⟨String.toList_inj.mp hmn, String.toList_inj.mp (by rw [hc, hd, hcd])⟩

end Edge

/-! ### Outputs under keys -/

namespace Values

theorem lookup_cons (j i : String) (v : Outputs) (es : Values) :
    List.lookup j ((i, v) :: es) = if j = i then some v else List.lookup j es := by
  rw [List.lookup_cons]
  by_cases h : j = i
  · simp [h]
  · have hbeq : (j == i) = false := beq_eq_false_iff_ne.mpr h
    simp [hbeq, h]

theorem lookup_put (values : Values) (k j : String) (o : Outputs) :
    (values.put k o).lookup j = if j = k then some o else values.lookup j := by
  fun_induction put k o values with
  | case1 => exact lookup_cons j k o []
  | case2 e es h =>
    obtain ⟨i, v⟩ := e
    obtain rfl : i = k := h
    rw [lookup_cons, lookup_cons]
    split <;> rfl
  | case3 e es h ih =>
    obtain ⟨i, v⟩ := e
    have hi : i ≠ k := h
    rw [lookup_cons, lookup_cons, ih]
    by_cases hj : j = i
    · simp [hj, hi]
    · simp only [hj, if_false]

end Values

end Dataflow
