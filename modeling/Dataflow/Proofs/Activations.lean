import Dataflow.Graph.Frame
import Dataflow.Proofs.EdgeNames
import Dataflow.Proofs.Integers
import Mathlib.Data.List.Induction

/-! Stacks of frames as they come about: the root, and above it the frames of nested loops. The identifier of a stack is
    a text that tells the loops and iterations on it apart, and the identifiers visible from a stack are those of the
    stacks that it extends. -/

namespace Dataflow

theorem Frame.enclosing_concat (fs : List Frame) (f : Frame) :
    enclosing (fs ++ [f]) = (fs ++ [f]) :: enclosing fs := by
  rw [enclosing, enclosing, List.length_append, List.length_singleton, List.range_succ_eq_map, List.map_cons,
    List.map_map, Nat.sub_zero, List.take_of_length_le (by simp)]
  congr 1
  refine List.map_congr_left fun k hk => ?_
  have hk := List.mem_range.mp hk
  show (fs ++ [f]).take (fs.length + 1 - (k + 1)) = fs.take (fs.length - k)
  rw [Nat.add_sub_add_right, List.take_append_of_le_length (by omega)]

/-- A loop that is under way, in one of its iterations. -/
structure Activation where
  /-- The number of its frame; the root has zero. -/
  id : Nat
  name : String
  iteration : Nat
  id_pos : 0 < id
  /-- The number of the iteration can be written. -/
  iteration_lt : iteration < 10 ^ Text.longestNumeral
deriving DecidableEq

namespace Activation

def frame (a : Activation) : Frame := ⟨.int a.id, .text a.name, .int a.iteration⟩

/-- The stack of frames of loops inside one another, the outermost first. -/
def stack (as : List Activation) : List Frame := .root :: as.map frame

def segment (a : Activation) : String := a.name ++ "-" ++ toString a.iteration

def contextId (as : List Activation) : String := "/".intercalate ("" :: as.map segment)

/-- The name has no mark in it that separates segments. -/
def Named (a : Activation) : Prop := '/' ∉ a.name.toList

/-! ### Identifiers -/

theorem formatted_natCast {n : Nat} (h : n < 10 ^ Text.longestNumeral) :
    (Value.int n).formatted = .ok (toString n) :=
  Value.formatted_int (Int.natAbs_natCast n ▸ h)

theorem segment_root : Frame.root.segment = .ok "" := by
  simp [Frame.segment, Frame.root]

theorem segment_frame (a : Activation) : a.frame.segment = .ok a.segment := by
  have hid : a.id ≠ 0 := Nat.pos_iff_ne_zero.mp a.id_pos
  have hname : (Value.text a.name).formatted = .ok a.name := rfl
  simp [Frame.segment, frame, hid, hname, formatted_natCast a.iteration_lt, segment]

theorem mapM_segment_stack (as : List Activation) : (stack as).mapM Frame.segment = .ok ("" :: as.map segment) := by
  have h : as.mapM (Frame.segment ∘ frame) = .ok (as.map segment) := Outcome.mapM_ok fun a _ => segment_frame a
  rw [stack, List.mapM_cons, List.mapM_map, segment_root, h]
  rfl

@[simp] theorem contextId_stack (as : List Activation) : Frame.contextId (stack as) = .ok (contextId as) := by
  rw [Frame.contextId, mapM_segment_stack]
  rfl

theorem contextId_error (as : List Activation) {f : Frame} (fs : List Frame) {e : Failure} (h : f.segment = .error e) :
    Frame.contextId (stack as ++ f :: fs) = .error e := by
  rw [Frame.contextId, List.mapM_append, mapM_segment_stack, List.mapM_cons, h]
  rfl

theorem toList_contextId (as : List Activation) :
    (contextId as).toList = as.flatMap fun a => '/' :: a.segment.toList := by
  rw [contextId, String.toList_intercalate]
  show List.intercalate ['/'] ([] :: (as.map segment).map String.toList) = _
  rw [List.map_map]
  induction as with
  | nil => rfl
  | cons a as ih =>
    rw [List.map_cons, List.intercalate_cons_cons, List.flatMap_cons, ← ih]
    cases as with
    | nil => simp
    | cons b bs => simp [List.intercalate_cons_cons]

@[simp] theorem contextId_nil : contextId [] = "" := String.intercalate_singleton

theorem rooted_contextId (as : List Activation) : Edge.Rooted (contextId as) := by
  cases as with
  | nil => exact Or.inl contextId_nil
  | cons a as => exact Or.inr ⟨_, by rw [toList_contextId, List.flatMap_cons]; rfl⟩

/-! ### Identifiers tell stacks apart -/

theorem toList_segment (a : Activation) : a.segment.toList = a.name.toList ++ '-' :: Nat.toDigits 10 a.iteration := by
  rw [segment, String.toList_append, String.toList_append, List.append_assoc]
  exact congrArg (a.name.toList ++ '-' :: ·) Nat.toList_repr

theorem append_last_inj {c : Char} {as bs cs ds : List Char} (hb : c ∉ bs) (hd : c ∉ ds)
    (h : as ++ c :: bs = cs ++ c :: ds) : as = cs ∧ bs = ds := by
  rcases List.append_eq_append_iff.mp h with ⟨es, hes, hrest⟩ | ⟨es, hes, hrest⟩
  · cases es with
    | nil => exact ⟨by rw [hes, List.append_nil], (List.cons.inj hrest).2⟩
    | cons e es =>
      obtain ⟨-, rfl⟩ := List.cons.inj hrest
      exact absurd (by simp) hb
  · cases es with
    | nil => exact ⟨by rw [hes, List.append_nil], (List.cons.inj hrest).2.symm⟩
    | cons e es =>
      obtain ⟨-, rfl⟩ := List.cons.inj hrest
      exact absurd (by simp) hd

theorem segment_inj {a b : Activation} : a.segment = b.segment ↔ a.name = b.name ∧ a.iteration = b.iteration := by
  refine ⟨fun h => ?_, fun h => by rw [segment, segment, h.1, h.2]⟩
  have hlist := congrArg String.toList h
  rw [toList_segment, toList_segment] at hlist
  obtain ⟨hname, hdigits⟩ := append_last_inj (Numeral.notMem_toDigits (by decide) _)
    (Numeral.notMem_toDigits (by decide) _) hlist
  exact ⟨String.toList_inj.mp hname, Numeral.toDigits_inj.mp hdigits⟩

theorem contextId_cons_ne_nil (a : Activation) (as : List Activation) : contextId (a :: as) ≠ contextId [] := by
  intro h
  have hlist := congrArg String.toList h
  rw [toList_contextId, toList_contextId, List.flatMap_cons] at hlist
  cases hlist

theorem contextId_singleton_inj {a b : Activation} :
    contextId [a] = contextId [b] ↔ a.name = b.name ∧ a.iteration = b.iteration := by
  have hlist : ∀ a : Activation, (contextId [a]).toList = '/' :: a.segment.toList := fun a => by
    rw [toList_contextId, List.flatMap_singleton]
  rw [← String.toList_inj, hlist, hlist, List.cons_inj_right, String.toList_inj, segment_inj]

theorem notMem_end (a : Activation) : '/' ∉ '-' :: Nat.toDigits 10 a.iteration := by
  rw [List.mem_cons, not_or]
  exact ⟨by decide, Numeral.notMem_toDigits (by decide) _⟩

/-- A name in which no segment ends: the number of an iteration never stands in it between the marks that would make it
    the end of a segment. -/
def ClearName (name : String) : Prop :=
  ∀ k < 10 ^ Text.longestNumeral, ¬('-' :: Nat.toDigits 10 k ++ ['/']) <:+: name.toList

theorem Named.clear {a : Activation} (h : a.Named) : ClearName a.name := fun _ _ hpart =>
  h (hpart.subset (List.mem_append_right _ List.mem_cons_self))

/-- No segment goes on from another one where a mark follows. -/
theorem segment_ne_append {b : Activation} (hb : ClearName b.name) (a : Activation) (es : List Char) :
    b.segment.toList ≠ a.segment.toList ++ '/' :: es := by
  intro h
  rw [toList_segment b] at h
  rcases List.append_eq_append_iff.mp h with ⟨cs, -, hend⟩ | ⟨cs, hname, hrest⟩
  · exact b.notMem_end (by rw [hend]; simp)
  cases cs with
  | nil => exact b.notMem_end (by rw [← List.nil_append (_ :: Nat.toDigits 10 b.iteration), ← hrest]; simp)
  | cons c cs =>
    -- The mark lies within the name, and the number of the other segment before it.
    obtain ⟨rfl, -⟩ := List.cons.inj hrest
    refine hb a.iteration a.iteration_lt ⟨a.name.toList, cs, ?_⟩
    rw [hname, toList_segment a]
    simp

/-- The name and the iteration of a loop, which its frame contributes to an identifier. -/
def mark (a : Activation) : String × Nat := (a.name, a.iteration)

theorem eq_of_append_segment {a b : Activation} (ha : ClearName a.name) (hb : ClearName b.name)
    (as bs : List Activation)
    (h : a.segment.toList ++ (contextId as).toList = b.segment.toList ++ (contextId bs).toList) :
    a.segment = b.segment := by
  have hmark : ∀ (cs : List Activation) {e : Char} {es : List Char}, (contextId cs).toList = e :: es → e = '/' := by
    intro cs e es hcs
    rcases rooted_contextId cs with hid | ⟨ds, hds⟩
    · rw [hid] at hcs
      cases hcs
    · rw [hds] at hcs
      exact (List.cons.inj hcs).1.symm
  rcases List.append_eq_append_iff.mp h with ⟨es, hseg, hrest⟩ | ⟨es, hseg, hrest⟩
  · cases es with
    | nil => exact String.toList_inj.mp (by rw [hseg, List.append_nil])
    | cons e es =>
      obtain rfl := hmark as hrest
      exact absurd hseg (segment_ne_append hb a es)
  · cases es with
    | nil => exact String.toList_inj.mp (by rw [hseg, List.append_nil])
    | cons e es =>
      obtain rfl := hmark bs hrest
      exact absurd hseg (segment_ne_append ha b es)

/-- Stacks of loops with clear names have one identifier only if they agree on all names and iterations. -/
theorem contextId_inj_of_clear {as bs : List Activation} (ha : ∀ a ∈ as, ClearName a.name)
    (hb : ∀ b ∈ bs, ClearName b.name) : contextId as = contextId bs ↔ as.map mark = bs.map mark := by
  induction as generalizing bs with
  | nil =>
    cases bs with
    | nil => simp
    | cons b bs => exact ⟨fun h => absurd h.symm (contextId_cons_ne_nil b bs), fun h => by cases h⟩
  | cons a as ih =>
    cases bs with
    | nil => exact ⟨fun h => absurd h (contextId_cons_ne_nil a as), fun h => by cases h⟩
    | cons b bs =>
      have han := ha a List.mem_cons_self
      have hbn := hb b List.mem_cons_self
      have ih := @ih bs (fun x hx => ha x (List.mem_cons_of_mem _ hx))
        fun x hx => hb x (List.mem_cons_of_mem _ hx)
      rw [← String.toList_inj, toList_contextId, toList_contextId, List.flatMap_cons, List.flatMap_cons,
        ← toList_contextId, ← toList_contextId, List.cons_append, List.cons_append, List.cons_inj_right,
        List.map_cons, List.map_cons, List.cons.injEq, ← ih]
      constructor
      · intro h
        have hseg := eq_of_append_segment han hbn as bs h
        rw [hseg] at h
        obtain ⟨hname, hiteration⟩ := segment_inj.mp hseg
        exact ⟨by rw [mark, mark, hname, hiteration], String.toList_inj.mp (List.append_cancel_left h)⟩
      · rintro ⟨hmark, hrest⟩
        rw [segment_inj.mpr (by simpa [mark] using hmark), hrest]

/-- Stacks of loops with names without a mark have one identifier only if they agree on all names and iterations. -/
theorem contextId_inj {as bs : List Activation} (ha : ∀ a ∈ as, a.Named) (hb : ∀ b ∈ bs, b.Named) :
    contextId as = contextId bs ↔ as.map mark = bs.map mark :=
  contextId_inj_of_clear (fun a hmem => (ha a hmem).clear) fun b hmem => (hb b hmem).clear

/-! ### The stacks that a stack extends -/

/-- The stacks that a stack extends, from itself down to the root. -/
def outward : List Activation → List (List Activation)
  | [] => [[]]
  | a :: as => (outward as).map (a :: ·) ++ [[]]

theorem outward_concat (as : List Activation) (a : Activation) : outward (as ++ [a]) = (as ++ [a]) :: outward as := by
  induction as with
  | nil => rfl
  | cons b bs ih => rw [List.cons_append, outward, ih, outward, List.map_cons, List.cons_append]

theorem enclosing_stack (as : List Activation) : Frame.enclosing (stack as) = (outward as).map stack := by
  induction as using List.reverseRecOn with
  | nil => rfl
  | append_singleton as a ih =>
    rw [outward_concat, List.map_cons, ← ih, stack, List.map_append, List.map_singleton, ← List.cons_append,
      Frame.enclosing_concat]
    rfl

/-- The identifiers that are visible from a stack. -/
def ids (as : List Activation) : List String := (outward as).map contextId

@[simp] theorem visibleIds_stack (as : List Activation) : Frame.visibleIds (stack as) = .ok (ids as) := by
  rw [Frame.visibleIds, enclosing_stack, List.mapM_map]
  exact Outcome.mapM_ok fun bs _ => contextId_stack bs

@[simp] theorem ids_nil : ids [] = [""] := by simp [ids, outward]

theorem ids_concat (as : List Activation) (a : Activation) : ids (as ++ [a]) = contextId (as ++ [a]) :: ids as := by
  rw [ids, outward_concat, List.map_cons, ids]

theorem ids_ne_nil (as : List Activation) : ids as ≠ [] := by
  rcases List.eq_nil_or_concat as with rfl | ⟨bs, b, rfl⟩
  · simp
  · rw [List.concat_eq_append, ids_concat]
    exact List.cons_ne_nil _ _

theorem headD_ids (as : List Activation) : (ids as).headD "" = contextId as := by
  rcases List.eq_nil_or_concat as with rfl | ⟨bs, b, rfl⟩
  · simp
  · rw [List.concat_eq_append, ids_concat, List.headD_cons]

end Activation

end Dataflow
