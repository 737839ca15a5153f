import Dataflow.Proofs.MadeTypes
import Mathlib.Data.List.Induction

/-! Several types joined one after the other. Where all of them can be parts of alternatives they become these,
    otherwise a union, and the order stays. They are made so whatever was made before, unless something equal to what is
    joined on the way is remembered. -/

namespace Dataflow

namespace TypeExpr

variable {m t : TypeExpr} {ms ps : List TypeExpr}

/-! ### Members -/

/-- Types that a union can have as its members: they are keys and no unions themselves, and no two are equal. -/
structure Separate (ms : List TypeExpr) : Prop where
  nonempty : ms ≠ []
  apart : ms.Pairwise fun a b => a.same b = false
  single : ∀ m ∈ ms, m.set? = none
  keys : areKeys ms = true

theorem distinct_of_pairwise {α : Type} {eq : α → α → Bool} {xs : List α} (h : xs.Pairwise fun a b => eq a b = false) :
    distinct eq xs = xs := by
  have hall : ∀ ys seen : List α, (seen ++ ys).Pairwise (fun a b => eq a b = false) →
      ys.foldl (fun seen x => if seen.any (eq · x) then seen else seen ++ [x]) seen = seen ++ ys := by
    intro ys
    induction ys with
    | nil => exact fun seen _ => (List.append_nil seen).symm
    | cons y ys ih =>
      intro seen hseen
      have hnew : seen.any (eq · y) = false := List.any_eq_false.mpr fun x hx => by
        rw [(List.pairwise_append.mp hseen).2.2 x hx y List.mem_cons_self]
        exact Bool.false_ne_true
      rw [List.append_cons] at hseen
      rw [List.foldl_cons, hnew, if_neg Bool.false_ne_true, ih _ hseen, ← List.append_cons]
  exact hall xs [] h

theorem members_of_single (h : m.set? = none) : m.members = [m] := by
  cases m with
  | union ms => cases h
  | alternatives ms => cases h
  | _ => rfl

theorem patterns_of_single (h : m.set? = none) : Signature.patterns m = [m] := by
  cases m with
  | union ms => cases h
  | _ => rfl

theorem flatMap_members (h : ∀ m ∈ ms, m.set? = none) : ms.flatMap members = ms := by
  induction ms with
  | nil => rfl
  | cons m ms ih =>
    rw [List.flatMap_cons, members_of_single (h m List.mem_cons_self), ih fun p hp => h p (List.mem_cons_of_mem _ hp)]
    rfl

/-- Types joined one after the other: alternatives where all of them can be a part of these, otherwise a union. -/
def joined (ms : List TypeExpr) : TypeExpr := flattened (if ms.all isPlain then .alternatives else .union) ms

namespace Separate

theorem of_append (h : Separate (ms ++ ps)) (hne : ms ≠ []) : Separate ms where
  nonempty := hne
  apart := (List.pairwise_append.mp h.apart).1
  single m hm := h.single m (List.mem_append_left _ hm)
  keys := areKeys_iff.mpr fun m hm => areKeys_iff.mp h.keys m (List.mem_append_left _ hm)

theorem flattened_cases (h : Separate ms) (spelling : List TypeExpr → TypeExpr) :
    (∃ m, ms = [m] ∧ flattened spelling ms = m) ∨ 1 < ms.length ∧ flattened spelling ms = spelling ms := by
  have hmembers : distinct same (ms.flatMap members) = ms := by
    rw [flatMap_members h.single, distinct_of_pairwise h.apart]
  rw [flattened, hmembers]
  match ms, h.nonempty with
  | [m], _ => exact Or.inl ⟨m, rfl, rfl⟩
  | m :: n :: ms, _ => exact Or.inr ⟨by simp, rfl⟩

/-- A union of separate types is taken apart again. -/
theorem patterns_flattened (h : Separate ms) : Signature.patterns (flattened .union ms) = ms := by
  rcases h.flattened_cases .union with ⟨m, rfl, hm⟩ | ⟨-, hm⟩
  · rw [hm, patterns_of_single (h.single m List.mem_cons_self)]
  · rw [hm]
    rfl

theorem joined_cases (h : Separate ms) : (∃ m, ms = [m] ∧ joined ms = m) ∨
    1 < ms.length ∧ (ms.all isPlain = true ∧ joined ms = .alternatives ms ∨
      ms.all isPlain = false ∧ joined ms = .union ms) := by
  unfold joined
  cases hplain : ms.all isPlain with
  | true => exact (h.flattened_cases .alternatives).imp_right fun ⟨hlength, hm⟩ => ⟨hlength, Or.inl ⟨rfl, hm⟩⟩
  | false => exact (h.flattened_cases .union).imp_right fun ⟨hlength, hm⟩ => ⟨hlength, Or.inr ⟨rfl, hm⟩⟩

theorem joined_single (h : Separate [m]) : joined [m] = m := by
  rcases h.joined_cases with ⟨n, hn, hjoined⟩ | ⟨hlength, -⟩
  · rw [hjoined, List.singleton_injective hn]
  · exact absurd hlength (Nat.lt_irrefl 1)

theorem joined_eq (h : Separate ms) :
    joined ms = if 1 < ms.length ∧ ms.all isPlain = true then .alternatives ms else flattened .union ms := by
  rcases h.joined_cases with ⟨m, rfl, hjoined⟩ | ⟨hlength, ⟨hplain, hjoined⟩ | ⟨hplain, -⟩⟩
  · rw [if_neg fun hplural => Nat.lt_irrefl 1 hplural.1, hjoined]
    rcases h.flattened_cases .union with ⟨n, hn, hunion⟩ | ⟨hlength, -⟩
    · rw [hunion, List.singleton_injective hn]
    · exact absurd hlength (Nat.lt_irrefl 1)
  · rw [if_pos ⟨hlength, hplain⟩, hjoined]
  · rw [if_neg fun hplural => Bool.false_ne_true (hplain.symm.trans hplural.2), joined, hplain]
    rfl

/-- Several types are joined to a set of them. -/
theorem set?_joined (h : Separate ms) (hlength : 1 < ms.length) : (joined ms).set? = some ms := by
  rcases h.joined_cases with ⟨m, rfl, -⟩ | ⟨-, ⟨-, hjoined⟩ | ⟨-, hjoined⟩⟩
  · exact absurd hlength (Nat.lt_irrefl 1)
  · rw [hjoined]
    rfl
  · rw [hjoined]
    rfl

theorem members_joined (h : Separate ms) : (joined ms).members = ms := by
  rcases h.joined_cases with ⟨m, rfl, hjoined⟩ | ⟨-, ⟨-, hjoined⟩ | ⟨-, hjoined⟩⟩
  · rw [hjoined, members_of_single (h.single m List.mem_cons_self)]
  · rw [hjoined]
    rfl
  · rw [hjoined]
    rfl

theorem isPlain_joined (h : Separate ms) : (joined ms).isPlain = ms.all isPlain := by
  rcases h.joined_cases with ⟨m, rfl, hjoined⟩ | ⟨-, ⟨hplain, hjoined⟩ | ⟨hplain, hjoined⟩⟩
  · rw [hjoined, List.all_cons, List.all_nil, Bool.and_true]
  · rw [hjoined, hplain]
    rfl
  · rw [hjoined, hplain]
    rfl

theorem isKey_joined (h : Separate ms) : (joined ms).isKey = true := by
  rcases h.joined_cases with ⟨m, rfl, hjoined⟩ | ⟨-, ⟨-, hjoined⟩ | ⟨-, hjoined⟩⟩
  · rw [hjoined]
    exact areKeys_iff.mp h.keys m List.mem_cons_self
  · rw [hjoined]
    exact h.keys
  · rw [hjoined]
    exact h.keys

variable {q : TypeExpr}

/-- A further type is joined to those before it. -/
theorem flattened_joined (h : Separate (ms ++ [q])) (hne : ms ≠ []) (spelling : List TypeExpr → TypeExpr) :
    flattened spelling [joined ms, q] = flattened spelling (ms ++ [q]) := by
  have hmembers : [joined ms, q].flatMap members = (ms ++ [q]).flatMap members := by
    rw [List.flatMap_append, flatMap_members fun m hm => h.single m (List.mem_append_left _ hm), List.flatMap_cons,
      (h.of_append hne).members_joined]
  rw [flattened, flattened, hmembers]

theorem areKeys_joined (h : Separate (ms ++ [q])) (hne : ms ≠ []) : areKeys [joined ms, q] = true := by
  refine areKeys_iff.mpr fun t ht => ?_
  rcases List.mem_pair.mp ht with rfl | rfl
  · exact (h.of_append hne).isKey_joined
  · exact areKeys_iff.mp h.keys t (List.mem_append_right _ List.mem_cons_self)

/-- The types joined so far do not equal what they are joined to later on. -/
theorem not_same_joined (h : Separate ms) (hne : ps ≠ []) (hstart : ps ++ [q] <+: ms) :
    (joined ps).same (joined ms) = false := by
  obtain ⟨rest, rfl⟩ := hstart
  have hbefore : Separate ps := (List.append_assoc ps [q] rest ▸ h).of_append hne
  have hlength : 1 < (ps ++ [q] ++ rest).length := by
    have hpos := List.length_pos_iff.mpr hne
    simp only [List.length_append, List.length_singleton]
    omega
  have hq : q ∈ ps ++ [q] ++ rest := by simp
  refine Bool.eq_false_iff.mpr fun hsame => ?_
  obtain ⟨us, hus, hmembers, -⟩ := (same_iff_of_set (h.set?_joined hlength)).mp (same_symm hsame)
  rcases hbefore.joined_cases with ⟨m, rfl, hjoined⟩ | ⟨hplural, -⟩
  · rw [hjoined, hbefore.single m List.mem_cons_self] at hus
    cases hus
  · rw [hbefore.set?_joined hplural] at hus
    obtain rfl := Option.some.inj hus
    obtain ⟨p, hp, hqp⟩ := hmembers q hq
    have hapart := (List.pairwise_append.mp (List.pairwise_append.mp h.apart).1).2.2 p hp q List.mem_cons_self
    exact Bool.false_ne_true (hapart.symm.trans (same_symm hqp))

end Separate

end TypeExpr

open TypeExpr

/-! ### Making -/

namespace TypeStore

variable {s : TypeStore} {ms ts : List TypeExpr}

/-- A union of types that are equal to some one by one is remembered. -/
def Remembers (s : TypeStore) (ts : List TypeExpr) : Prop := ∃ e ∈ s.unions.entries, sameAll e.1.2 ts = true

theorem union_new (hkeys : areKeys ts = true) (hne : ts ≠ []) (hs : ¬s.Remembers ts) :
    ∃ s', union ts s = (.ok (flattened .union ts), s') ∧
      ∀ us, s'.Remembers us → s.Remembers us ∨ sameAll ts us = true := by
  have hfind : s.unions.find? (fun k => k.1 = .union && sameAll k.2 ts) = none := by
    refine Option.eq_none_iff_forall_ne_some.mpr fun t ht => ?_
    obtain ⟨k, hk, hkey⟩ := Recent.mem_of_find? ht
    exact hs ⟨_, hk, (Bool.and_eq_true_iff.mp hkey).2⟩
  have hbuild : (ts.isEmpty || !areKeys ts) = false := by simp [hkeys, hne]
  refine ⟨{ s with unions := s.unions.put (.union, ts) (flattened .union ts) }, ?_, fun us ⟨e, he, hsame⟩ => ?_⟩
  · rw [union, make, hbuild, hkeys]
    exact remembered_new hfind
  · rcases Recent.mem_of_put he with rfl | he
    · exact Or.inr hsame
    · exact Or.inl ⟨e, he, hsame⟩

/-- Nothing that is joined on the way to several types is remembered. -/
def Forgets (s : TypeStore) (ms : List TypeExpr) : Prop :=
  ∀ qs q, qs ≠ [] → qs ++ [q] <+: ms → ¬s.Remembers [joined qs, q]

theorem join_joined {q : TypeExpr} (h : Separate (ms ++ [q])) (hne : ms ≠ []) (hs : ¬s.Remembers [joined ms, q]) :
    ∃ s', join (joined ms) q s = (.ok (joined (ms ++ [q])), s') ∧
      ∀ ts, s'.Remembers ts → s.Remembers ts ∨ sameAll [joined ms, q] ts = true := by
  have hplain : (ms ++ [q]).all isPlain = ((joined ms).isPlain && q.isPlain) := by
    rw [List.all_append, (h.of_append hne).isPlain_joined, List.all_cons, List.all_nil, Bool.and_true]
  have hjoined : joined (ms ++ [q]) =
      flattened (if (joined ms).isPlain && q.isPlain then .alternatives else .union) (ms ++ [q]) := by
    rw [← hplain]
    rfl
  rw [join, hjoined]
  cases (joined ms).isPlain && q.isPlain with
  | true =>
    refine ⟨s, ?_, fun ts hts => Or.inl hts⟩
    rw [if_pos rfl, if_pos rfl, h.flattened_joined hne]
    rfl
  | false =>
    obtain ⟨s', hs', hmade⟩ := union_new (h.areKeys_joined hne) nofun hs
    refine ⟨s', ?_, hmade⟩
    rw [if_neg Bool.false_ne_true, if_neg Bool.false_ne_true, hs', h.flattened_joined hne]

/-- From such a store several types are joined anew, and what is remembered afterwards was made on the way. -/
theorem alternatives_new (h : Separate ms) (hs : s.Forgets ms) : ∃ s', alternatives ms s = (.ok (joined ms), s') ∧
    ∀ ts, s'.Remembers ts → s.Remembers ts ∨ ∃ qs q, qs ≠ [] ∧ qs ++ [q] <+: ms ∧ sameAll [joined qs, q] ts = true := by
  induction ms using List.reverseRecOn with
  | nil => exact absurd rfl h.nonempty
  | append_singleton ms q ih =>
    cases ms with
    | nil => exact ⟨s, congrArg (Except.ok ·, s) h.joined_single.symm, fun ts => Or.inl⟩
    | cons m ms =>
      have hne : m :: ms ≠ [] := List.cons_ne_nil m ms
      have hbefore := h.of_append hne
      obtain ⟨s', hs', hmade⟩ := ih hbefore fun qs q hqs hstart => hs qs q hqs (hstart.trans (List.prefix_append _ _))
      -- What was made on the way so far is made of fewer types than what is looked up now.
      have hnew : ¬s'.Remembers [joined (m :: ms), q] := fun hremembers => by
        rcases hmade _ hremembers with hold | ⟨qs, p, hqs, hstart, hsame⟩
        · exact hs _ _ hne List.prefix_rfl hold
        · rw [sameAll, hbefore.not_same_joined hqs hstart] at hsame
          cases hsame
      obtain ⟨s'', hs'', hmade'⟩ := join_joined h hne hnew
      refine ⟨s'', ?_, fun ts hts => ?_⟩
      · have hfold : alternatives (m :: ms ++ [q]) = alternatives (m :: ms) >>= fun t => join t q := by
          rw [alternatives, List.cons_append, alternatives, List.foldlM_append]
          simp
        rw [hfold, Action.bind_ok hs', hs'']
      · rcases hmade' ts hts with hts | hsame
        · rcases hmade ts hts with hold | ⟨qs, p, hqs, hstart, hsame⟩
          · exact Or.inl hold
          · exact Or.inr ⟨qs, p, hqs, hstart.trans (List.prefix_append _ _), hsame⟩
        · exact Or.inr ⟨_, _, hne, List.prefix_rfl, hsame⟩

end TypeStore

end Dataflow
