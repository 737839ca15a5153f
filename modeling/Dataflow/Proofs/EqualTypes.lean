import Dataflow.Proofs.FreshCache
import Dataflow.Proofs.ToldApart
import Mathlib

/-! Equal types in the matcher and in the cache. Patterns tell equal types apart just where these do not look alike, and
    where they do, the cache may stand for a lookup. -/

namespace Dataflow

open TypeExpr

namespace Dispatcher

/-- The selection of a dispatch, from a cache of fresh lookups, is a lookup. -/
theorem Fresh.selectMade_eq {d t : Dispatcher} {ts us : List TypeExpr} (hd : d.Fresh) (hkeys : areKeys ts = true)
    (hmade : onTypes (TypeStore.types ts) d = (.ok us, t))
    (hcache : ∀ e ∈ d.cache, sameAll e.1 us = true → LookAlike e.1 us ∧ d.table.Undecided e.1 us) :
    (selectMade ts d).1 = (lookup ts d).1 := by
  have ht : t = { d with types := t.types } := by
    have hstate : (onTypes (TypeStore.types ts) d).2 = t := congrArg Prod.snd hmade
    rw [← hstate]
    rfl
  have hfresh : t.Fresh := by
    rw [ht]
    exact hd
  have hcacheMade : ∀ e ∈ t.cache, sameAll e.1 us = true → LookAlike e.1 us ∧ t.table.Undecided e.1 us := by
    rw [ht]
    exact hcache
  have hselect : selectMade ts d = (do let us ← onTypes (TypeStore.types ts); select us) d := by
    unfold selectMade
    rw [hkeys]
    rfl
  rw [hselect, lookup, Action.bind_ok hmade, Action.bind_ok hmade, hfresh.select_eq hcacheMade]
  rfl

/-- Every pattern takes equal types alike just where they look alike: where they are literal types whose first values
    are of one class, or unions in one spelling, or alternatives in one order. After any registrations and dispatches,
    a dispatch selects what a fresh lookup does if the types in the cache that are equal to its own look like them and
    the conditions of the table answer the same for them. -/
theorem equal_types_selected_alike (s : Session) (base : Bool) (es : List Event) :
    (∀ a b : TypeExpr, a.isKey = true → a.same b = true →
      ((∀ p, matchPattern p a = matchPattern p b) ↔ a.looksLike b = true)) ∧
    let d := (initial s base).of es
    ∀ (ts us : List TypeExpr) (t : Dispatcher), areKeys ts = true →
      onTypes (TypeStore.types ts) d = (.ok us, t) →
      (∀ e ∈ d.cache, sameAll e.1 us = true → LookAlike e.1 us ∧ d.table.Undecided e.1 us) →
      (selectMade ts d).1 = (lookup ts d).1 := by
  refine ⟨fun a b ha hsame => ?_, fun ts us t hkeys hmade hcache => ?_⟩
  · have hb : b.isKey = true := isKey_of_same hsame ▸ ha
    exact (looksLike_iff ha hb).symm
  · exact ((fresh_initial s base).of es).selectMade_eq hkeys hmade hcache

/-- What comes after a union in a type is not looked at, so that it may be written in any order. And a literal type whose
    first value is of the same class takes what is cached for the equal one. -/
theorem equal_types_selected_alike_reordered :
    let a : TypeExpr := .apply .tupleOf [.union [.named .int, .named .text], .literal [.int 1, .text "a"]]
    let b : TypeExpr := .apply .tupleOf [.union [.named .text, .named .int], .literal [.text "a", .int 1]]
    let f : Declaration := ⟨"f", [some (.named .text)], none, false, none, 0⟩
    let first : TypeExpr := .literal [.text "a", .text "b"]
    let second : TypeExpr := .literal [.text "b", .text "a"]
    let d := (initial (Session.initial [] false false) false).of [.register f, .dispatch [.standIn first]]
    (a.isKey = true ∧ a.same b = true ∧ ∀ p, matchPattern p a = matchPattern p b) ∧
      d.cache = [([first], .named "f")] ∧ sameAll [first] [second] = true ∧
      (selectMade [second] d).1 = (lookup [second] d).1 ∧ (lookup [second] d).1 = .ok (.named "f") := by
  intro a b f first second d
  have hkey : a.isKey = true := rfl
  have hsame : a.same b = true := by cbv
  have hlooks : a.looksLike b = true := by cbv
  have hcache : d.cache = [([first], .named "f")] := by
    dsimp only [d, f, first]
    cbv
  have hpredicate : d.table.map Entry.predicate = [none] := by
    dsimp only [d, f, first]
    cbv
  have hmade : (onTypes (TypeStore.types [second]) d).1 = .ok [second] := by
    dsimp only [d, f, first, second]
    cbv
  have hfound : (lookup [second] d).1 = .ok (.named "f") := by
    dsimp only [d, f, first, second]
    cbv
  have halike : ∀ e ∈ d.cache, sameAll e.1 [second] = true → LookAlike e.1 [second] ∧ d.table.Undecided e.1 [second] := by
    intro e he _
    rw [hcache, List.mem_singleton] at he
    rw [he]
    refine ⟨.cons (by cbv) .nil, fun e he p hp => ?_⟩
    have hnone := List.mem_map_of_mem (f := Entry.predicate) he
    rw [hpredicate, List.mem_singleton] at hnone
    rw [hnone] at hp
    cases hp
  obtain ⟨hmatches, hselects⟩ :=
    equal_types_selected_alike (Session.initial [] false false) false [.register f, .dispatch [.standIn first]]
  exact ⟨⟨hkey, hsame, (hmatches a b hkey hsame).mpr hlooks⟩, hcache, by cbv,
    hselects [second] [second] _ rfl (Prod.ext hmade rfl) halike, hfound⟩

/-- Equal literal types that begin with values of different classes are told apart by these classes, and what is cached
    for one of them runs for the other. -/
theorem equal_literals_told_apart :
    let a : TypeExpr := .literal [.int 1, .text "a"]
    let b : TypeExpr := .literal [.text "a", .int 1]
    let f : Declaration := ⟨"f", [some (.named .int)], none, false, none, 0⟩
    let g : Declaration := ⟨"g", [some (.named .text)], none, false, none, 0⟩
    let d := (initial (Session.initial [] false false) false).of [.register f, .register g, .dispatch [.standIn a]]
    (a.isKey = true ∧ b.isKey = true ∧ a.same b = true) ∧
      matchPattern (.named .int) a = .ok (some (.named .int)) ∧ matchPattern (.named .int) b = .ok none ∧
      (lookupFor [.standIn b] d).1 = .ok (.named "g") ∧ (dispatch [.standIn b] d).1 = .ok (.name "f") := by
  exact ⟨⟨rfl, rfl, by cbv⟩, by cbv, by cbv, by cbv, by cbv⟩

-- The two spellings of a union are equal, and only one of them is a type that there are objects of.
example :
    let a : TypeExpr := .union [.named .int, .named .text]
    let b : TypeExpr := .alternatives [.named .int, .named .text]
    a.same b = true ∧ matchPattern (.named .object) a = .error .wrongType ∧
      matchPattern (.named .object) b = .ok (some (.named .object)) :=
  ⟨by cbv, rfl, rfl⟩

end Dispatcher

end Dataflow
