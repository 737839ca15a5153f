import Dataflow.Proofs.Spellings

/-! Argument types that are the same match the same patterns, as long as they hold no unions and no literal types of
    several values: then a lookup does not tell them apart. A union is the same in both of its spellings, which do not
    match alike, and of several values a pattern sees only the first. -/

namespace Dataflow

namespace TypeExpr

/-- Equal values, however many they are. -/
def isSingle : List Value → Bool
  | [] => true
  | v :: vs => vs.all (sameLiteral v)

mutual

/-- A type without unions whose literal types have at most one value each. -/
def isDefinite : TypeExpr → Bool
  | .named _ => true
  | .apply _ ts => areDefinite ts
  | .literal vs => isSingle vs
  | .union _ | .alternatives _ => false

def areDefinite : List TypeExpr → Bool
  | [] => true
  | t :: ts => isDefinite t && areDefinite ts

end

mutual

/-- The same definite type, of values that are keys. -/
inductive Alike : TypeExpr → TypeExpr → Prop
  | named (c : Class) : Alike (.named c) (.named c)
  | apply (c : Class) {ts us : List TypeExpr} (h : AllAlike ts us) : Alike (.apply c ts) (.apply c us)
  | literal {vs ws : List Value} (h : Members vs ws) (hsingle : isSingle ws = true) (hvs : vs.all Value.isKey = true)
      (hws : ws.all Value.isKey = true) : Alike (.literal vs) (.literal ws)

inductive AllAlike : List TypeExpr → List TypeExpr → Prop
  | nil : AllAlike [] []
  | cons {t u : TypeExpr} {ts us : List TypeExpr} (h : Alike t u) (hs : AllAlike ts us) : AllAlike (t :: ts) (u :: us)

end

mutual

theorem alike_of_same : ∀ {t u : TypeExpr}, t.same u = true → t.isKey = true → u.isKey = true →
    u.isDefinite = true → Alike t u
  | .named c, .named d, h, _, _, _ => by
    rw [same, decide_eq_true_eq] at h
    exact h ▸ .named c
  | .apply c ts, .apply d us, h, ht, hu, hd => by
    rw [same, Bool.and_eq_true, decide_eq_true_eq] at h
    exact h.1 ▸ .apply c (allAlike_of_sameAll h.2 ht hu hd)
  | .literal vs, .literal ws, h, ht, hu, hd => by
    rw [same] at h
    exact .literal h hd ht hu
  | .named _, .apply _ _, h, _, _, _ | .named _, .literal _, h, _, _, _ | .apply _ _, .named _, h, _, _, _
  | .apply _ _, .literal _, h, _, _, _ | .literal _, .named _, h, _, _, _ | .literal _, .apply _ _, h, _, _, _
  | .union _, .named _, h, _, _, _ | .union _, .apply _ _, h, _, _, _ | .union _, .literal _, h, _, _, _
  | .alternatives _, .named _, h, _, _, _ | .alternatives _, .apply _ _, h, _, _, _
  | .alternatives _, .literal _, h, _, _, _ => by simp [same] at h
  | _, .union _, _, _, _, hd | _, .alternatives _, _, _, _, hd => by cases hd

theorem allAlike_of_sameAll : ∀ {ts us : List TypeExpr}, sameAll ts us = true → areKeys ts = true →
    areKeys us = true → areDefinite us = true → AllAlike ts us
  | [], [], _, _, _, _ => .nil
  | t :: ts, u :: us, h, ht, hu, hd => by
    rw [sameAll, Bool.and_eq_true] at h
    rw [areKeys, Bool.and_eq_true] at ht hu
    rw [areDefinite, Bool.and_eq_true] at hd
    exact .cons (alike_of_same h.1 ht.1 hu.1 hd.1) (allAlike_of_sameAll h.2 ht.2 hu.2 hd.2)
  | [], _ :: _, h, _, _, _ | _ :: _, [], h, _, _, _ => by simp [sameAll] at h

end

/-! ### Matching -/

theorem AllAlike.length_eq : ∀ {ts us : List TypeExpr}, AllAlike ts us → ts.length = us.length
  | _, _, .nil => rfl
  | _, _, .cons _ hs => congrArg (· + 1) hs.length_eq

theorem AllAlike.getElem? : ∀ {ts us : List TypeExpr}, AllAlike ts us → ∀ i : Nat, (ts[i]? = none ∧ us[i]? = none) ∨
    ∃ t u, ts[i]? = some t ∧ us[i]? = some u ∧ Alike t u
  | _, _, .nil, _ => Or.inl ⟨rfl, rfl⟩
  | _, _, .cons h _, 0 => Or.inr ⟨_, _, rfl, rfl, h⟩
  | _, _, .cons _ hs, i + 1 => hs.getElem? i

theorem kind_eq_of_members {v w : Value} {vs ws : List Value} (h : Members (v :: vs) (w :: ws))
    (hsingle : isSingle (w :: ws) = true) : kind v = kind w := by
  obtain ⟨x, hx, hvx⟩ := (members_iff.mp h).1 v List.mem_cons_self
  have hv := (sameLiteral_iff.mp hvx).2
  rcases List.mem_cons.mp hx with rfl | hx
  · exact hv
  · have hwx := List.all_eq_true.mp hsingle x hx
    exact hv.trans (sameLiteral_iff.mp hwx).2.symm

/-- Equal values have a first one of the same class. -/
theorem looksLike_of_single {vs ws : List Value} (h : Members vs ws) (hsingle : isSingle ws = true) :
    (literal vs).looksLike (literal ws) = true := by
  rw [looksLike, Bool.and_eq_true, decide_eq_true_eq]
  refine ⟨h, ?_⟩
  cases vs with
  | nil =>
    cases ws with
    | nil => rfl
    | cons w ws => exact absurd h not_members_nil
  | cons v vs =>
    cases ws with
    | nil => exact absurd h.symm not_members_nil
    | cons w ws => exact congrArg some (ofValue?_eq (kind_eq_of_members h hsingle))

mutual

/-- Types that are alike look alike, and a pattern does not tell them apart. -/
theorem Alike.looksLike : ∀ {t u : TypeExpr}, Alike t u → t.looksLike u = true
  | _, _, .named c => (looksLike_of_ordinary (ordinary_named c)).mpr ⟨rfl, rfl⟩
  | _, _, .apply c h => (looksLike_of_ordinary (ordinary_apply c _)).mpr ⟨rfl, h.allLookLike⟩
  | _, _, .literal h hsingle _ _ => looksLike_of_single h hsingle

theorem AllAlike.allLookLike : ∀ {ts us : List TypeExpr}, AllAlike ts us → allLookLike ts us = true
  | _, _, .nil => rfl
  | _, _, .cons h hs => by
    rw [TypeExpr.allLookLike, h.looksLike, hs.allLookLike, Bool.or_true, Bool.and_true]

end

theorem AllAlike.lookAlike : ∀ {ts us : List TypeExpr}, AllAlike ts us → LookAlike ts us
  | _, _, .nil => .nil
  | _, _, .cons h hs => .cons h.looksLike hs.lookAlike

mutual

theorem equal_alike : ∀ {t u : TypeExpr}, Alike t u → ∀ s, t.equal s = u.equal s
  | _, _, .named c, s => rfl
  | _, _, .apply c h, s => by
    cases s with
    | apply d ss => rw [equal, equal, equalAll_alike h ss]
    | _ => simp [equal, BEq.beq, same]
  | _, _, .literal h hsingle hvs hws, s => by
    cases s with
    | literal us => rw [equal, equal, equalLiterals_eq h]
    | _ => simp [equal, BEq.beq, same]

theorem equalAll_alike : ∀ {ts us : List TypeExpr}, AllAlike ts us → ∀ ss, equalAll ts ss = equalAll us ss
  | _, _, .nil, _ => rfl
  | _, _, .cons h hs, ss => by
    cases ss with
    | nil => rfl
    | cons s ss => rw [equalAll, equalAll, equal_alike h s, equalAll_alike hs ss]

end

end TypeExpr

open TypeExpr

/-- A condition that does not tell types apart that are alike. -/
def Predicate.Even (p : Predicate) : Prop := ∀ ts us, AllAlike ts us → p.holds ts = p.holds us

namespace Predicate

theorem even_argumentIs (k : Int) (type : TypeExpr) : (argumentIs k type).Even := by
  intro ts us h
  rw [holds, holds, h.length_eq]
  cases position? us.length k with
  | none => rfl
  | some i =>
    rcases h.getElem? i with ⟨ht, hu⟩ | ⟨t, u, ht, hu, htu⟩
    · rw [Option.bind_some, Option.bind_some, ht, hu]
    · rw [Option.bind_some, Option.bind_some, ht, hu]
      exact equal_alike htu type

end Predicate

namespace Table

variable {table : Table} {ts us : List TypeExpr}

/-- A table of implementations whose conditions do not tell types apart that are alike. -/
def Even (table : Table) : Prop := ∀ e ∈ table, ∀ p ∈ e.predicate, p.Even

theorem Even.undecided (htable : table.Even) (h : AllAlike ts us) : table.Undecided ts us :=
  fun e he p hp => htable e he p hp ts us h

/-- The implementation for some types is the one for all that are alike. Without one the failure names the types. -/
theorem lookup_alike (htable : table.Even) (h : AllAlike ts us) {f : Implementation} :
    table.lookup ts = .ok f ↔ table.lookup us = .ok f :=
  lookup_lookAlike (htable.undecided h) h.lookAlike

end Table

end Dataflow
