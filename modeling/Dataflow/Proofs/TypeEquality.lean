import Dataflow.Proofs.Sameness
import Mathlib.Data.List.Forall2

/-! Equality of types. Unions in either spelling are sets, and so are literal types, so that equality is the same members
    rather than the same text. It is reflexive and symmetric, and what is equal to a key is one. -/

namespace Dataflow

namespace Value

mutual

theorem isKey_of_sameKey : ∀ {a b : Value}, a.sameKey b = true → a.isKey = b.isKey
  | .tuple as, .tuple bs, h => by
    rw [sameKey] at h
    exact areKeys_of_sameKeys h
  | .list as, b, h => by
    cases b with
    | list bs => rfl
    | _ => simp [sameKey, same, sameObject, number?] at h
  | .tuple as, b, h => by
    cases b with
    | tuple bs =>
      rw [sameKey] at h
      exact areKeys_of_sameKeys h
    | _ => simp [sameKey, same, sameObject, number?] at h
  | .nothing, b, h | .flag _, b, h | .int _, b, h | .real _, b, h | .text _, b, h | .bytes _, b, h
  | .scalar _ _, b, h | .tensor _, b, h => by
    cases b with
    | list bs => simp [sameKey, same, sameObject, number?] at h
    | tuple bs => simp [sameKey, same, sameObject, number?] at h
    | _ => rfl

theorem areKeys_of_sameKeys : ∀ {as bs : List Value}, sameKeys as bs = true → areKeys as = areKeys bs
  | [], [], _ => rfl
  | a :: as, b :: bs, h => by
    rw [sameKeys, Bool.and_eq_true] at h
    rw [areKeys, areKeys, isKey_of_sameKey h.1, areKeys_of_sameKeys h.2]
  | [], _ :: _, h | _ :: _, [], h => by cases h

end

end Value

namespace TypeExpr

theorem all_isKey_of_members {vs ws : List Value} (h : Members vs ws) :
    vs.all Value.isKey = ws.all Value.isKey := by
  have hkeys : ∀ {vs ws : List Value}, Members vs ws → ws.all Value.isKey = true → vs.all Value.isKey = true := by
    intro vs ws h hws
    refine List.all_eq_true.mpr fun v hv => ?_
    obtain ⟨w, hw, hsame⟩ := (members_iff.mp h).1 v hv
    rw [sameLiteral, Bool.and_eq_true] at hsame
    rw [Value.isKey_of_sameKey hsame.1]
    exact List.all_eq_true.mp hws w hw
  exact Bool.eq_iff_iff.mpr ⟨hkeys h.symm, hkeys h⟩

theorem not_members_nil {v : Value} {vs : List Value} : ¬Members [] (v :: vs) := by
  simp [Members, sameMembers]

/-- The members of a union in either spelling. -/
def set? : TypeExpr → Option (List TypeExpr)
  | .union ms | .alternatives ms => some ms
  | _ => none

/-- Two sets of types with the same members. -/
def SameSet (ts us : List TypeExpr) : Prop :=
  (∀ t ∈ ts, ∃ u ∈ us, same t u = true) ∧ ∀ u ∈ us, ∃ t ∈ ts, same t u = true

theorem sameSet_iff {ts us : List TypeExpr} : (within ts us && us.all (anySame ts)) = true ↔ SameSet ts us := by
  have hany : ∀ (ts : List TypeExpr) (u : TypeExpr), anySame ts u = true ↔ ∃ t ∈ ts, same t u = true := by
    intro ts u
    induction ts with
    | nil => simp [anySame]
    | cons t ts ih => rw [anySame, Bool.or_eq_true, ih, List.exists_mem_cons_iff]
  have hwithin : ∀ ts us : List TypeExpr, within ts us = true ↔ ∀ t ∈ ts, ∃ u ∈ us, same t u = true := by
    intro ts us
    induction ts with
    | nil => simp [within]
    | cons t ts ih => rw [within, Bool.and_eq_true, ih, List.forall_mem_cons, List.any_eq_true]
  simp only [SameSet, Bool.and_eq_true, hwithin, List.all_eq_true, hany]

variable {t u v : TypeExpr} {ts us : List TypeExpr}

theorem same_iff_of_set (ht : t.set? = some ts) : t.same u = true ↔ ∃ us, u.set? = some us ∧ SameSet ts us := by
  cases t <;> cases ht <;> cases u <;> simp only [same, set?, sameSet_iff, Option.some.injEq, exists_eq_left',
    reduceCtorEq, Bool.false_eq_true, false_and, exists_false]

theorem sameAll_iff : sameAll ts us = true ↔ List.Forall₂ (fun t u => same t u = true) ts us := by
  induction ts generalizing us with
  | nil => cases us <;> simp [sameAll]
  | cons t ts ih => cases us <;> simp [sameAll, ih]

/-- Induction on types, with what holds of the arguments or members. -/
theorem induction_on_parts {P : TypeExpr → Prop} (named : ∀ c, P (.named c)) (literal : ∀ vs, P (.literal vs))
    (apply : ∀ c ts, (∀ t ∈ ts, P t) → P (.apply c ts)) (union : ∀ ts, (∀ t ∈ ts, P t) → P (.union ts))
    (alternatives : ∀ ts, (∀ t ∈ ts, P t) → P (.alternatives ts)) (t : TypeExpr) : P t :=
  TypeExpr.rec (motive_1 := P) (motive_2 := fun ts => ∀ t ∈ ts, P t) named apply literal union alternatives nofun
    (fun _ _ ht hts => List.forall_mem_cons.mpr ⟨ht, hts⟩) t

/-- Induction on equality: what holds of the equal parts of two types holds of the types. -/
theorem same_induction {R : TypeExpr → TypeExpr → Prop} (named : ∀ c, R (.named c) (.named c))
    (literal : ∀ vs ws, Members vs ws → R (.literal vs) (.literal ws))
    (apply : ∀ c ts us, List.Forall₂ (fun t u => same t u = true ∧ R t u) ts us → R (.apply c ts) (.apply c us))
    (set : ∀ t u ts us, t.set? = some ts → u.set? = some us → (∀ x ∈ ts, ∃ y ∈ us, same x y = true ∧ R x y) →
      (∀ y ∈ us, ∃ x ∈ ts, same x y = true ∧ R x y) → R t u) (h : t.same u = true) : R t u := by
  have hset : ∀ {t : TypeExpr} {ts : List TypeExpr}, t.set? = some ts →
      (∀ x ∈ ts, ∀ u : TypeExpr, x.same u = true → R x u) → ∀ u : TypeExpr, t.same u = true → R t u := by
    intro t ts ht ih u h
    obtain ⟨us, hu, hts, hus⟩ := (same_iff_of_set ht).mp h
    refine set t u ts us ht hu (fun x hx => ?_) fun y hy => ?_
    · obtain ⟨y, hy, hxy⟩ := hts x hx
      exact ⟨y, hy, hxy, ih x hx y hxy⟩
    · obtain ⟨x, hx, hxy⟩ := hus y hy
      exact ⟨x, hx, hxy, ih x hx y hxy⟩
  induction t using induction_on_parts generalizing u with
  | named c =>
    cases u with
    | named d =>
      rw [same, decide_eq_true_eq] at h
      exact h ▸ named c
    | _ => simp [same] at h
  | literal vs =>
    cases u with
    | literal ws =>
      rw [same] at h
      exact literal vs ws h
    | _ => simp [same] at h
  | apply c ts ih =>
    cases u with
    | apply d us =>
      rw [same, Bool.and_eq_true, decide_eq_true_eq] at h
      have hparts : List.Forall₂ (fun t u => t ∈ ts ∧ same t u = true) ts us :=
        (List.forall₂_and_left ts us).mpr ⟨fun _ ht => ht, sameAll_iff.mp h.2⟩
      exact h.1 ▸ apply c ts us (hparts.imp fun x y hxy => ⟨hxy.2, ih x hxy.1 hxy.2⟩)
    | _ => simp [same] at h
  | union ts ih => exact hset rfl (fun x hx u hu => ih x hx hu) u h
  | alternatives ts ih => exact hset rfl (fun x hx u hu => ih x hx hu) u h

theorem same_symm (h : t.same u = true) : u.same t = true := by
  refine same_induction (R := fun t u => u.same t = true) ?named ?literal ?apply ?set h
  case named =>
    intro c
    simp [same]
  case literal =>
    intro vs ws h
    rw [same]
    exact Members.symm h
  case apply =>
    intro c ts us h
    rw [same, Bool.and_eq_true]
    exact ⟨decide_eq_true rfl, sameAll_iff.mpr (h.imp fun _ _ hxy => hxy.2).flip⟩
  case set =>
    intro t u ts us ht hu hts hus
    refine (same_iff_of_set hu).mpr ⟨ts, ht, fun y hy => ?_, fun x hx => ?_⟩
    · obtain ⟨x, hx, -, hyx⟩ := hus y hy
      exact ⟨x, hx, hyx⟩
    · obtain ⟨y, hy, -, hyx⟩ := hts x hx
      exact ⟨y, hy, hyx⟩

theorem same_self (t : TypeExpr) : t.same t = true := by
  have hset : ∀ {t : TypeExpr} {ts : List TypeExpr}, t.set? = some ts → (∀ x ∈ ts, x.same x = true) → t.same t = true :=
    fun ht ih => (same_iff_of_set ht).mpr ⟨_, ht, fun x hx => ⟨x, hx, ih x hx⟩, fun x hx => ⟨x, hx, ih x hx⟩⟩
  induction t using induction_on_parts with
  | named c => simp [same]
  | literal vs =>
    rw [same]
    exact Members.self vs
  | apply c ts ih =>
    rw [same, Bool.and_eq_true]
    exact ⟨decide_eq_true rfl, sameAll_iff.mpr (List.forall₂_same.mpr ih)⟩
  | union ts ih => exact hset rfl ih
  | alternatives ts ih => exact hset rfl ih

theorem areKeys_iff : areKeys ts = true ↔ ∀ t ∈ ts, t.isKey = true := by
  induction ts with
  | nil => simp [areKeys]
  | cons t ts ih => rw [areKeys, Bool.and_eq_true, ih, List.forall_mem_cons]

theorem isKey_of_set (h : t.set? = some ts) : t.isKey = areKeys ts := by
  cases t <;> cases h <;> rfl

/-- What is equal to a key is a key. -/
theorem isKey_of_same (h : t.same u = true) : t.isKey = u.isKey := by
  refine same_induction (R := fun t u => t.isKey = u.isKey) ?named ?literal ?apply ?set h
  case named =>
    intro c
    rfl
  case literal =>
    intro vs ws h
    exact all_isKey_of_members h
  case apply =>
    intro c ts us h
    rw [isKey, isKey]
    induction h with
    | nil => rfl
    | cons hxy _ hxys => rw [areKeys, areKeys, hxy.2, hxys]
  case set =>
    intro t u ts us ht hu hts hus
    rw [isKey_of_set ht, isKey_of_set hu, Bool.eq_iff_iff, areKeys_iff, areKeys_iff]
    constructor
    · intro hkeys y hy
      obtain ⟨x, hx, -, hxy⟩ := hus y hy
      exact hxy ▸ hkeys x hx
    · intro hkeys x hx
      obtain ⟨y, hy, -, hxy⟩ := hts x hx
      exact hxy ▸ hkeys y hy

end TypeExpr

end Dataflow
