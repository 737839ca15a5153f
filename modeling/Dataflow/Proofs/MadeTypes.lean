import Dataflow.Dispatch.Dispatcher
import Dataflow.Proofs.Matching

/-! Types that are made from expressions. What the store has of a class or of literal values is what it would make of the
    same parameters, and so a type without unions is made without them, whatever was made before. -/

namespace Dataflow

namespace TypeExpr

/-! ### Definite types -/

/-- A definite type of values that are keys. -/
def Clear (t : TypeExpr) : Prop := t.isDefinite = true ∧ t.isKey = true

def AllClear (ts : List TypeExpr) : Prop := areDefinite ts = true ∧ areKeys ts = true

variable {t u : TypeExpr} {ts us : List TypeExpr}

theorem allClear_cons : AllClear (t :: ts) ↔ t.Clear ∧ AllClear ts := by
  simp only [AllClear, Clear, areDefinite, areKeys, Bool.and_eq_true]
  exact and_and_and_comm

theorem clear_apply {c : Class} : (apply c ts).Clear ↔ AllClear ts := Iff.rfl

theorem sameLiteral_of_single {ws : List Value} (h : isSingle ws = true) {a b v w : Value} (hv : v ∈ ws) (hw : w ∈ ws)
    (ha : sameLiteral a v = true) (hb : sameLiteral b w = true) : sameLiteral a b = true := by
  obtain ⟨x, ws, rfl⟩ := List.exists_cons_of_ne_nil (List.ne_nil_of_mem hv)
  have hhead : ∀ {c z : Value}, z ∈ x :: ws → sameLiteral c z = true → sameLiteral c x = true := by
    intro c z hz hc
    rcases List.mem_cons.mp hz with rfl | hz
    · exact hc
    · exact sameLiteral_trans hc (sameLiteral_symm (List.all_eq_true.mp h z hz))
  exact sameLiteral_trans (hhead hv ha) (sameLiteral_symm (hhead hw hb))

theorem isSingle_of_members {vs ws : List Value} (h : Members vs ws) (hws : isSingle ws = true) :
    isSingle vs = true := by
  cases vs with
  | nil => rfl
  | cons v vs =>
    refine List.all_eq_true.mpr fun x hx => ?_
    obtain ⟨w, hw, hvw⟩ := (members_iff.mp h).1 v List.mem_cons_self
    obtain ⟨y, hy, hxy⟩ := (members_iff.mp h).1 x (List.mem_cons_of_mem _ hx)
    exact sameLiteral_of_single hws hw hy hvw hxy

mutual

theorem Alike.clear : ∀ {t u : TypeExpr}, Alike t u → t.Clear
  | _, _, .named _ => ⟨rfl, rfl⟩
  | _, _, .apply _ h => clear_apply.mpr h.clear
  | _, _, .literal h hsingle hvs _ => ⟨isSingle_of_members h hsingle, hvs⟩

theorem AllAlike.clear : ∀ {ts us : List TypeExpr}, AllAlike ts us → AllClear ts
  | _, _, .nil => ⟨rfl, rfl⟩
  | _, _, .cons h hs => allClear_cons.mpr ⟨h.clear, hs.clear⟩

end

/-! ### Literal types -/

theorem distinct_of_single {vs : List Value} (h : isSingle vs = true) : distinct sameLiteral vs = vs.take 1 := by
  cases vs with
  | nil => rfl
  | cons v vs =>
    have hrest : ∀ ws : List Value, (∀ w ∈ ws, sameLiteral v w = true) →
        ws.foldl (fun seen x => if seen.any (sameLiteral · x) then seen else seen ++ [x]) [v] = [v] := by
      intro ws hws
      induction ws with
      | nil => rfl
      | cons w ws ih =>
        rw [List.foldl_cons, List.any_cons, hws w List.mem_cons_self, Bool.true_or, if_pos rfl]
        exact ih fun x hx => hws x (List.mem_cons_of_mem _ hx)
    exact hrest vs fun w hw => List.all_eq_true.mp h w hw

theorem clear_literalOf {vs : List Value} (h : isSingle vs = true) (hkeys : vs.all Value.isKey = true) :
    (literalOf vs).Clear := by
  rw [literalOf, if_pos hkeys, distinct_of_single h]
  refine ⟨?_, List.all_eq_true.mpr fun v hv => List.all_eq_true.mp hkeys v (List.mem_of_mem_take hv)⟩
  cases vs <;> rfl

theorem isSingle_of_sameLiterals {vs ws : List Value} (h : TypeStore.sameLiterals vs ws = true)
    (hvs : isSingle vs = true) : isSingle ws = true := by
  cases vs with
  | nil =>
    cases ws with
    | nil => rfl
    | cons w ws => cases h
  | cons v vs =>
    cases ws with
    | nil => cases h
    | cons w ws =>
      rw [TypeStore.sameLiterals, Bool.and_eq_true] at h
      obtain ⟨hvw, h⟩ := h
      have hall : ∀ vs ws : List Value, TypeStore.sameLiterals vs ws = true →
          (∀ x ∈ vs, sameLiteral v x = true) → ∀ y ∈ ws, sameLiteral w y = true := by
        intro vs
        induction vs with
        | nil =>
          intro ws h _ y hy
          cases ws with
          | nil => cases hy
          | cons => cases h
        | cons x vs ih =>
          intro ws h hx y hy
          cases ws with
          | nil => cases h
          | cons z ws =>
            rw [TypeStore.sameLiterals, Bool.and_eq_true] at h
            rcases List.mem_cons.mp hy with rfl | hy
            · exact sameLiteral_trans (sameLiteral_symm hvw) (sameLiteral_trans (hx x List.mem_cons_self) h.1)
            · exact ih ws h.2 (fun x' hx' => hx x' (List.mem_cons_of_mem _ hx')) y hy
      exact List.all_eq_true.mpr (hall vs ws h fun x hx => List.all_eq_true.mp hvs x hx)

end TypeExpr

open TypeExpr

/-! ### What was made lately -/

namespace Recent

variable {κ ν : Type} {r : Recent κ ν} {isKey : κ → Bool} {e : κ × ν}

theorem mem_of_find? {v : ν} (h : r.find? isKey = some v) : ∃ k, (k, v) ∈ r.entries ∧ isKey k = true := by
  obtain ⟨e, he, rfl⟩ := Option.map_eq_some_iff.mp h
  have hkey := List.find?_some he
  exact ⟨e.1, List.mem_of_find?_eq_some he, hkey⟩

theorem mem_of_touch (h : e ∈ (r.touch isKey).entries) : e ∈ r.entries := by
  rw [touch, List.partition_eq_filter_filter] at h
  rcases List.mem_append.mp h with h | h <;> exact (List.mem_filter.mp h).1

theorem mem_of_put {k : κ} {v : ν} (h : e ∈ (r.put k v).entries) : e = (k, v) ∨ e ∈ r.entries :=
  List.mem_cons.mp (List.mem_of_mem_take h)

end Recent

namespace TypeStore

/-- The store has of classes and of literal values what it would make of them. -/
structure Coherent (s : TypeStore) : Prop where
  generic : ∀ (m : Maker) (e : Making × TypeExpr), e ∈ (s.recent m).entries → ∀ c, e.1.1 = .generic c →
    e.2 = .apply c e.1.2 ∧ areKeys e.1.2 = true
  literal : ∀ e ∈ s.literals.entries, e.2 = .literalOf e.1 ∧ e.1.all Value.isKey = true

theorem coherent_empty : Coherent .empty where
  generic := fun m e he => by
    unfold recent at he
    split at he <;> cases he
  literal := fun e he => by cases he

theorem mem_recent_withRecent {m n : Maker} {r : Recent Making TypeExpr} {s : TypeStore} {e : Making × TypeExpr}
    (h : e ∈ ((s.withRecent n r).recent m).entries) : e ∈ r.entries ∨ e ∈ (s.recent m).entries := by
  unfold recent withRecent at *
  split at h <;> split at h <;> simp_all

theorem literals_withRecent (m : Maker) (r : Recent Making TypeExpr) (s : TypeStore) :
    (s.withRecent m r).literals = s.literals := by
  unfold withRecent
  split <;> rfl

variable {α β : Type} {P : α → Prop} {Q : β → Prop} {s : TypeStore}

theorem Coherent.withRecent (hs : s.Coherent) (m : Maker) {r : Recent Making TypeExpr}
    (hr : ∀ e ∈ r.entries, ∀ c, e.1.1 = .generic c → e.2 = .apply c e.1.2 ∧ areKeys e.1.2 = true) :
    (s.withRecent m r).Coherent where
  generic := fun n e he => (mem_recent_withRecent he).elim (hr e) (hs.generic n e)
  literal := by
    rw [literals_withRecent]
    exact hs.literal

/-! ### Making types -/

/-- An action that keeps the store coherent and, from a coherent store, gives only what has a property. -/
def Gives (P : α → Prop) (a : Action TypeStore α) : Prop :=
  ∀ s : TypeStore, s.Coherent → (a s).2.Coherent ∧ ∀ x, (a s).1 = .ok x → P x

namespace Gives

theorem pure {x : α} (hx : P x) : Gives P (pure x : Action TypeStore α) := fun _ hs =>
  ⟨hs, fun _ hy => Except.ok.inj hy ▸ hx⟩

theorem lift {o : Outcome α} (ho : ∀ x, o = .ok x → P x) : Gives P (liftM o : Action TypeStore α) := fun _ hs =>
  ⟨hs, ho⟩

theorem throw (e : Failure) : Gives P (throw e : Action TypeStore α) := fun _ hs => ⟨hs, nofun⟩

theorem bind {a : Action TypeStore α} {f : α → Action TypeStore β} (ha : Gives P a) (hf : ∀ x, P x → Gives Q (f x)) :
    Gives Q (a >>= f) := by
  intro s hs
  obtain ⟨ht, hx⟩ := ha s hs
  rw [Action.bind_apply]
  generalize a s = p at ht hx ⊢
  rcases p with ⟨e | x, t⟩
  · exact ⟨ht, nofun⟩
  · exact hf x (hx x rfl) t ht

theorem imp {a : Action TypeStore α} {P' : α → Prop} (ha : Gives P a) (h : ∀ x, P x → P' x) : Gives P' a :=
  fun s hs => ⟨(ha s hs).1, fun x hx => h x ((ha s hs).2 x hx)⟩

end Gives

section Remembered

variable {κ : Type} {part : TypeStore → Recent κ TypeExpr} {set : Recent κ TypeExpr → TypeStore → TypeStore}
  {isKey : κ → Bool} {k : κ} {build : Outcome TypeExpr}

theorem remembered_found {t : TypeExpr} (h : (part s).find? isKey = some t) :
    remembered part set isKey k build s = (.ok t, set ((part s).touch isKey) s) := by
  rw [remembered, Action.bind_ok (Action.get_apply s)]
  simp only [h]
  rfl

theorem remembered_new (h : (part s).find? isKey = none) :
    remembered part set isKey k build s = match build with
      | .ok t => (.ok t, set ((part s).put k t) s)
      | .error e => (.error e, s) := by
  rw [remembered, Action.bind_ok (Action.get_apply s)]
  simp only [h]
  cases build <;> rfl

theorem gives_remembered {E : κ × TypeExpr → Prop} {P : TypeExpr → Prop}
    (hpart : ∀ s : TypeStore, s.Coherent → ∀ e ∈ (part s).entries, E e)
    (hset : ∀ s : TypeStore, s.Coherent → ∀ r, (∀ e ∈ r.entries, E e) → (set r s).Coherent)
    (hbuild : ∀ t, build = .ok t → E (k, t)) (hfound : ∀ l t, E (l, t) → isKey l = true → P t)
    (hmade : ∀ t, build = .ok t → P t) : Gives P (remembered part set isKey k build) := by
  intro s hs
  cases hfind : (part s).find? isKey with
  | some t =>
    rw [remembered_found hfind]
    obtain ⟨l, hl, hkey⟩ := Recent.mem_of_find? hfind
    refine ⟨hset s hs _ fun e he => hpart s hs e (Recent.mem_of_touch he), fun u hu => ?_⟩
    obtain rfl : t = u := Except.ok.inj hu
    exact hfound l t (hpart s hs _ hl) hkey
  | none =>
    rw [remembered_new hfind]
    cases build with
    | error e => exact ⟨hs, nofun⟩
    | ok t =>
      refine ⟨hset s hs _ fun e he => ?_, fun u hu => ?_⟩
      · rcases Recent.mem_of_put he with rfl | he
        · exact hbuild t rfl
        · exact hpart s hs e he
      · obtain rfl : t = u := Except.ok.inj hu
        exact hmade t rfl

end Remembered

theorem gives_make {m : Maker} {params : List TypeExpr} {build : Outcome TypeExpr} {P : TypeExpr → Prop}
    (hbuild : ∀ t, build = .ok t → P t ∧ ∀ c, m = .generic c → t = .apply c params)
    (hfound : ∀ ps t, (∀ c, m = .generic c → t = .apply c ps ∧ areKeys ps = true) → sameAll ps params = true → P t) :
    Gives P (make m params build) := by
  have hbuilt : ∀ t, build = .ok t → P t := fun t ht => (hbuild t ht).1
  cases hkeys : areKeys params with
  | true =>
    rw [make, hkeys]
    refine gives_remembered (fun s hs => hs.generic m) (fun s hs r => hs.withRecent m) (fun t ht c hc => ?_)
      (fun l t hl hl' => ?_) hbuilt
    · exact ⟨(hbuild t ht).2 c hc, hkeys⟩
    · rw [Bool.and_eq_true, decide_eq_true_eq] at hl'
      exact hfound l.2 t (fun c hc => hl c (hl'.1.trans hc)) hl'.2
  | false =>
    rw [make, hkeys]
    exact Gives.lift hbuilt

theorem gives_generic (c : Class) (params : List TypeExpr) :
    Gives (fun t => AllClear params → t.Clear) (make (.generic c) params (.ok (.apply c params))) := by
  refine gives_make (fun t ht => ?_) (fun ps t ht hps hclear => ?_)
  · obtain rfl := Except.ok.inj ht
    exact ⟨clear_apply.mpr, fun d hd => by rw [Maker.generic.inj hd]⟩
  · obtain ⟨rfl, hkeys⟩ := ht c rfl
    exact clear_apply.mpr (allAlike_of_sameAll hps hkeys hclear.2 hclear.1).clear

theorem gives_apply (c : Class) (params : List TypeExpr) :
    Gives (fun t => AllClear params → t.Clear) (apply c params) := by
  unfold apply
  cases htakes : c.takes params.length with
  | true =>
    by_cases htuple : c = .tuple
    · rw [if_pos htuple, htuple]
      exact Gives.pure clear_apply.mpr
    · rw [if_neg htuple]
      exact gives_generic c params
  | false => exact Gives.throw _

theorem gives_literal (vs : List Value) : Gives (fun t => (TypeExpr.literal vs).Clear → t.Clear) (literal vs) := by
  unfold literal
  cases hkeys : vs.all Value.isKey with
  | true =>
    refine gives_remembered (fun s hs => hs.literal) (fun s hs r hr => ⟨hs.generic, hr⟩) (fun t ht => ?_)
      (fun ws t ht hws hclear => ?_) (fun t ht hclear => ?_)
    · exact ⟨(Except.ok.inj ht).symm, hkeys⟩
    · obtain ⟨htype, hkeys'⟩ : t = literalOf ws ∧ ws.all Value.isKey = true := ht
      rw [htype]
      exact clear_literalOf (isSingle_of_sameLiterals hws hclear.1) hkeys'
    · obtain rfl := Except.ok.inj ht
      exact clear_literalOf hclear.1 hkeys
  | false => exact Gives.pure fun hclear => nomatch hkeys.symm.trans hclear.2

theorem gives_union (ts : List TypeExpr) : Gives (fun _ => True) (union ts) := by
  unfold union
  exact gives_make (fun t _ => ⟨trivial, nofun⟩) fun _ _ _ _ => trivial

theorem gives_alternatives (ts : List TypeExpr) : Gives (fun _ => True) (alternatives ts) := by
  have hjoin : ∀ a b, Gives (fun _ => True) (join a b) := by
    intro a b
    unfold join
    split
    · exact Gives.pure trivial
    · exact gives_union _
  cases ts with
  | nil => exact Gives.throw _
  | cons t ts =>
    rw [alternatives]
    induction ts generalizing t with
    | nil => exact Gives.pure trivial
    | cons u us ih => exact (hjoin t u).bind fun v _ => ih v

mutual

/-- A type without unions, of values that are keys, is made without unions and of keys. -/
theorem gives_type : ∀ t : TypeExpr, Gives (fun u => t.Clear → u.Clear) (type t)
  | .named _ => Gives.pure id
  | .literal vs => gives_literal vs
  | .apply c ts => (gives_types ts).bind fun us hus =>
      (gives_apply c us).imp fun _ hu hclear => hu (hus (clear_apply.mp hclear))
  | .union ts => (gives_types ts).bind fun us _ => (gives_union us).imp fun _ _ hclear => nomatch hclear.1
  | .alternatives ts => (gives_types ts).bind fun us _ =>
      (gives_alternatives us).imp fun _ _ hclear => nomatch hclear.1

theorem gives_types : ∀ ts : List TypeExpr, Gives (fun us => AllClear ts → AllClear us) (types ts)
  | [] => Gives.pure id
  | t :: ts => (gives_type t).bind fun _ hu => (gives_types ts).bind fun _ hus => Gives.pure fun hclear =>
      have ⟨ht, hts⟩ := allClear_cons.mp hclear
      allClear_cons.mpr ⟨hu ht, hus hts⟩

end

end TypeStore

end Dataflow
