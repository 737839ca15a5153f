import Dataflow.Action
import Mathlib.Data.List.Forall2

/-! Actions that follow others. Where the one succeeds, the other one does so as well, with an answer that belongs to the
    first one's, and states that belong together are left so. What happens after a failure is not looked at. There is
    one lemma for each way to build an action. -/

namespace Dataflow

namespace Outcome

variable {α β γ δ : Type} {Q : α → β → Prop} {S : γ → δ → Prop} {o : Outcome α} {o' : Outcome β}

/-- The second outcome is a success where the first one is. -/
def Follows (Q : α → β → Prop) (o : Outcome α) (o' : Outcome β) : Prop := ∀ x, o = .ok x → ∃ y, o' = .ok y ∧ Q x y

namespace Follows

theorem refl (o : Outcome α) : Follows Eq o o := fun x hx => ⟨x, hx, rfl⟩

theorem ok {x : α} {y : β} (h : Q x y) : Follows Q (.ok x) (.ok y) := by
  rintro _ ⟨⟩
  exact ⟨y, rfl, h⟩

theorem error {e : Failure} : Follows Q (.error e) o' := nofun

theorem bind {f : α → Outcome γ} {g : β → Outcome δ} (h : Follows Q o o')
    (hf : ∀ x y, o = .ok x → Q x y → Follows S (f x) (g y)) : Follows S (o >>= f) (o' >>= g) := by
  intro z hz
  obtain ⟨x, hx, hz⟩ := bind_eq_ok.mp hz
  obtain ⟨y, hy, hxy⟩ := h x hx
  rw [hy, ok_bind]
  exact hf x y hx hxy z hz

theorem mono {Q' : α → β → Prop} (h : Follows Q o o') (hQ : ∀ x y, Q x y → Q' x y) : Follows Q' o o' := by
  intro x hx
  obtain ⟨y, hy, hxy⟩ := h x hx
  exact ⟨y, hy, hQ x y hxy⟩

theorem mapM {f : α → Outcome γ} {g : β → Outcome δ} {l : List α} {m : List β}
    (h : List.Forall₂ (fun x y => Follows S (f x) (g y)) l m) :
    Follows (List.Forall₂ S) (l.mapM f) (m.mapM g) := by
  induction h with
  | nil => exact ok .nil
  | cons hxy _ ih =>
    rw [List.mapM_cons, List.mapM_cons]
    exact hxy.bind fun _ _ _ hfirst => ih.bind fun _ _ _ hrest => ok (.cons hfirst hrest)

end Follows

end Outcome

namespace Action

variable {σ τ α β γ δ : Type} {R : σ → τ → Prop} {Q : α → β → Prop} {S : γ → δ → Prop}

/-- The second action succeeds where the first one does, from states that belong together to such states. -/
def Follows (R : σ → τ → Prop) (Q : α → β → Prop) (a : Action σ α) (b : Action τ β) : Prop :=
  ∀ s t, R s t → ∀ x, (a s).1 = .ok x → ∃ y, (b t).1 = .ok y ∧ Q x y ∧ R (a s).2 (b t).2

/-- An action that never succeeds. -/
def Fails (a : Action σ α) : Prop := ∀ s x, (a s).1 ≠ .ok x

namespace Fails

theorem throw (e : Failure) : (throw e : Action σ α).Fails := fun _ _ => nofun

theorem bind_right {a : Action σ α} {f : α → Action σ γ} (h : ∀ x, (f x).Fails) : (a >>= f).Fails := by
  intro s x hx
  rw [bind_apply] at hx
  rcases ha : a s with ⟨e | y, t⟩
  · rw [ha] at hx
    cases hx
  · rw [ha] at hx
    exact h y t x hx

theorem bind_left {a : Action σ α} (h : a.Fails) (f : α → Action σ γ) : (a >>= f).Fails := by
  intro s x hx
  rw [bind_apply] at hx
  rcases ha : a s with ⟨e | y, t⟩
  · rw [ha] at hx
    cases hx
  · exact h s y (congrArg Prod.fst ha)

theorem follows {a : Action σ α} (h : a.Fails) (b : Action τ β) : Follows R Q a b := fun s _ _ x hx => absurd hx (h s x)

end Fails

namespace Follows

variable {a : Action σ α} {b : Action τ β}

theorem lift {o : Outcome α} {o' : Outcome β} (h : o.Follows Q o') : Follows R Q (liftM o) (liftM o') := by
  intro s t hst x hx
  obtain ⟨y, hy, hxy⟩ := h x hx
  exact ⟨y, hy, hxy, hst⟩

theorem pure {x : α} {y : β} (h : Q x y) : Follows R Q (pure x) (pure y) := lift (.ok h)

theorem bind {f : α → Action σ γ} {g : β → Action τ δ} (ha : Follows R Q a b)
    (hf : ∀ x y, Q x y → Follows R S (f x) (g y)) : Follows R S (a >>= f) (b >>= g) := by
  intro s t hst z hz
  rw [bind_apply] at hz ⊢
  rw [bind_apply]
  rcases has : a s with ⟨e | x, s'⟩
  · rw [has] at hz
    cases hz
  rw [has] at hz
  obtain ⟨y, hy, hxy, hst'⟩ := ha s t hst x (congrArg Prod.fst has)
  rw [has] at hst'
  have hbt : b t = (.ok y, (b t).2) := Prod.ext hy rfl
  rw [hbt]
  exact hf x y hxy s' _ hst' z hz

theorem state : Follows R R (get : Action σ σ) (get : Action τ τ) := by
  rintro s t hst _ ⟨⟩
  exact ⟨t, rfl, hst, hst⟩

theorem modify {f : σ → σ} {g : τ → τ} (h : ∀ s t, R s t → R (f s) (g t)) :
    Follows R Eq (modify f : Action σ Unit) (modify g : Action τ Unit) := by
  rintro s t hst ⟨⟩ -
  exact ⟨(), rfl, rfl, h s t hst⟩

theorem ite {c : Prop} [Decidable c] {a' : Action σ α} {b' : Action τ β} (ha : c → Follows R Q a b)
    (hb : ¬c → Follows R Q a' b') : Follows R Q (if c then a else a') (if c then b else b') := by
  split
  · exact ha ‹c›
  · exact hb ‹¬c›

/-- A refusal before what follows. -/
theorem refusal {c : Prop} [Decidable c] {a : Action σ Unit} {b : Action τ Unit} {f : Unit → Action σ γ}
    {g : Unit → Action τ δ} (ha : a.Fails) (hf : ¬c → Follows R S (f ()) (g ())) :
    Follows R S (if c then a >>= f else f ()) (if c then b >>= g else g ()) :=
  .ite (fun _ => (ha.bind_left f).follows _) hf

theorem mono {Q' : α → β → Prop} (h : Follows R Q a b) (hQ : ∀ x y, Q x y → Q' x y) : Follows R Q' a b := by
  intro s t hst x hx
  obtain ⟨y, hy, hxy, hst'⟩ := h s t hst x hx
  exact ⟨y, hy, hQ x y hxy, hst'⟩

theorem mapM {f : α → Action σ γ} {g : β → Action τ δ} {l : List α} {m : List β}
    (h : List.Forall₂ (fun x y => Follows R S (f x) (g y)) l m) :
    Follows R (List.Forall₂ S) (l.mapM f) (m.mapM g) := by
  induction h with
  | nil => exact pure .nil
  | cons hxy _ ih =>
    rw [List.mapM_cons, List.mapM_cons]
    exact hxy.bind fun _ _ hfirst => ih.bind fun _ _ hrest => pure (.cons hfirst hrest)

/-- States beside one another that belong together part by part. -/
def Both {σ' τ' : Type} (R : σ → τ → Prop) (T : σ' → τ' → Prop) (p : σ × σ') (q : τ × τ') : Prop :=
  R p.1 q.1 ∧ T p.2 q.2

variable {σ' τ' : Type} {T : σ' → τ' → Prop}

theorem onFirst (h : Follows R Q a b) : Follows (Both R T) Q a.onFirst b.onFirst := by
  rintro ⟨s, s'⟩ ⟨t, t'⟩ ⟨hst, hst'⟩ x hx
  obtain ⟨y, hy, hxy, hafter⟩ := h s t hst x hx
  exact ⟨y, hy, hxy, hafter, hst'⟩

theorem onSecond (h : Follows R Q a b) : Follows (Both T R) Q a.onSecond b.onSecond := by
  rintro ⟨s', s⟩ ⟨t', t⟩ ⟨hst', hst⟩ x hx
  obtain ⟨y, hy, hxy, hafter⟩ := h s t hst x hx
  exact ⟨y, hy, hxy, hst', hafter⟩

end Follows

end Action

end Dataflow
