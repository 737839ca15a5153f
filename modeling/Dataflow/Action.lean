import Dataflow.Failure

/-! Actions: operations that change a state and may fail. What an action has changed before it fails stays changed.
    The equations say what each way to build an action does to a state. -/

namespace Dataflow

namespace Outcome

variable {α β : Type}

@[simp] theorem pure_eq (x : α) : (pure x : Outcome α) = .ok x := rfl

@[simp] theorem throw_eq (e : Failure) : (throw e : Outcome α) = .error e := rfl

@[simp] theorem ok_bind (x : α) (f : α → Outcome β) : ((.ok x : Outcome α) >>= f) = f x := rfl

@[simp] theorem error_bind (e : Failure) (f : α → Outcome β) : ((.error e : Outcome α) >>= f) = .error e := rfl

@[simp] theorem ok_map (f : α → β) (x : α) : (f <$> (.ok x : Outcome α)) = .ok (f x) := rfl

/-- What succeeds has succeeded part by part. -/
theorem bind_eq_ok {o : Outcome α} {f : α → Outcome β} {y : β} :
    (o >>= f) = .ok y ↔ ∃ x, o = .ok x ∧ f x = .ok y := by
  cases o <;> simp

/-- What fails has failed in one of its parts, the first or, where that one succeeds, the second. -/
theorem bind_eq_error {o : Outcome α} {f : α → Outcome β} {e : Failure} :
    (o >>= f) = .error e ↔ o = .error e ∨ ∃ x, o = .ok x ∧ f x = .error e := by
  cases o <;> simp

theorem exists_of_map {f : α → β} {o : Outcome α} {y : β} (h : f <$> o = .ok y) : ∃ x, o = .ok x ∧ f x = y := by
  cases o with
  | error e => cases h
  | ok x => exact ⟨x, rfl, Except.ok.inj h⟩

/-- Operations that succeed one by one succeed on a list. -/
theorem mapM_ok {f : α → Outcome β} {g : α → β} {l : List α} (h : ∀ x ∈ l, f x = .ok (g x)) :
    l.mapM f = .ok (l.map g) := by
  induction l with
  | nil => rfl
  | cons x l ih =>
    rw [List.mapM_cons, h x List.mem_cons_self, ih fun y hy => h y (List.mem_cons_of_mem _ hy)]
    rfl

/-- What is written one way and read back succeeds on a list. -/
theorem mapM_map_ok {f : β → Outcome α} {g : α → β} (h : ∀ x, f (g x) = .ok x) (l : List α) :
    (l.map g).mapM f = .ok l := by
  have hone : ∀ x ∈ l, (f ∘ g) x = .ok (id x) := fun x _ => h x
  rw [List.mapM_map, mapM_ok hone, List.map_id]

theorem ok_of_mapM {f : α → Outcome β} {l : List α} {ys : List β} (h : l.mapM f = .ok ys) {x : α} (hx : x ∈ l) :
    ∃ y, f x = .ok y := by
  induction l generalizing ys with
  | nil => cases hx
  | cons z l ih =>
    rw [List.mapM_cons] at h
    obtain ⟨y, hy, h⟩ := bind_eq_ok.mp h
    obtain ⟨zs, hzs, -⟩ := bind_eq_ok.mp h
    rcases List.mem_cons.mp hx with rfl | hx
    · exact ⟨y, hy⟩
    · exact ih hzs hx

theorem exists_of_mapM {f : α → Outcome β} {l : List α} {ys : List β} (h : l.mapM f = .ok ys) {y : β} (hy : y ∈ ys) :
    ∃ x ∈ l, f x = .ok y := by
  induction l generalizing ys with
  | nil =>
    cases h
    cases hy
  | cons x l ih =>
    rw [List.mapM_cons] at h
    obtain ⟨z, hz, h⟩ := bind_eq_ok.mp h
    obtain ⟨zs, hzs, h⟩ := bind_eq_ok.mp h
    cases h
    rcases List.mem_cons.mp hy with rfl | hy
    · exact ⟨x, List.mem_cons_self, hz⟩
    · obtain ⟨w, hw, hfw⟩ := ih hzs hy
      exact ⟨w, List.mem_cons_of_mem _ hw, hfw⟩

/-- An operation that fails on a list fails on one of its members. -/
theorem mapM_error {f : α → Outcome β} {l : List α} {e : Failure} (h : l.mapM f = .error e) :
    ∃ x ∈ l, f x = .error e := by
  induction l with
  | nil => cases h
  | cons x l ih =>
    rw [List.mapM_cons] at h
    cases hx : f x with
    | error e' =>
      rw [hx, error_bind] at h
      obtain rfl : e' = e := Except.error.inj h
      exact ⟨x, List.mem_cons_self, hx⟩
    | ok y =>
      rw [hx, ok_bind] at h
      cases hl : l.mapM f with
      | error e' =>
        rw [hl, error_bind] at h
        obtain rfl : e' = e := Except.error.inj h
        obtain ⟨z, hz, hfz⟩ := ih hl
        exact ⟨z, List.mem_cons_of_mem _ hz, hfz⟩
      | ok ys =>
        rw [hl] at h
        cases h

end Outcome

abbrev Action (σ : Type) := ExceptT Failure (StateM σ)

namespace Action

variable {σ τ α β : Type}

/-- An action on a part of a larger state. -/
def on (part : σ → τ) (put : τ → σ → σ) (a : Action τ α) : Action σ α := fun s =>
  let (r, t) := a (part s)
  (r, put t s)

def onFirst (a : Action σ α) : Action (σ × τ) α := a.on Prod.fst fun s p => (s, p.2)

def onSecond (a : Action τ α) : Action (σ × τ) α := a.on Prod.snd fun t p => (p.1, t)

/-! ### Equations -/

@[simp] theorem pure_apply (x : α) (s : σ) : (pure x : Action σ α) s = (.ok x, s) := rfl

theorem bind_apply (a : Action σ α) (f : α → Action σ β) (s : σ) :
    (a >>= f) s = match a s with
      | (.ok x, t) => f x t
      | (.error e, t) => (.error e, t) := by
  show (ExceptT.bindCont f (a s).1 : StateM σ _) (a s).2 = _
  rcases a s with ⟨r, t⟩
  cases r <;> rfl

theorem bind_ok {a : Action σ α} {f : α → Action σ β} {s t : σ} {x : α} (h : a s = (.ok x, t)) :
    (a >>= f) s = f x t := by
  rw [bind_apply, h]

theorem bind_error {a : Action σ α} {f : α → Action σ β} {s t : σ} {e : Failure} (h : a s = (.error e, t)) :
    (a >>= f) s = (.error e, t) := by
  rw [bind_apply, h]

theorem bind_eq_ok {a : Action σ α} {f : α → Action σ β} {s u : σ} {y : β} :
    (a >>= f) s = (.ok y, u) ↔ ∃ x t, a s = (.ok x, t) ∧ f x t = (.ok y, u) := by
  rw [bind_apply]
  rcases a s with ⟨e | x, t⟩
  · exact ⟨fun h => (nomatch h), fun ⟨_, _, h, _⟩ => (nomatch h)⟩
  · refine ⟨fun h => ⟨x, t, rfl, h⟩, ?_⟩
    rintro ⟨x', t', h, hf⟩
    cases h
    exact hf

/-- What is made of an answer is made of the outcome. -/
theorem fst_bind_pure (a : Action σ α) (f : α → β) (s : σ) : ((a >>= fun x => pure (f x)) s).1 = f <$> (a s).1 := by
  rw [bind_apply]
  rcases a s with ⟨e | x, t⟩ <;> rfl

@[simp] theorem throw_apply (e : Failure) (s : σ) : (throw e : Action σ α) s = (.error e, s) := rfl

@[simp] theorem get_apply (s : σ) : (get : Action σ σ) s = (.ok s, s) := rfl

@[simp] theorem modify_apply (f : σ → σ) (s : σ) : (modify f : Action σ Unit) s = (.ok (), f s) := rfl

/-- An outcome without state leaves the state as it is. -/
@[simp] theorem lift_apply (o : Outcome α) (s : σ) : (liftM o : Action σ α) s = (o, s) := rfl

@[simp] theorem onFirst_apply (a : Action σ α) (p : σ × τ) :
    (a.onFirst : Action (σ × τ) α) p = ((a p.1).1, (a p.1).2, p.2) := rfl

@[simp] theorem onSecond_apply (a : Action τ α) (p : σ × τ) :
    (a.onSecond : Action (σ × τ) α) p = ((a p.2).1, p.1, (a p.2).2) := rfl

end Action

end Dataflow
