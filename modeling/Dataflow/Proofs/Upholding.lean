import Dataflow.Proofs.Effects
import Dataflow.Proofs.UnbrokenKernels

/-! Actions that uphold what they are entitled to. From any state of a kind, such an action ends in a state of that kind
    and breaks no premise of the library. This is handed on from the parts of an action to the whole, with what one part
    can have answered known to the part after it. The actions of a session uphold that its element types have names. -/

namespace Dataflow

namespace Action

variable {σ τ α β : Type} {I : σ → Prop} {J : τ → Prop}

/-- From a state of a kind, the action breaks no premise of the library and ends in a state of that kind. -/
structure Upholds (I : σ → Prop) (a : Action σ α) : Prop where
  keeps : ∀ s, I s → I (a s).2
  unbroken : ∀ s, I s → Outcome.Unbroken (a s).1

/-- What an action answers from a state of a kind. -/
def Answers (I : σ → Prop) (a : Action σ α) (x : α) : Prop := ∃ s, I s ∧ (a s).1 = .ok x

/-- A state of either kind side by side. -/
def Beside (I : σ → Prop) (J : τ → Prop) (p : σ × τ) : Prop := I p.1 ∧ J p.2

namespace Upholds

variable {a : Action σ α} {f : α → Action σ β}

@[grind ←] theorem lift {o : Outcome α} (h : o.Unbroken) : (liftM o : Action σ α).Upholds I :=
  ⟨fun _ hs => hs, fun _ _ => h⟩

@[grind .] theorem pure (x : α) : (pure x : Action σ α).Upholds I := lift (Outcome.unbroken_ok x)

@[grind ←] theorem throw {e : Failure} (h : !e.isPremise) : (throw e : Action σ α).Upholds I :=
  lift ((Outcome.unbroken_error e).mpr h)

@[grind ←] theorem bind (ha : a.Upholds I) (hf : ∀ x, a.Answers I x → (f x).Upholds I) : (a >>= f).Upholds I where
  keeps s hs := by
    have hkept := ha.keeps s hs
    rcases has : a s with ⟨e | x, t⟩
    · rw [has] at hkept
      rwa [bind_error has]
    · rw [has] at hkept
      rw [bind_ok has]
      exact (hf x ⟨s, hs, by rw [has]⟩).keeps t hkept
  unbroken s hs := by
    have hkept := ha.keeps s hs
    have hunbroken := ha.unbroken s hs
    rcases has : a s with ⟨e | x, t⟩
    · rw [has] at hunbroken
      rw [bind_error has]
      exact (Outcome.unbroken_error e).mpr ((Outcome.unbroken_error e).mp hunbroken)
    · rw [has] at hkept
      rw [bind_ok has]
      exact (hf x ⟨s, hs, by rw [has]⟩).unbroken t hkept

@[grind ←] theorem map (ha : a.Upholds I) (g : α → β) : (g <$> a).Upholds I := by
  rw [map_eq_pure_bind]
  exact ha.bind fun _ _ => .pure _

@[grind .] theorem state : (get : Action σ σ).Upholds I := ⟨fun _ hs => hs, fun s _ => Outcome.unbroken_ok s⟩

@[grind ←] theorem modify {g : σ → σ} (h : ∀ s, I s → I (g s)) : (modify g : Action σ Unit).Upholds I :=
  ⟨h, fun _ _ => Outcome.unbroken_ok ()⟩

@[grind ←] theorem mapM {l : List α} (h : ∀ x ∈ l, (f x).Upholds I) : (l.mapM f).Upholds I := by
  induction l with
  | nil => exact pure []
  | cons x l ih =>
    rw [List.mapM_cons]
    exact (h x List.mem_cons_self).bind fun _ _ =>
      (ih fun y hy => h y (List.mem_cons_of_mem _ hy)).bind fun _ _ => pure _

@[grind ←] theorem forM {f : α → Action σ Unit} {l : List α} (h : ∀ x ∈ l, (f x).Upholds I) :
    (l.forM f).Upholds I := by
  induction l with
  | nil => exact pure ()
  | cons x l ih => exact (h x List.mem_cons_self).bind fun _ _ => ih fun y hy => h y (List.mem_cons_of_mem _ hy)

theorem ite {c : Prop} [Decidable c] {b : Action σ α} (ha : c → a.Upholds I) (hb : ¬c → b.Upholds I) :
    (if c then a else b).Upholds I := by
  split
  · exact ha ‹_›
  · exact hb ‹_›

/-- A check before what follows, which may take it that the check has not failed. -/
theorem check {c : Prop} [Decidable c] {a : Action σ Unit} {f : Unit → Action σ β} (ha : a.Upholds I)
    (hf : ∀ x, (c → a.Answers I x) → (f x).Upholds I) : (if c then a >>= f else f ()).Upholds I := by
  split
  · exact ha.bind fun x hx => hf x fun _ => hx
  · exact hf () fun hc => absurd hc ‹_›

@[grind ←] theorem onFirst (ha : a.Upholds I) : (a.onFirst : Action (σ × τ) α).Upholds (Beside I J) :=
  ⟨fun p hp => ⟨ha.keeps p.1 hp.1, hp.2⟩, fun p hp => ha.unbroken p.1 hp.1⟩

@[grind ←] theorem onSecond {a : Action τ α} (ha : a.Upholds J) :
    (a.onSecond : Action (σ × τ) α).Upholds (Beside I J) :=
  ⟨fun p hp => ⟨hp.1, ha.keeps p.2 hp.2⟩, fun p hp => ha.unbroken p.2 hp.2⟩

end Upholds

variable {a : Action σ α} {f : α → Action σ β}

theorem Answers.of_bind {y : β} (h : (a >>= f).Answers I y) (ha : a.Upholds I) :
    ∃ x, a.Answers I x ∧ (f x).Answers I y := by
  obtain ⟨s, hs, h⟩ := h
  have hkept := ha.keeps s hs
  rcases has : a s with ⟨e | x, t⟩
  · rw [bind_error has] at h
    cases h
  · rw [has] at hkept
    rw [bind_ok has] at h
    exact ⟨x, ⟨s, hs, by rw [has]⟩, t, hkept, h⟩

/-- What comes after a check that answers nothing. -/
theorem Answers.of_check {c : Prop} [Decidable c] {a : Action σ Unit} {f : Unit → Action σ β} {y : β}
    (h : (if c then a >>= f else f ()).Answers I y) (ha : a.Upholds I) (hnone : ∀ x, ¬a.Answers I x) :
    (f ()).Answers I y := by
  split at h
  · obtain ⟨x, hx, -⟩ := h.of_bind ha
    exact (hnone x hx).elim
  · exact h

theorem Answers.of_lift {o : Outcome α} {x : α} (h : (liftM o : Action σ α).Answers I x) : o = .ok x :=
  h.elim fun _ h => h.2

theorem Answers.of_pure {x y : α} (h : (pure x : Action σ α).Answers I y) : x = y :=
  h.elim fun _ h => Except.ok.inj h.2

theorem Answers.of_throw {e : Failure} {x : α} (h : (throw e : Action σ α).Answers I x) : False :=
  h.elim fun _ h => nomatch h.2

theorem Answers.of_onSecond {τ : Type} {J : τ → Prop} {a : Action τ α} {x : α}
    (h : (a.onSecond : Action (σ × τ) α).Answers (Beside I J) x) : a.Answers J x :=
  h.elim fun p h => ⟨p.2, h.1.2, h.2⟩

theorem Answers.of_state {s : σ} (h : (get : Action σ σ).Answers I s) : I s := by
  obtain ⟨t, ht, hs⟩ := h
  cases hs
  exact ht

end Action

/-! ### Sessions -/

namespace Session

/-- Every element type that is registered has a name. -/
def Named (s : Session) : Prop := ∀ i ∈ s.dtypes, i.name ≠ .nothing

theorem named_initial {environment : List (String × String)} {torch logs : Bool} :
    (initial environment torch logs).Named := by
  intro i hi
  obtain ⟨d, -, rfl⟩ := List.mem_map.mp hi
  exact nofun

theorem Named.registerDType {s : Session} (hs : s.Named) {i : DTypeInfo} (hi : i.name ≠ .nothing) :
    (registerDType i s).2.Named := by
  have hadded : { s with dtypes := s.dtypes ++ [i] }.Named := fun j hj => by
    rcases List.mem_append.mp hj with hj | hj
    · exact hs j hj
    · exact List.mem_singleton.mp hj ▸ hi
  unfold Session.registerDType
  rw [Action.bind_apply, Action.get_apply]
  dsimp only
  rw [Action.bind_apply, Action.lift_apply]
  rcases s.registeredDType? i.name with e | known
  · exact hs
  · dsimp only
    split
    · exact hs
    · exact hadded

open Dataflow.Action (Upholds)

@[grind .] theorem upholds_setting (k : Setting) : (setting k).Upholds Named :=
  ⟨fun _ hs => hs, fun _ _ => Outcome.unbroken_ok _⟩

@[grind .] theorem unbroken_dtypeInfo (name : Value) (s : Session) : (s.dtypeInfo name).Unbroken := by
  unfold dtypeInfo registeredDType?
  grind

/-- Nothing is not the name of an element type. -/
theorem Named.ne_nothing {s : Session} (hs : s.Named) {name : Value} {i : DTypeInfo} (h : s.dtypeInfo name = .ok i) :
    name ≠ .nothing := by
  rintro rfl
  have hfind : s.dtypes.find? (·.name.same .nothing) = some i := by
    have hkey : Value.nothing.isKey = true := by simp [Value.isKey]
    rw [dtypeInfo, registeredDType?, if_pos hkey, Outcome.ok_bind] at h
    split at h <;> cases h
    assumption
  have hsame := List.find?_some hfind
  refine hs i (List.mem_of_find?_eq_some hfind) ?_
  cases hname : i.name <;> simp_all [Value.same, Value.number?]

@[grind .] theorem upholds_requireDType (name : Value) : (requireDType name).Upholds Named := by
  unfold requireDType
  grind

@[grind .] theorem upholds_requireKnown (xs : List Tensor) : (requireKnown xs).Upholds Named := by
  unfold requireKnown
  grind

@[grind .] theorem upholds_record (source : LogSource) {text : Outcome String} (h : text.Unbroken) :
    (record source text).Upholds Named := by
  have hlogging (line : String) (s : Session) (hs : s.Named) : (s.logging source line).Named := hs
  unfold record
  grind

@[grind .] theorem upholds_select (types : List TypeExpr) : (select types).Upholds Named := by
  unfold select
  grind

/-- Operands without tensors are dispatched without a broken premise. -/
theorem upholds_run (redirects : Nat) {operands : List Operand} (h : operands.filterMap Operand.tensor? = []) :
    (Dispatch.run means redirects operands).Upholds Named := by
  -- A redirect places the same operator elsewhere, so the operands stay without tensors.
  induction redirects generalizing operands with
  | zero =>
    have hone : Tensor.OneType (operands.filterMap Operand.tensor?) := h ▸ .nil
    have hkernel (device : Device) (kind : OperatorKind) := Kernel.unbroken_run device kind hone
    unfold Dispatch.run means
    grind
  | succ n ih =>
    have hone : Tensor.OneType (operands.filterMap Operand.tensor?) := h ▸ .nil
    have hkernel (device : Device) (kind : OperatorKind) := Kernel.unbroken_run device kind hone
    have hredirected {inner : Operand} {device : Value} {rest : List Operand}
        (hplaced : operands = .placed inner device :: rest) (name : String) :
        (Dispatch.run means n (.placed inner (.text name) :: rest)).Upholds Named := ih (by rwa [hplaced] at h)
    unfold Dispatch.run means
    unfold means at hredirected
    grind

@[grind .] theorem upholds_create (op : Operator) (device : Value) : (create op device).Upholds Named := by
  have hnone : [Operand.placed (.operator op) device].filterMap Operand.tensor? = [] := rfl
  have hrun := upholds_run Dispatch.redirectLimit hnone
  unfold create
  grind

@[grind .] theorem upholds_constant (value dtype device : Value) : (constant value dtype device).Upholds Named := by
  unfold constant
  grind

@[grind .] theorem upholds_empty (shape dtype device : Value) : (empty shape dtype device).Upholds Named := by
  unfold empty
  grind

@[grind .] theorem upholds_flag (device : Value) : (flag device).Upholds Named := by
  unfold flag
  grind

@[grind .] theorem upholds_indexScalar (value dtype device : Value) :
    (indexScalar value dtype device).Upholds Named := by
  unfold indexScalar
  grind

end Session

/-! ### Checks of element types -/

@[grind .] theorem unbroken_checkDType (expected actual : Value) (what : String) :
    (checkDType expected actual what).Unbroken := by
  unfold checkDType
  grind

@[grind .] theorem Value.unbroken_elementType (v : Value) : v.elementType.Unbroken := by
  unfold elementType
  grind

@[grind .] theorem unbroken_checkElementType (expected x : Value) (what : String) :
    (checkElementType expected x what).Unbroken := by
  unfold checkElementType
  grind

end Dataflow
