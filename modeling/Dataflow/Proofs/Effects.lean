import Dataflow.Proofs.Creation
import Dataflow.Proofs.QueueSteps
import Dataflow.TensorArray.Method

/-! What actions see of a state and what they do to it. Of a session, operations see the settings, the element types, the
    backends and whether there is a log; they add to the log and look settings up, and leave everything else alone. An
    operation on a tensor array or a queue keeps its number. -/

namespace Dataflow

/-- What an action may see of a state, and what it may turn it into. -/
structure Footprint (σ : Type) where
  /-- States that cannot be told apart. -/
  alike : σ → σ → Prop
  allows : σ → σ → Prop
  refl : ∀ s, allows s s
  trans : ∀ {s t u}, allows s t → allows t u → allows s u

namespace Footprint

variable {τ κ : Type}

/-- Everything is seen, and everything may change but a part. -/
def keeping (part : τ → κ) : Footprint τ where
  alike := Eq
  allows x y := part y = part x
  refl _ := rfl
  trans hst htu := htu.trans hst

end Footprint

namespace Action

variable {σ τ κ α β : Type}

/-- An action that answers alike where states are alike, leaves them alike, and changes a state only as it may. -/
structure Confined (w : Footprint σ) (a : Action σ α) : Prop where
  same : ∀ s t, w.alike s t → (a s).1 = (a t).1 ∧ w.alike (a s).2 (a t).2
  keeps : ∀ s, w.allows s (a s).2

namespace Confined

variable {w : Footprint σ} {a : Action σ α} {f : α → Action σ β}

theorem of_unchanged {o : σ → Outcome α} (h : ∀ s, a s = (o s, s)) (ho : ∀ s t, w.alike s t → o s = o t) :
    a.Confined w where
  same s t hst := by
    rw [h s, h t]
    exact ⟨ho s t hst, hst⟩
  keeps s := by
    rw [h s]
    exact w.refl s

theorem lift (o : Outcome α) : (liftM o : Action σ α).Confined w := of_unchanged (fun _ => rfl) fun _ _ _ => rfl

theorem pure (x : α) : (pure x : Action σ α).Confined w := lift (.ok x)

theorem throw (e : Failure) : (throw e : Action σ α).Confined w := lift (.error e)

theorem bind (ha : a.Confined w) (hf : ∀ x, (f x).Confined w) : (a >>= f).Confined w where
  same s t hst := by
    obtain ⟨hanswer, hstate⟩ := ha.same s t hst
    rcases hs : a s with ⟨o, s'⟩
    rcases ht : a t with ⟨o', t'⟩
    rw [hs, ht] at hanswer hstate
    obtain rfl : o = o' := hanswer
    -- The same failure ends both runs, and the same answer goes on in both.
    cases o with
    | error e =>
      rw [bind_error hs, bind_error ht]
      exact ⟨rfl, hstate⟩
    | ok x =>
      rw [bind_ok hs, bind_ok ht]
      exact (hf x).same s' t' hstate
  keeps s := by
    have hfirst := ha.keeps s
    rcases hs : a s with ⟨e | x, t⟩
    · rw [hs] at hfirst
      rwa [bind_error hs]
    · rw [hs] at hfirst
      rw [bind_ok hs]
      exact w.trans hfirst ((hf x).keeps t)

theorem map (ha : a.Confined w) (g : α → β) : (g <$> a).Confined w := by
  rw [map_eq_pure_bind]
  exact ha.bind fun _ => .pure _

theorem ite {c : Prop} [Decidable c] {b : Action σ α} (ha : a.Confined w) (hb : b.Confined w) :
    (if c then a else b).Confined w := by
  split
  · exact ha
  · exact hb

/-- A check before what follows. -/
theorem check {c : Prop} [Decidable c] {a : Action σ Unit} {f : Unit → Action σ β} (ha : a.Confined w)
    (hf : ∀ x, (f x).Confined w) : (if c then a >>= f else f ()).Confined w :=
  .ite (.bind ha hf) (hf ())

theorem mapM (l : List α) (hf : ∀ x, (f x).Confined w) : (l.mapM f).Confined w := by
  induction l with
  | nil => exact pure []
  | cons x l ih =>
    rw [List.mapM_cons]
    exact (hf x).bind fun y => ih.bind fun ys => pure _

theorem forM {f : α → Action σ Unit} (l : List α) (hf : ∀ x, (f x).Confined w) : (l.forM f).Confined w := by
  induction l with
  | nil => exact pure ()
  | cons x l ih => exact (hf x).bind fun _ => ih

theorem of_keeps {part : σ → κ} (h : ∀ s, part (a s).2 = part s) : a.Confined (.keeping part) where
  same s t hst := by
    obtain rfl : s = t := hst
    exact ⟨rfl, rfl⟩
  keeps := h

theorem state {part : σ → κ} : (get : Action σ σ).Confined (.keeping part) := of_keeps fun _ => rfl

theorem modify {part : σ → κ} {g : σ → σ} (h : ∀ s, part (g s) = part s) :
    (modify g : Action σ Unit).Confined (.keeping part) := of_keeps h

end Confined

end Action

namespace Session

variable {s t u : Session}

/-- Sessions that operations cannot tell apart. -/
structure Alike (s t : Session) : Prop where
  settings : ∀ k, s.config.value k = t.config.value k
  dtypes : s.dtypes = t.dtypes
  torch : s.torch = t.torch
  logs : s.logs = t.logs

theorem Alike.refl (s : Session) : s.Alike s := ⟨fun _ => rfl, rfl, rfl, rfl⟩

theorem Alike.symm (h : s.Alike t) : t.Alike s :=
  ⟨fun k => (h.settings k).symm, h.dtypes.symm, h.torch.symm, h.logs.symm⟩

theorem Alike.trans (h : s.Alike t) (h' : t.Alike u) : s.Alike u :=
  ⟨fun k => (h.settings k).trans (h'.settings k), h.dtypes.trans h'.dtypes, h.torch.trans h'.torch,
    h.logs.trans h'.logs⟩

def footprint : Footprint Session := ⟨Alike, Alike, Alike.refl, Alike.trans⟩

end Session

namespace Footprint

variable {τ : Type}

/-- A footprint beside that of the session. -/
def inSession (w : Footprint τ) : Footprint (Session × τ) where
  alike p q := p.1.Alike q.1 ∧ w.alike p.2 q.2
  allows p q := p.1.Alike q.1 ∧ w.allows p.2 q.2
  refl p := ⟨.refl p.1, w.refl p.2⟩
  trans hpq hqr := ⟨hpq.1.trans hqr.1, w.trans hpq.2 hqr.2⟩

end Footprint

namespace Action.Confined

variable {τ α : Type} {w : Footprint τ}

theorem onFirst {a : Action Session α} (h : a.Confined Session.footprint) :
    (a.onFirst : Action (Session × τ) α).Confined w.inSession where
  same p q hpq := ⟨(h.same p.1 q.1 hpq.1).1, (h.same p.1 q.1 hpq.1).2, hpq.2⟩
  keeps p := ⟨h.keeps p.1, w.refl p.2⟩

theorem onSecond {a : Action τ α} (h : a.Confined w) : (a.onSecond : Action (Session × τ) α).Confined w.inSession where
  same p q hpq := ⟨(h.same p.2 q.2 hpq.2).1, hpq.1, (h.same p.2 q.2 hpq.2).2⟩
  keeps p := ⟨.refl p.1, h.keeps p.2⟩

end Action.Confined

/-- What follows depends on the object and not on the session. -/
theorem Action.Confined.bind_object {τ κ α : Type} {part : τ → κ} {f : Session × τ → Action (Session × τ) α}
    (hf : ∀ p, (f p).Confined (Footprint.keeping part).inSession) (hobject : ∀ p q, p.2 = q.2 → f p = f q) :
    (get >>= f : Action (Session × τ) α).Confined (Footprint.keeping part).inSession where
  same p q hpq := by
    rw [bind_ok (get_apply p), bind_ok (get_apply q), hobject p q hpq.2]
    exact (hf q).same p q hpq
  keeps p := by
    rw [bind_ok (get_apply p)]
    exact (hf p).keeps p

/-! ### Sessions -/

namespace Session

open Dataflow.Action (Confined)

variable {s t : Session}

theorem alike_settled (k : Setting) (s : Session) : s.Alike (s.settled k) :=
  ⟨fun j => (Config.value_read k j s.config).symm, rfl, rfl, rfl⟩

theorem alike_logging (source : LogSource) (text : String) (s : Session) : s.Alike (s.logging source text) :=
  ⟨fun _ => rfl, rfl, rfl, rfl⟩

theorem Alike.settled (h : s.Alike t) (k : Setting) : (s.settled k).Alike (t.settled k) :=
  (alike_settled k s).symm.trans (h.trans (alike_settled k t))

theorem confined_setting (k : Setting) : (setting k).Confined footprint where
  same _ _ h := ⟨congrArg Except.ok (h.settings k), h.settled k⟩
  keeps := alike_settled k

theorem record_apply (source : LogSource) (text : Outcome String) (s : Session) :
    record source text s =
      if s.logs then match text with
        | .ok line => (.ok (), s.logging source line)
        | .error e => (.error e, s)
      else (.ok (), s) := by
  rw [record, Action.bind_ok (Action.get_apply s)]
  by_cases h : s.logs = true
  · rw [if_pos h, if_pos h, Action.bind_apply, Action.lift_apply]
    cases text <;> rfl
  · rw [if_neg h, if_neg h]
    rfl

theorem confined_record (source : LogSource) (text : Outcome String) : (record source text).Confined footprint where
  same s t h := by
    rw [record_apply, record_apply, h.logs]
    cases t.logs with
    | false => exact ⟨rfl, h⟩
    | true =>
      cases text with
      | error e => exact ⟨rfl, h⟩
      | ok line => exact ⟨rfl, (alike_logging source line s).symm.trans (h.trans (alike_logging source line t))⟩
  keeps s := by
    rw [record_apply]
    split
    · cases text with
      | error e => exact .refl s
      | ok line => exact alike_logging source line s
    · exact .refl s

theorem Alike.dtypeInfo (h : s.Alike t) (name : Value) : s.dtypeInfo name = t.dtypeInfo name := by
  unfold Session.dtypeInfo registeredDType?
  rw [h.dtypes]

theorem confined_requireDType (name : Value) : (requireDType name).Confined footprint :=
  .of_unchanged (fun _ => rfl) fun _ _ h => h.dtypeInfo name

theorem confined_requireKnown (xs : List Tensor) : (requireKnown xs).Confined footprint :=
  .forM xs fun _ => .bind (confined_requireDType _) fun _ => .pure ()

theorem confined_select (types : List TypeExpr) : (select types).Confined footprint := by
  cases hkeys : TypeExpr.areKeys types with
  | false =>
    refine .of_unchanged (o := fun _ => .error .wrongType) (fun s => ?_) fun _ _ _ => rfl
    rw [select, hkeys]
    rfl
  | true =>
    refine .of_unchanged (select_keys hkeys) fun s t h => ?_
    rw [devices, devices, h.torch]

theorem confined_run (redirects : Nat) (operands : List Operand) :
    (Dispatch.run means redirects operands).Confined footprint := by
  unfold Dispatch.run
  refine .bind (confined_select _) fun implementation => .check (.throw _) fun _ => ?_
  split
  · exact .bind (.lift _) fun xs => .bind (confined_requireKnown xs) fun _ => .pure _
  · exact .pure _
  · refine .bind (confined_setting .device) fun device => ?_
    cases redirects with
    | zero => exact .throw _
    | succ n => exact confined_run n _
  · exact .throw _

theorem confined_create (op : Operator) (device : Value) : (create op device).Confined footprint := by
  refine .bind (confined_run _ _) fun answer => ?_
  split
  · exact .pure _
  · exact .throw _

theorem confined_constant (value dtype device : Value) : (constant value dtype device).Confined footprint :=
  .bind (confined_requireDType dtype) fun _ => confined_create _ _

theorem confined_empty (shape dtype device : Value) : (empty shape dtype device).Confined footprint :=
  .bind (confined_requireDType dtype) fun _ => .bind (.lift _) fun _ => confined_create _ _

theorem confined_flag (device : Value) : (flag device).Confined footprint :=
  .bind (confined_setting .flagDType) fun _ => confined_constant _ _ _

theorem confined_indexScalar (value dtype device : Value) : (indexScalar value dtype device).Confined footprint := by
  unfold indexScalar
  refine .ite (.bind (.pure _) fun _ => ?_) (.bind (.map (confined_setting .indexDType) _) fun _ => ?_)
  all_goals exact confined_constant _ _ _

end Session

/-! ### Tensor arrays -/

namespace TensorArray

open Dataflow.Action (Confined)

def footprint : Footprint TensorArray := .keeping TensorArray.id

theorem confined_refuse {α : Type} (cause : ArrayRefusal) : (refuse cause : Action TensorArray α).Confined footprint :=
  .bind .state fun _ => .throw _

theorem confined_requireOpen : requireOpen.Confined footprint :=
  .bind .state fun _ => .ite (confined_refuse _) (.pure _)

theorem confined_openSize : openSize.Confined footprint :=
  .bind confined_requireOpen fun _ => .bind .state fun _ => .pure _

theorem confined_requireElementType (operation : String) (x : Value) :
    (requireElementType operation x).Confined footprint :=
  .bind .state fun _ => .lift _

theorem confined_checkReadIndex (i : Value) : (checkReadIndex i).Confined footprint :=
  .bind (.lift _) fun _ => .check (confined_refuse _) fun _ =>
    .bind .state fun _ => .bind (.lift _) fun _ => .ite (confined_refuse _) (.pure _)

theorem confined_checkWriteIndex (i : Value) : (checkWriteIndex i).Confined footprint :=
  .bind (.lift _) fun _ => .check (confined_refuse _) fun _ => .bind .state fun _ => .bind (.lift _) fun _ =>
    .ite (.check (confined_refuse _) fun _ => .bind (.lift _) fun _ => .modify fun _ => rfl) (.pure _)

theorem confined_placeOf (i : Value) : (placeOf i).Confined footprint :=
  .bind (.lift _) fun _ => .bind .state fun _ => .check (.throw _) fun _ => .pure _

theorem confined_read (i : Value) : (read i).Confined footprint := by
  refine .bind confined_requireOpen fun _ => .bind (confined_checkReadIndex i) fun _ => .bind (.lift _) fun k =>
    .bind .state fun a => ?_
  split
  · exact .throw _
  refine .check (confined_refuse _) fun _ => ?_
  split
  · exact confined_refuse _
  · refine .bind (.modify fun a => ?_) fun _ => .pure _
    split <;> rfl

theorem id_pin (s : Shape) (a : TensorArray) : (a.pin s).id = a.id := by
  unfold pin
  split <;> rfl

theorem confined_write (i x : Value) : (write i x).Confined footprint :=
  .bind confined_requireOpen fun _ => .bind (confined_requireElementType "write" x) fun shape => .bind .state fun _ =>
    .bind (.lift _) fun _ => .bind (confined_checkWriteIndex i) fun _ => .bind (.modify (id_pin shape)) fun _ =>
    .bind (confined_placeOf i) fun _ => .bind (.lift _) fun _ => .modify fun _ => rfl

theorem confined_readEach (is : List Value) : (readEach is).Confined footprint := by
  induction is with
  | nil => exact .pure []
  | cons i is ih => exact .bind (confined_read i) fun _ => .bind ih fun _ => .pure _

theorem confined_writeEach (writes : List (Value × Value)) : (writeEach writes).Confined footprint := by
  induction writes with
  | nil => exact .pure ()
  | cons w writes ih => exact .bind (confined_write w.1 w.2) fun _ => ih

theorem confined_readMany (indices : Value) : (readMany indices).Confined footprint :=
  .bind (.lift _) confined_readEach

theorem confined_writeMany (indices tensors : Value) : (writeMany indices tensors).Confined footprint :=
  .bind (.lift _) fun _ => .bind (.lift _) fun _ => .check (confined_refuse _) fun _ => confined_writeEach _

theorem confined_scatter (indices x : Value) : (scatter indices x).Confined footprint := by
  refine .bind confined_requireOpen fun _ => .bind (confined_requireElementType "scatter" x) fun _ =>
    .bind (.lift _) fun is => .check (confined_refuse _) fun _ => ?_
  split
  · exact .pure ()
  refine .bind (.lift _) fun last => .bind .state fun a => ?_
  refine .ite (.bind (.lift _) fun past => .check (confined_refuse _) fun _ => ?_) ?_
  all_goals exact .bind (.lift _) fun t => .bind (.lift _) fun rows => confined_writeEach _

theorem confined_split (lengths x : Value) : (split lengths x).Confined footprint := by
  refine .bind confined_requireOpen fun _ => .bind (confined_requireElementType "split" x) fun _ => ?_
  split
  · exact confined_refuse _
  refine .bind (.lift _) fun ns => ?_
  refine .ite (.bind (.lift _) fun _ => .bind (confined_refuse _) fun _ => ?_) ?_
  all_goals
    exact .bind .state fun a => .check (confined_refuse _) fun _ => .bind (.lift _) fun t => .bind (.lift _) fun parts =>
      confined_writeEach _

/-! ### Tensor arrays in a session -/

theorem confined_checkAsked (operation : String) (dtype : Value) : (checkAsked operation dtype).Confined footprint :=
  .bind .state fun _ => .lift _

theorem confined_nothingOf (dropFirst : Bool) : (nothingOf dropFirst).Confined footprint.inSession :=
  .bind_object (fun _ => .onFirst (Session.confined_empty _ _ _)) fun p q h => by rw [h]

theorem confined_gather (indices dtype : Value) : (gather indices dtype).Confined footprint.inSession :=
  .bind confined_requireOpen.onSecond fun _ => .bind (confined_checkAsked "gather" dtype).onSecond fun _ =>
    .bind (.lift _) fun _ => .ite (confined_nothingOf false) <|
      .bind (confined_readEach _).onSecond fun _ => .lift _

theorem confined_concat (dtype : Value) : (concat dtype).Confined footprint.inSession :=
  .bind confined_requireOpen.onSecond fun _ => .bind (confined_checkAsked "concat" dtype).onSecond fun _ =>
    .bind_object (fun _ => .ite (confined_nothingOf true) <|
      .bind (confined_readEach _).onSecond fun _ => .check (confined_refuse _).onSecond fun _ => .lift _)
      fun p q h => by rw [h]

theorem confined_clearAndClose : clearAndClose.Confined footprint.inSession :=
  .bind ⟨by rintro ⟨s, a⟩ ⟨t, b⟩ ⟨hst, rfl⟩; exact ⟨rfl, hst, rfl⟩, fun p => ⟨.refl p.1, rfl⟩⟩ fun _ =>
    .bind_object (fun _ => .onFirst (Session.confined_record _ _)) fun p q h => by rw [h]

end TensorArray

/-! ### Queues -/

namespace Queue

open Dataflow.Action (Confined)

def footprint : Footprint Queue := .keeping Queue.id

theorem confined_enqueue (xs : List Value) : (enqueue xs).Confined footprint := by
  refine .of_keeps fun q => ?_
  rw [enqueue_eq]
  cases q.admitted xs <;> rfl

theorem confined_collected (q : Queue) (tuples : List (List Tensor)) :
    (q.collected tuples).Confined Session.footprint := by
  unfold collected
  split
  · exact .mapM _ fun _ => Session.confined_empty _ _ _
  · exact .lift _

/-- What a dequeue does in the session once tuples are taken. -/
def served (n : Nat) (num : Value) (q : Queue) : Action Session (List Tensor) := do
  Session.record .queue (takenLine n num (q.drop n))
  q.collected (q.tuples.take n)

theorem confined_served (n : Nat) (num : Value) (q : Queue) : (q.served n num).Confined Session.footprint :=
  .bind (Session.confined_record _ _) fun _ => confined_collected q _

theorem dequeueUpTo_served (num dtypes : Value) (s : Session) (q : Queue) :
    dequeueUpTo num dtypes (s, q) = match q.due num dtypes with
      | .error e => (.error e, s, q)
      | .ok n => ((q.served n num s).1, (q.served n num s).2, q.drop n) := by
  rw [dequeueUpTo_eq]
  cases q.due num dtypes with
  | error e => rfl
  | ok n =>
    simp only [served, Action.bind_apply]
    rcases Session.record .queue (takenLine n num (q.drop n)) s with ⟨e | ⟨⟩, t⟩ <;> rfl

theorem confined_dequeueUpTo (num dtypes : Value) : (dequeueUpTo num dtypes).Confined footprint.inSession where
  same := by
    rintro ⟨s, q⟩ ⟨t, q'⟩ ⟨hst, hqueue⟩
    obtain rfl : q = q' := hqueue
    rw [dequeueUpTo_served, dequeueUpTo_served]
    cases q.due num dtypes with
    | error e => exact ⟨rfl, hst, rfl⟩
    | ok n =>
      obtain ⟨hanswer, hsession⟩ := (confined_served n num q).same s t hst
      exact ⟨hanswer, hsession, rfl⟩
  keeps := by
    rintro ⟨s, q⟩
    rw [dequeueUpTo_served]
    cases q.due num dtypes with
    | error e => exact ⟨.refl s, rfl⟩
    | ok n => exact ⟨(confined_served n num q).keeps s, rfl⟩

end Queue

end Dataflow
