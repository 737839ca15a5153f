import Dataflow.Proofs.Objects
import Dataflow.Proofs.Twins

/-! The same work on either backend. Where a sequence of operations of tensor arrays and queues succeeds on tensors of the
    host, it succeeds on the same tensors held by the other backend, and after every step it has given the same answers
    and left the same in the arrays and queues. -/

namespace Dataflow

open Dataflow.Action (Follows)
open Dataflow.Action.Follows (Both)

/-! ### Uses of tensor arrays and queues -/

/-- What an operation answers with. -/
inductive Reply where
  | done
  | number (n : Nat)
  | tensors (xs : List Tensor)

/-- Answers whose tensors differ at most in who holds them. -/
inductive Reply.Agrees : Reply → Reply → Prop
  | done : Agrees .done .done
  | number (n : Nat) : Agrees (.number n) (.number n)
  | tensors {xs ys : List Tensor} (h : List.Forall₂ Tensor.Agrees xs ys) : Agrees (.tensors xs) (.tensors ys)

/-- A use of a tensor array: tensors that it works on, and the other arguments as they come. -/
inductive TensorArray.Use where
  | size
  | read (index : Value)
  | readMany (indices : Value)
  | write (index : Value) (x : Tensor)
  | writeMany (indices : Value) (xs : Sequence Tensor)
  | gather (indices dtype : Value)
  | scatter (indices : Value) (x : Tensor)
  | concat (dtype : Value)
  | split (lengths : Value) (x : Tensor)
  | clearAndClose

namespace TensorArray.Use

/-- The tensors that are handed over. -/
def tensors : Use → List Tensor
  | .write _ x | .scatter _ x | .split _ x => [x]
  | .writeMany _ xs => xs.members
  | _ => []

/-- The same use, of tensors that a device holds. -/
def on (b : Device) : Use → Use
  | .write i x => .write i (x.on b)
  | .writeMany is xs => .writeMany is (xs.map (Tensor.on b))
  | .scatter is x => .scatter is (x.on b)
  | .split ns x => .split ns (x.on b)
  | u => u

def perform : Use → Action (Session × TensorArray) Reply
  | .size => do return .number (← openSize.onSecond)
  | .read i => do return .tensors [← (TensorArray.read i).onSecond]
  | .readMany is => do return .tensors (← (TensorArray.readMany is).onSecond)
  | .write i x => do (TensorArray.write i (.tensor x)).onSecond; return .done
  | .writeMany is xs => do (TensorArray.writeMany is (xs.toValue .tensor)).onSecond; return .done
  | .gather is d => do return .tensors [← TensorArray.gather is d]
  | .scatter is x => do (TensorArray.scatter is (.tensor x)).onSecond; return .done
  | .concat d => do return .tensors [← TensorArray.concat d]
  | .split ns x => do (TensorArray.split ns (.tensor x)).onSecond; return .done
  | .clearAndClose => do TensorArray.clearAndClose; return .done

variable {u : Use}

theorem follows_perform (h : ∀ x ∈ u.tensors, x.device = .host ∧ x.Storable) :
    Follows Parallel Reply.Agrees u.perform (u.on .torch).perform := by
  cases u with
  | size =>
    refine .bind (.onSecond follows_openSize) fun n n' hn => ?_
    obtain rfl := hn
    exact .pure (.number n)
  | read i => exact .bind (.onSecond (follows_read i)) fun _ _ hx => .pure (.tensors (.cons hx.agrees .nil))
  | readMany is =>
    exact .bind (.onSecond (follows_readMany is)) fun _ _ hxs => .pure (.tensors (hxs.imp fun _ _ hx => hx.agrees))
  | write i x =>
    obtain ⟨hx, -⟩ := h x List.mem_cons_self
    exact .bind (.onSecond (follows_write i hx)) fun _ _ _ => .pure .done
  | writeMany is xs =>
    exact .bind (.onSecond (follows_writeMany is xs fun x hx => (h x hx).1)) fun _ _ _ => .pure .done
  | gather is d => exact .bind (follows_gather is d) fun _ _ hx => .pure (.tensors (.cons hx .nil))
  | scatter is x =>
    obtain ⟨hx, -⟩ := h x List.mem_cons_self
    exact .bind (.onSecond (follows_scatter is hx)) fun _ _ _ => .pure .done
  | concat d => exact .bind (follows_concat d) fun _ _ hx => .pure (.tensors (.cons hx .nil))
  | split ns x =>
    obtain ⟨hx, hstorable⟩ := h x List.mem_cons_self
    exact .bind (.onSecond (follows_split ns hx (hstorable.dims hx))) fun _ _ _ => .pure .done
  | clearAndClose => exact .bind follows_clearAndClose fun _ _ _ => .pure .done

end TensorArray.Use

/-! ### Contexts -/

namespace Context

/-- The context with the tensors in its arrays and queues held by a device. -/
def on (b : Device) (c : Context) : Context :=
  { c with arrays := c.arrays.map (TensorArray.on b), queues := c.queues.map (Queue.on b) }

/-- The arrays and queues of a context have tensors of the host. -/
structure OnHost (c : Context) : Prop where
  arrays : ∀ a ∈ c.arrays, a.OnHost
  queues : ∀ q ∈ c.queues, q.OnHost

/-- A context with tensors of the host, and the same one with its tensors held by the other backend. -/
structure Twin (c c' : Context) : Prop where
  host : c.OnHost
  eq : c' = c.on .torch

/-- Sessions and contexts of either backend. -/
def Parallel : Session × Context → Session × Context → Prop := Both Session.Parallel Twin

variable {α β : Type} {Q : α → β → Prop} {c c' : Context}

namespace Twin

theorem withArrays (h : Twin c c') {as : List TensorArray} (has : ∀ a ∈ as, a.OnHost) :
    Twin (c.withArrays as) (c'.withArrays (as.map (TensorArray.on .torch))) := by
  obtain ⟨hhost, rfl⟩ := h
  exact ⟨⟨has, hhost.queues⟩, rfl⟩

theorem withQueues (h : Twin c c') {qs : List Queue} (hqs : ∀ q ∈ qs, q.OnHost) :
    Twin (c.withQueues qs) (c'.withQueues (qs.map (Queue.on .torch))) := by
  obtain ⟨hhost, rfl⟩ := h
  exact ⟨⟨hhost.arrays, hqs⟩, rfl⟩

theorem getElem?_arrays (h : Twin c c') (k : Nat) : c'.arrays[k]? = c.arrays[k]?.map (TensorArray.on .torch) :=
  h.eq ▸ List.getElem?_map

theorem getElem?_queues (h : Twin c c') (k : Nat) : c'.queues[k]? = c.queues[k]?.map (Queue.on .torch) :=
  h.eq ▸ List.getElem?_map

end Twin

theorem follows_onArray {act : Action (Session × TensorArray) α} {act' : Action (Session × TensorArray) β}
    (h : Follows TensorArray.Parallel Q act act') (k : Nat) : Follows Parallel Q (onArray k act) (onArray k act') := by
  rintro ⟨s, c⟩ ⟨t, c'⟩ ⟨hst, hc⟩ x hx
  have hc : Twin c c' := hc
  cases ha : c.arrays[k]? with
  | none =>
    rw [onArray_none ha] at hx
    cases hx
  | some a =>
    have hmoved : c'.arrays[k]? = some (a.on .torch) := by
      rw [hc.getElem?_arrays, ha]
      rfl
    rw [onArray_some ha] at hx ⊢
    rw [onArray_some hmoved]
    obtain ⟨y, hy, hxy, hsession, htwin⟩ :=
      h (s, a) (t, a.on .torch) ⟨hst, hc.host.arrays a (List.mem_of_getElem? ha), rfl⟩ x hx
    have hset : c'.arrays.set k ((act (s, a)).2.2.on .torch) =
        (c.arrays.set k (act (s, a)).2.2).map (TensorArray.on .torch) := by
      rw [hc.eq, List.map_set]
      rfl
    rw [htwin.eq, hset]
    exact ⟨y, hy, hxy, hsession, hc.withArrays (forall_mem_set hc.host.arrays htwin.host k)⟩

theorem follows_onQueue {act : Action (Session × Queue) α} {act' : Action (Session × Queue) β}
    (h : Follows Queue.Parallel Q act act') (k : Nat) : Follows Parallel Q (onQueue k act) (onQueue k act') := by
  rintro ⟨s, c⟩ ⟨t, c'⟩ ⟨hst, hc⟩ x hx
  have hc : Twin c c' := hc
  cases hq : c.queues[k]? with
  | none =>
    rw [onQueue_none hq] at hx
    cases hx
  | some q =>
    have hmoved : c'.queues[k]? = some (q.on .torch) := by
      rw [hc.getElem?_queues, hq]
      rfl
    rw [onQueue_some hq] at hx ⊢
    rw [onQueue_some hmoved]
    obtain ⟨y, hy, hxy, hsession, htwin⟩ :=
      h (s, q) (t, q.on .torch) ⟨hst, hc.host.queues q (List.mem_of_getElem? hq), rfl⟩ x hx
    have hset : c'.queues.set k ((act (s, q)).2.2.on .torch) =
        (c.queues.set k (act (s, q)).2.2).map (Queue.on .torch) := by
      rw [hc.eq, List.map_set]
      rfl
    rw [htwin.eq, hset]
    exact ⟨y, hy, hxy, hsession, hc.withQueues (forall_mem_set hc.host.queues htwin.host k)⟩

theorem follows_addArray {a : TensorArray} (ha : ∀ slot ∈ a.slots, slot = .empty) :
    Follows Parallel Eq (addArray a) (addArray a) := by
  refine .refusal (.throw _) fun _ => .bind .state fun p p' hp => ?_
  rw [show p'.2.arrays.length = p.2.arrays.length from hp.2.eq ▸ List.length_map _]
  let numbered : TensorArray := { a with id := some p.2.arrays.length }
  have htwin : numbered.Twin numbered := .of_empty ha
  refine .bind (.onSecond (.modify fun c c' hc => ?_)) fun _ _ _ =>
    .bind (.onFirst (Session.follows_record _ _)) fun _ _ _ => .pure rfl
  have hadded : c'.arrays ++ [numbered] = (c.arrays ++ [numbered]).map (TensorArray.on .torch) := by
    rw [List.map_append, List.map_singleton, ← htwin.eq, hc.eq]
    rfl
  show Twin (c.withArrays (c.arrays ++ [numbered])) (c'.withArrays (c'.arrays ++ [numbered]))
  rw [hadded]
  exact hc.withArrays (forall_mem_concat hc.host.arrays htwin.host)

theorem follows_addQueue {q : Queue} (hq : q.tuples = []) : Follows Parallel Eq (addQueue q) (addQueue q) := by
  refine .refusal (.throw _) fun _ => .bind .state fun p p' hp => ?_
  rw [show p'.2.queues.length = p.2.queues.length from hp.2.eq ▸ List.length_map _]
  let numbered : Queue := { q with id := some p.2.queues.length }
  have htwin : numbered.Twin numbered := .of_empty hq
  refine .bind (.onSecond (.modify fun c c' hc => ?_)) fun _ _ _ =>
    .bind (.onFirst (Session.follows_record _ _)) fun _ _ _ => .pure rfl
  have hadded : c'.queues ++ [numbered] = (c.queues ++ [numbered]).map (Queue.on .torch) := by
    rw [List.map_append, List.map_singleton, ← htwin.eq, hc.eq]
    rfl
  show Twin (c.withQueues (c.queues ++ [numbered])) (c'.withQueues (c'.queues ++ [numbered]))
  rw [hadded]
  exact hc.withQueues (forall_mem_concat hc.host.queues htwin.host)

end Context

/-! ### Sequences of jobs -/

theorem TensorArray.follows_make {s t : Session} (h : Session.Parallel s t) (spec : TensorArray.Spec) :
    (make s spec).Follows (fun a a' => a = a' ∧ ∀ slot ∈ a.slots, slot = .empty) (make t spec) := by
  have hsame : make t spec = make s spec := by
    unfold make
    rw [h.dtypeInfo]
  rw [hsame]
  intro a ha
  refine ⟨a, ha, rfl, fun slot hslot => ?_⟩
  obtain ⟨info, -, ha⟩ := Outcome.bind_eq_ok.mp ha
  obtain ⟨negative, -, ha⟩ := Outcome.bind_eq_ok.mp ha
  split at ha
  · cases ha
  obtain ⟨shape, -, ha⟩ := Outcome.bind_eq_ok.mp ha
  obtain ⟨size, -, ha⟩ := Outcome.bind_eq_ok.mp ha
  cases ha
  exact List.eq_of_mem_replicate hslot

theorem Queue.follows_make {s t : Session} (h : Session.Parallel s t) (spec : Queue.Spec) :
    (make s spec).Follows (fun q q' => q = q' ∧ q.tuples = []) (make t spec) := by
  have hsame : make t spec = make s spec := by
    unfold make
    simp only [h.dtypeInfo]
  rw [hsame]
  exact fun q hq => ⟨q, hq, rfl, (fresh_of_make hq).tuples⟩

/-- A job in a context: an array or a queue is made, or one is used by its number. -/
inductive Job where
  | makeArray (spec : TensorArray.Spec)
  | useArray (k : Nat) (use : TensorArray.Use)
  | makeQueue (spec : Queue.Spec)
  | queueSize (k : Nat)
  | enqueue (k : Nat) (xs : List Tensor)
  | dequeueUpTo (k : Nat) (num dtypes : Value)

namespace Job

/-- The tensors that are handed over. -/
def tensors : Job → List Tensor
  | .useArray _ u => u.tensors
  | .enqueue _ xs => xs
  | _ => []

/-- The same job, with tensors that a device holds. -/
def on (b : Device) : Job → Job
  | .useArray k u => .useArray k (u.on b)
  | .enqueue k xs => .enqueue k (xs.map (Tensor.on b))
  | job => job

def perform : Job → Action (Session × Context) Reply
  | .makeArray spec => do
    let a ← TensorArray.make (← get).1 spec
    return .number (← Context.addArray a)
  | .useArray k u => Context.onArray k u.perform
  | .makeQueue spec => do
    let q ← Queue.make (← get).1 spec
    return .number (← Context.addQueue q)
  | .queueSize k => Context.onQueue k do return .number (← get).2.size
  | .enqueue k xs => Context.onQueue k do
    (Queue.enqueue (xs.map .tensor)).onSecond
    return .done
  | .dequeueUpTo k num dtypes => Context.onQueue k do return .tensors (← Queue.dequeueUpTo num dtypes)

/-- Jobs one after another, each with its answer and the context after it. -/
def performEach : List Job → Action (Session × Context) (List (Reply × Context))
  | [] => return []
  | job :: jobs => do
    let r ← job.perform
    let c := (← get).2
    return (r, c) :: (← performEach jobs)

variable {job : Job} {jobs : List Job}

theorem follows_perform (h : ∀ x ∈ job.tensors, x.device = .host ∧ x.Storable) :
    Follows Context.Parallel Reply.Agrees job.perform (job.on .torch).perform := by
  cases job with
  | makeArray spec =>
    refine .bind .state fun p p' hp => .bind (.lift (TensorArray.follows_make hp.1 spec)) fun a a' ha => ?_
    obtain ⟨rfl, hempty⟩ := ha
    refine .bind (Context.follows_addArray hempty) fun n n' hn => ?_
    obtain rfl := hn
    exact .pure (.number n)
  | useArray k u => exact Context.follows_onArray (TensorArray.Use.follows_perform h) k
  | makeQueue spec =>
    refine .bind .state fun p p' hp => .bind (.lift (Queue.follows_make hp.1 spec)) fun q q' hq => ?_
    obtain ⟨rfl, hempty⟩ := hq
    refine .bind (Context.follows_addQueue hempty) fun n n' hn => ?_
    obtain rfl := hn
    exact .pure (.number n)
  | queueSize k =>
    refine Context.follows_onQueue (.bind .state fun p p' hp => ?_) k
    rw [hp.2.eq, Queue.size_on]
    exact .pure (.number _)
  | enqueue k xs =>
    have hxs : ∀ x ∈ xs, x.device = .host := fun x hx => (h x hx).1
    exact Context.follows_onQueue (.bind (.onSecond (Queue.follows_enqueue hxs)) fun _ _ _ => .pure .done) k
  | dequeueUpTo k num dtypes =>
    exact Context.follows_onQueue (.bind (Queue.follows_dequeueUpTo num dtypes) fun _ _ hxs => .pure (.tensors hxs)) k

theorem follows_performEach (h : ∀ job ∈ jobs, ∀ x ∈ job.tensors, x.device = .host ∧ x.Storable) :
    Follows Context.Parallel (List.Forall₂ fun p q => p.1.Agrees q.1 ∧ q.2 = p.2.on .torch)
      (performEach jobs) (performEach (jobs.map (on .torch))) := by
  induction jobs with
  | nil => exact .pure .nil
  | cons job jobs ih =>
    obtain ⟨hjob, hjobs⟩ := List.forall_mem_cons.mp h
    refine .bind (follows_perform hjob) fun r r' hr => .bind .state fun p p' hp => .bind (ih hjobs) fun _ _ hrest => ?_
    exact .pure (.cons ⟨hr, hp.2.eq⟩ hrest)

/-- Where every job succeeds on tensors of the host, every one succeeds on the same tensors held by the other
    backend. After each of them the answers are the same, and so is what the arrays and queues hold, up to who holds
    it. -/
theorem torch_agrees_with_host {s t : Session} {c : Context} (hst : Session.Parallel s t)
    (hc : c.OnHost) (hjobs : ∀ job ∈ jobs, ∀ x ∈ job.tensors, x.device = .host ∧ x.Storable)
    {steps : List (Reply × Context)} (h : (performEach jobs (s, c)).1 = .ok steps) :
    ∃ steps', (performEach (jobs.map (on .torch)) (t, c.on .torch)).1 = .ok steps' ∧
      List.Forall₂ (fun p q => p.1.Agrees q.1 ∧ q.2 = p.2.on .torch) steps steps' := by
  obtain ⟨steps', hsteps, hagree, -⟩ := follows_performEach hjobs (s, c) (t, c.on .torch) ⟨hst, hc, rfl⟩ steps h
  exact ⟨steps', hsteps, hagree⟩

/-- An array gives two rows back the other way round. -/
theorem torch_agrees_with_host_two_rows :
    let s := Session.initial [] true false
    let t := Session.initial [("FLOWCTL_DEVICE", "torch")] true false
    let x : Tensor := ⟨.host, .int32, [1], [.whole 1], rfl⟩
    let y : Tensor := ⟨.host, .int32, [1], [.whole 2], rfl⟩
    let jobs : List Job :=
      [.makeArray ⟨.text "a", .text "int32", .int 2, .nothing, .flag false, .flag false, .flag true⟩,
        .useArray 0 (.write (.int 0) x), .useArray 0 (.write (.int 1) y),
        .useArray 0 (.gather (.list [.int 1, .int 0]) .nothing)]
    Session.Parallel s t ∧ Context.initial.OnHost ∧
      (∀ job ∈ jobs, ∀ x ∈ job.tensors, x.device = .host ∧ x.Storable) ∧
      ∃ steps, (performEach jobs (s, .initial)).1 = .ok steps ∧
        steps.map Prod.fst = [.number 0, .done, .done, .tensors [⟨.host, .int32, [2, 1], [.whole 2, .whole 1], rfl⟩]] ∧
        ∃ steps', (performEach (jobs.map (on .torch)) (t, .initial)).1 = .ok steps' ∧
          List.Forall₂ (fun p q => p.1.Agrees q.1 ∧ q.2 = p.2.on .torch) steps steps' := by
  intro s t x y jobs
  have hst : Session.Parallel s t := Or.inr ⟨rfl, rfl, rfl, rfl, rfl, rfl⟩
  have hc : Context.initial.OnHost := ⟨nofun, nofun⟩
  have hx : x.Storable := ⟨fun _ => by decide, fun _ => by decide, fun _ => by decide⟩
  have hy : y.Storable := ⟨fun _ => by decide, fun _ => by decide, fun _ => by decide⟩
  have hjobs : ∀ job ∈ jobs, ∀ x ∈ job.tensors, x.device = .host ∧ x.Storable := by
    simp only [jobs, List.forall_mem_cons, tensors, TensorArray.Use.tensors]
    exact ⟨nofun, ⟨⟨rfl, hx⟩, nofun⟩, ⟨⟨rfl, hy⟩, nofun⟩, nofun, nofun⟩
  have hreplies : List.map Prod.fst <$> (performEach jobs (s, .initial)).1 =
      .ok [.number 0, .done, .done, .tensors [⟨.host, .int32, [2, 1], [.whole 2, .whole 1], rfl⟩]] := by
    subst jobs x y s
    rfl
  obtain ⟨steps, hsteps, heq⟩ := Outcome.exists_of_map hreplies
  exact ⟨hst, hc, hjobs, steps, hsteps, heq, torch_agrees_with_host hst hc hjobs hsteps⟩

end Job

end Dataflow
