import Dataflow.Proofs.DispatchCache

/-! Caches of fresh lookups. Whatever is registered and dispatched, what is cached for some types is what a lookup finds
    for just these; so that the cache stands for a lookup wherever equal types are not told apart. -/

namespace Dataflow

namespace Action

variable {σ α β : Type} {I : σ → Prop}

/-- From a state of a kind, the action ends in a state of that kind, even if it fails. -/
def Keeps (I : σ → Prop) (a : Action σ α) : Prop := ∀ s, I s → I (a s).2

namespace Keeps

theorem lift (o : Outcome α) : (liftM o : Action σ α).Keeps I := fun _ hs => hs

theorem pure (x : α) : (pure x : Action σ α).Keeps I := fun _ hs => hs

theorem throw (e : Failure) : (throw e : Action σ α).Keeps I := fun _ hs => hs

theorem modify {g : σ → σ} (h : ∀ s, I s → I (g s)) : (modify g : Action σ Unit).Keeps I := h

theorem bind {a : Action σ α} {f : α → Action σ β} (ha : a.Keeps I) (hf : ∀ x, (f x).Keeps I) : (a >>= f).Keeps I := by
  intro s hs
  have hkept := ha s hs
  rcases has : a s with ⟨e | x, t⟩
  · rw [has] at hkept
    rwa [bind_error has]
  · rw [has] at hkept
    rw [bind_ok has]
    exact hf x t hkept

end Keeps

end Action

namespace Dispatch

section Run

variable {σ : Type} {I : σ → Prop} {m : Means σ} (hselect : ∀ ts, (m.select ts).Keeps I)
  (hdevice : m.defaultDevice.Keeps I) (hknown : ∀ xs, (m.requireKnown xs).Keeps I)

include hselect hdevice hknown

theorem keeps_run_of {redirects : Nat} (hnested : ∀ n, redirects = n + 1 → ∀ os, (run m n os).Keeps I)
    (os : List Operand) : (run m redirects os).Keeps I := by
  rw [run]
  refine (hselect _).bind fun implementation => ?_
  cases os with
  | nil => exact .throw _
  | cons o rest =>
    cases implementation with
    | kernel device kind => exact (Action.Keeps.lift _).bind fun xs => (hknown xs).bind fun _ => .pure _
    | named n => exact .pure _
    | redirect =>
      cases o with
      | placed inner device =>
        refine hdevice.bind fun name => ?_
        cases redirects with
        | zero => exact .throw _
        | succ n => exact hnested n rfl _
      | _ => exact .throw _

/-- A dispatch keeps what its means keep. -/
theorem keeps_run (redirects : Nat) (os : List Operand) : (run m redirects os).Keeps I := by
  induction redirects generalizing os with
  | zero => exact keeps_run_of hselect hdevice hknown (fun n hn => absurd hn (Nat.succ_ne_zero n).symm) os
  | succ n ih =>
    refine keeps_run_of hselect hdevice hknown (fun k hk os => ?_) os
    obtain rfl := Nat.succ.inj hk
    exact ih os

end Run

end Dispatch

namespace Dispatcher

/-- What is cached for some types is what a lookup finds for them. -/
def Fresh (d : Dispatcher) : Prop := ∀ e ∈ d.cache, d.table.lookup e.1 = .ok e.2

theorem fresh_initial (s : Session) (base : Bool) : (initial s base).Fresh := nofun

theorem fresh_onSession {α : Type} (a : Action Session α) : (onSession a).Keeps Fresh := fun _ hd => hd

theorem fresh_onTypes {α : Type} (a : Action TypeStore α) : (onTypes a).Keeps Fresh := fun _ hd => hd

variable {d : Dispatcher} {ts : List TypeExpr}

/-- A lookup that succeeds is cached, where nothing is yet. -/
theorem select_new (h : d.cached? ts = none) : select ts d = match d.table.lookup ts with
    | .ok f => (.ok f, { d with cache := d.cache ++ [(ts, f)] })
    | .error e => (.error e, d) := by
  rw [select, Action.bind_ok (Action.get_apply d)]
  simp only [h]
  cases d.table.lookup ts <;> rfl

theorem select_cached {f : Implementation} (h : d.cached? ts = some f) : select ts d = (.ok f, d) := by
  rw [select, Action.bind_ok (Action.get_apply d)]
  simp only [h]
  rfl

theorem fresh_select (ts : List TypeExpr) : (select ts).Keeps Fresh := by
  intro d hd
  cases hcached : d.cached? ts with
  | some f =>
    rw [select_cached hcached]
    exact hd
  | none =>
    rw [select_new hcached]
    cases hlookup : d.table.lookup ts with
    | error e => exact hd
    | ok f =>
      intro e he
      rcases List.mem_append.mp he with he | he
      · exact hd e he
      · rw [List.mem_singleton.mp he]
        exact hlookup

theorem fresh_selectMade (ts : List TypeExpr) : (selectMade ts).Keeps Fresh := by
  unfold selectMade
  cases TypeExpr.areKeys ts with
  | false => exact .throw _
  | true => exact (fresh_onTypes _).bind fun _ => fresh_select _

theorem fresh_dispatch (os : List Operand) : (dispatch os).Keeps Fresh :=
  (fresh_onTypes _).bind fun _ =>
    Dispatch.keeps_run fresh_selectMade (fresh_onSession _) (fun _ => fresh_onSession _) _ _

/-- A registration empties the cache. -/
theorem fresh_register (c : Declaration) : (register c).Keeps Fresh := by
  refine (fresh_onTypes _).bind fun e => Action.Keeps.bind ?_ fun _ => .pure _
  exact (fresh_onSession _).bind fun _ => .modify fun _ _ => nofun

theorem Fresh.after (hd : d.Fresh) (e : Event) : (d.after e).Fresh := by
  cases e with
  | register c => exact fresh_register c d hd
  | dispatch os => exact fresh_dispatch os d hd

/-- After any registrations and dispatches, the cache holds fresh lookups. -/
theorem Fresh.of (hd : d.Fresh) (es : List Event) : (d.of es).Fresh := by
  induction es using List.reverseRecOn with
  | nil => exact hd
  | append_singleton es e ih =>
    rw [of_concat]
    exact ih.after e

/-- From a cache of fresh lookups, equal types that are not told apart are selected for as a lookup does. -/
theorem Fresh.select_eq (hd : d.Fresh)
    (hcache : ∀ e ∈ d.cache, TypeExpr.sameAll e.1 ts = true → LookAlike e.1 ts ∧ d.table.Undecided e.1 ts) :
    (select ts d).1 = d.table.lookup ts := by
  cases hcached : d.cached? ts with
  | none =>
    rw [select_new hcached]
    cases d.table.lookup ts <;> rfl
  | some f =>
    rw [select_cached hcached]
    obtain ⟨e, he, rfl⟩ := Option.map_eq_some_iff.mp hcached
    have hsame := List.find?_some he
    have hmem := List.mem_of_find?_eq_some he
    obtain ⟨hlook, hundecided⟩ := hcache e hmem hsame
    exact ((Table.lookup_lookAlike hundecided hlook).mp (hd e hmem)).symm

end Dispatcher

end Dataflow
