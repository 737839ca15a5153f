import Dataflow.Proofs.History
import Dataflow.Proofs.Runs

/-! Runs under a driver that moves the stack of frames and stores outputs in the current context; stacks that were there
    before may be put back. After every move the values are what was stored last under each path of loops. -/

namespace Dataflow

/-- The names and iterations on a stack of frames, the root first. -/
abbrev Path := List (Value × Value)

namespace Run

def path (r : Run) : Path := r.context.frames.map fun f => (f.name, f.iteration)

end Run

/-- What a driver does to a run. -/
inductive Move where
  | enter (name : String)
  | exit
  | nextIteration
  | restore (frames : List Frame)
  | store (node : String) (outputs : Outputs)

def Move.perform : Move → Action Run Unit
  | .enter name => Run.inContext (Context.enterFrame (.text name))
  | .exit => Run.inContext Context.exitFrame
  | .nextIteration => Run.inContext Context.nextIteration.onSecond
  | .restore frames => Run.inContext (Context.setFrames frames).onSecond
  | .store node outputs => Run.store node outputs

/-- Outputs that were stored, with the node and the path that they were stored under. -/
structure Stored where
  node : String
  path : Path
  outputs : Outputs

/-- A run and what has happened in it. -/
structure Trace where
  run : Run
  /-- The stacks of frames that there were, up to the current one. -/
  earlier : List (List Frame)
  /-- What was stored, the latest last. -/
  stores : List Stored

namespace Trace

def initial (s : Session) : Trace := ⟨.initial s, [[.root]], []⟩

def step (t : Trace) (m : Move) : Trace :=
  let r := (m.perform t.run).2
  match m with
  | .store node outputs => { t with run := r, stores := t.stores ++ [⟨node, t.run.path, outputs⟩] }
  | _ => { t with run := r, earlier := t.earlier ++ [r.context.frames] }

/-- The trace of moves one after another, those that fail included. -/
def of (s : Session) (ms : List Move) : Trace := ms.foldl step (initial s)

end Trace

namespace Move

/-- A move that is made with proper names and stacks. It may be refused, but does not fail otherwise. -/
structure Allowed (m : Move) (t : Trace) : Prop where
  name : ∀ name, m = .enter name → '/' ∉ name.toList
  node : ∀ node o, m = .store node o → Edge.Plain node
  stack : ∀ frames, m = .restore frames → frames ∈ t.earlier
  answer : ∀ e, (m.perform t.run).1 = .error e → ∃ cause, e = .refused cause

end Move

namespace Trace

/-- Every move is allowed where it is made. -/
def Legal (s : Session) (ms : List Move) : Prop :=
  ∀ before m after, ms = before ++ m :: after → m.Allowed (of s before)

/-- What was stored last for a node under a path. -/
def Latest (stores : List Stored) (node : String) (path : Path) (o : Outputs) : Prop :=
  LastOf (fun e => e.node = node ∧ e.path = path) stores ⟨node, path, o⟩

end Trace

/-! ### Paths of stacks -/

namespace Activation

/-- The names and iterations on the stack of loops. -/
def path (as : List Activation) : Path := (stack as).map fun f => (f.name, f.iteration)

theorem path_inj {as bs : List Activation} : path as = path bs ↔ as.map mark = bs.map mark := by
  have h : ∀ as : List Activation,
      path as = (.text "", .int 0) :: (as.map mark).map fun m => (.text m.1, .int m.2) := fun as => by
    rw [path, stack, List.map_cons, List.map_map, List.map_map]
    rfl
  rw [h, h, List.cons_inj_right, List.map_inj_right]
  rintro ⟨n, k⟩ ⟨m, l⟩ hkl
  simp only [Prod.mk.injEq, Value.text.injEq, Value.int.injEq, Int.natCast_inj] at hkl
  rw [hkl.1, hkl.2]

theorem length_path (as : List Activation) : (path as).length = as.length + 1 := by simp [path, stack]

theorem path_prefix {as bs : List Activation} (h : bs <+: as) : path bs <+: path as := by
  rw [path, path, stack, stack, List.map_cons, List.map_cons, List.prefix_cons_inj]
  exact (h.map _).map _

theorem exists_path_of_prefix {as : List Activation} {part : Path} (hne : part ≠ []) (h : part <+: path as) :
    ∃ bs, bs <+: as ∧ part = path bs := by
  obtain ⟨p, part, rfl⟩ := List.exists_cons_of_ne_nil hne
  rw [path, stack, List.map_cons, List.cons_prefix_cons, List.map_map] at h
  obtain ⟨rfl, h⟩ := h
  refine ⟨as.take part.length, List.take_prefix _ _, ?_⟩
  rw [path, stack, List.map_cons, List.map_map, List.map_take, ← List.prefix_iff_eq_take.mp h]

end Activation

/-! ### Moves -/

namespace Trace

open Activation (stack contextId)

variable {s : Session} {ms : List Move} {m : Move} {t u : Trace} {as : List Activation}

theorem of_append (s : Session) (ms ns : List Move) : of s (ms ++ ns) = ns.foldl step (of s ms) := List.foldl_append

theorem of_concat (s : Session) (ms : List Move) (m : Move) : of s (ms ++ [m]) = (of s ms).step m := of_append s ms [m]

theorem legal_nil (s : Session) : Legal s [] := fun before m after h => by cases before <;> cases h

theorem Legal.of_append {ns : List Move} (h : Legal s (ms ++ ns)) : Legal s ms := fun before m after heq =>
  h before m (after ++ ns) (by rw [heq, List.append_assoc, List.cons_append])

theorem Legal.allowed {after : List Move} (h : Legal s (ms ++ m :: after)) : m.Allowed (of s ms) := h ms m after rfl

theorem legal_concat (h : Legal s ms) (hm : m.Allowed (of s ms)) : Legal s (ms ++ [m]) := by
  intro before m' after heq
  rcases List.eq_nil_or_concat after with rfl | ⟨after, m'', rfl⟩
  · obtain ⟨rfl, he⟩ := List.append_inj' heq rfl
    cases he
    exact hm
  · rw [List.concat_eq_append, ← List.cons_append, ← List.append_assoc] at heq
    obtain ⟨rfl, -⟩ := List.append_inj' heq rfl
    exact h before m' after rfl

/-- What holds of every trace: the current stack and those before it are stacks of proper loops, and the values are what
    was stored last. -/
structure Inv (t : Trace) (as : List Activation) : Prop where
  current : t.run.context.At as
  named : ∀ a ∈ as, a.Named
  earlier : ∀ fs ∈ t.earlier, ∃ bs, fs = stack bs ∧ ∀ b ∈ bs, b.Named
  paths : ∀ e ∈ t.stores, e.path ≠ []
  values : ∀ node bs o, Edge.Plain node → (∀ b ∈ bs, b.Named) →
    (t.run.values.lookup (Edge.key node (contextId bs)) = some o ↔ Latest t.stores node (Activation.path bs) o)

theorem Inv.path (h : Inv t as) : t.run.path = Activation.path as := by
  rw [Run.path, h.current.frames_eq, Activation.path]

theorem inv_initial (s : Session) : Inv (initial s) [] where
  current := Context.at_initial
  named := by simp
  earlier := fun fs hfs => ⟨[], List.mem_singleton.mp hfs, by simp⟩
  paths := by simp [initial]
  values := fun node bs o _ _ => Iff.intro (fun h => nomatch h) fun h => absurd h not_lastOf_nil

/-- A move of the stack leads to one stack of proper loops, whatever the session and the values are. -/
theorem Inv.moves (h : Inv t as) (hm : m.Allowed t) (hstore : ∀ node o, m ≠ .store node o) :
    ∃ bs n, (∀ b ∈ bs, b.Named) ∧
      ∀ s vs, ∃ s', (m.perform ⟨s, t.run.context, vs⟩).2 = ⟨s', t.run.context.movedTo bs n, vs⟩ := by
  have hc := h.current
  have hstay : (t.run.context.movedTo as t.run.context.lastId) = t.run.context := hc.eq_movedTo
  cases m with
  | enter name =>
    refine ⟨as ++ [.first t.run.context.lastId name], t.run.context.lastId + 1, ?_, fun s vs => ?_⟩
    · intro b hb
      rcases List.mem_append.mp hb with hb | hb
      · exact h.named b hb
      · rw [List.mem_singleton.mp hb]
        exact hm.name name rfl
    · rw [Move.perform, Run.inContext_apply, Context.enterFrame_eq hc]
      exact ⟨_, rfl⟩
  | exit =>
    rcases List.eq_nil_or_concat as with rfl | ⟨as, a, rfl⟩
    · refine ⟨[], t.run.context.lastId, by simp, fun s vs => ⟨s, ?_⟩⟩
      rw [Move.perform, Run.inContext_apply, Context.exitFrame_root hc, hstay]
    · rw [List.concat_eq_append] at hc h
      refine ⟨as, t.run.context.lastId, fun b hb => h.named b (by simp [hb]), fun s vs => ?_⟩
      rw [Move.perform, Run.inContext_apply, Context.exitFrame_eq hc]
      exact ⟨_, rfl⟩
  | nextIteration =>
    rcases List.eq_nil_or_concat as with rfl | ⟨as, a, rfl⟩
    · refine ⟨[], t.run.context.lastId, by simp, fun s vs => ⟨s, ?_⟩⟩
      rw [Move.perform, Run.inContext_apply, Action.onSecond_apply, Context.nextIteration_root hc, hstay]
    · rw [List.concat_eq_append] at hc h
      by_cases ha : a.iteration + 1 < 10 ^ Text.longestNumeral
      · refine ⟨as ++ [a.next t.run.context.lastId ha], t.run.context.lastId + 1, ?_, fun s vs => ⟨s, ?_⟩⟩
        · intro b hb
          rcases List.mem_append.mp hb with hb | hb
          · exact h.named b (by simp [hb])
          · rw [List.mem_singleton.mp hb]
            exact h.named a (by simp)
        · rw [Move.perform, Run.inContext_apply, Action.onSecond_apply, Context.nextIteration_eq hc ha]
      · -- Without a number that can be written, the move fails, and not by refusal.
        obtain ⟨cause, hcause⟩ := hm.answer .badValue (by
          rw [Move.perform, Run.inContext_apply, Action.onSecond_apply]
          exact Context.nextIteration_badValue hc ha)
        cases hcause
  | restore frames =>
    obtain ⟨bs, rfl, hbs⟩ := h.earlier frames (hm.stack frames rfl)
    refine ⟨bs, t.run.context.lastId, hbs, fun s vs => ⟨s, ?_⟩⟩
    rw [Move.perform, Run.inContext_apply, Action.onSecond_apply, Context.setFrames_eq hc]
  | store node o => exact absurd rfl (hstore node o)

/-- No move fails otherwise than by refusal as long as the numbers of the iterations can be written. -/
theorem Inv.answer (h : Inv t as) (hstack : ∀ frames, m = .restore frames → frames ∈ t.earlier)
    (hcount : m = .nextIteration → ∀ a ∈ as, a.iteration + 1 < 10 ^ Text.longestNumeral) (e : Failure)
    (he : (m.perform t.run).1 = .error e) : ∃ cause, e = .refused cause := by
  have hc := h.current
  cases m with
  | enter name =>
    rw [Move.perform, Run.inContext_apply, Context.enterFrame_eq hc] at he
    cases he
  | exit =>
    rcases List.eq_nil_or_concat as with rfl | ⟨as, a, rfl⟩
    · rw [Move.perform, Run.inContext_apply, Context.exitFrame_root hc] at he
      exact ⟨_, (Except.error.inj he).symm⟩
    · rw [List.concat_eq_append] at hc
      rw [Move.perform, Run.inContext_apply, Context.exitFrame_eq hc] at he
      cases he
  | nextIteration =>
    rcases List.eq_nil_or_concat as with rfl | ⟨as, a, rfl⟩
    · rw [Move.perform, Run.inContext_apply, Action.onSecond_apply, Context.nextIteration_root hc] at he
      exact ⟨_, (Except.error.inj he).symm⟩
    · rw [List.concat_eq_append] at hc hcount
      have ha := hcount rfl a (by simp)
      rw [Move.perform, Run.inContext_apply, Action.onSecond_apply, Context.nextIteration_eq hc ha] at he
      cases he
  | restore frames =>
    obtain ⟨bs, rfl, -⟩ := h.earlier frames (hstack frames rfl)
    rw [Move.perform, Run.inContext_apply, Action.onSecond_apply, Context.setFrames_eq hc] at he
    cases he
  | store node o =>
    rw [Move.perform, Run.store_apply hc.ids_ne_nil] at he
    cases he

theorem step_of_not_store (t : Trace) (hstore : ∀ node o, m ≠ .store node o) :
    t.step m =
      { t with run := (m.perform t.run).2, earlier := t.earlier ++ [(m.perform t.run).2.context.frames] } := by
  cases m with
  | store node o => exact absurd rfl (hstore node o)
  | _ => rfl

/-- Stores leave the context as it is, also those that fail. -/
theorem context_step_store (t : Trace) (node : String) (o : Outputs) :
    (t.step (.store node o)).run.context = t.run.context := Run.context_store node o t.run

theorem run_step_store (hids : t.run.context.ids ≠ []) (node : String) (o : Outputs) :
    (t.step (.store node o)).run = t.run.stored node o := by
  rw [step, Move.perform, Run.store_apply hids]

theorem inv_store (h : Inv t as) {node : String} {o : Outputs} (hnode : Edge.Plain node) :
    Inv (t.step (.store node o)) as where
  current := context_step_store t node o ▸ h.current
  named := h.named
  earlier := h.earlier
  paths := by
    intro e he
    rcases List.mem_append.mp he with he | he
    · exact h.paths e he
    · rw [List.mem_singleton.mp he, h.path, Activation.path]
      simp [stack]
  values := by
    intro node' bs o' hnode' hbs
    -- The key of a store is the key of one node under one path, so that it takes the place of nothing else.
    have hkey := Edge.key_inj hnode' hnode (Activation.rooted_contextId bs) (Activation.rooted_contextId as)
    have hpath : contextId bs = contextId as ↔ Activation.path as = Activation.path bs := by
      rw [Activation.contextId_inj hbs h.named, ← Activation.path_inj, eq_comm]
    rw [run_step_store h.current.ids_ne_nil, Run.lookup_stored_at h.current]
    show _ ↔ Latest (t.stores ++ [⟨node, t.run.path, o⟩]) node' (Activation.path bs) o'
    rw [h.path]
    by_cases hsame : node' = node ∧ contextId bs = contextId as
    · rw [if_pos (hkey.mpr hsame), Latest, lastOf_concat_of_kind ⟨hsame.1.symm, hpath.mp hsame.2⟩]
      simp [hsame.1, hpath.mp hsame.2]
    · rw [if_neg (fun hk => hsame (hkey.mp hk)), h.values node' bs o' hnode' hbs, Latest, Latest,
        lastOf_concat_of_not_kind]
      exact fun hp => hsame ⟨hp.1.symm, hpath.mpr hp.2⟩

theorem Inv.step (h : Inv t as) (hm : m.Allowed t) : ∃ bs, Inv (t.step m) bs := by
  by_cases hstore : ∃ node o, m = .store node o
  · obtain ⟨node, o, rfl⟩ := hstore
    exact ⟨as, inv_store h (hm.node node o rfl)⟩
  · simp only [not_exists] at hstore
    obtain ⟨bs, n, hbs, hmoves⟩ := h.moves hm hstore
    obtain ⟨s', hrun⟩ := hmoves t.run.session t.run.values
    rw [step_of_not_store t hstore, hrun]
    refine ⟨bs, ⟨Context.at_movedTo _ _ _, hbs, fun fs hfs => ?_, h.paths, h.values⟩⟩
    rcases List.mem_append.mp hfs with hfs | hfs
    · exact h.earlier fs hfs
    · exact ⟨bs, List.mem_singleton.mp hfs, hbs⟩

theorem Legal.inv (h : Legal s ms) : ∃ as, Inv (of s ms) as := by
  induction ms using List.reverseRecOn with
  | nil => exact ⟨[], inv_initial s⟩
  | append_singleton ms m ih =>
    obtain ⟨as, inv⟩ := ih h.of_append
    rw [of_concat]
    exact inv.step h.allowed

end Trace

end Dataflow
