import Dataflow.Proofs.Traces

/-! Lexical scoping. Whatever a driver does, an edge shows what was stored last for its node under the longest part of the
    current stack for which anything was, and nothing that was stored for another node or elsewhere. -/

namespace Dataflow

open Activation (stack contextId)

namespace Run

/-- The value on an output of a node, by the name of the edge. -/
def output (node : String) (k : Nat) (r : Run) : Outcome (Option Tensor) :=
  (lookup (node ++ ":" ++ toString k) r).1

theorem output_eq (node : String) (k : Nat) (r : Run) :
    r.output node k =
      if k < 10 ^ Text.longestNumeral then
        .ok ((r.values.find? node r.context.ids).bind fun outputs => (outputs[k]?).join)
      else .error .badValue := by
  have hget : r.output node k = r.values.get r.context.ids (node ++ ":" ++ toString k) := rfl
  rw [hget, Values.get, Edge.ofName_output]
  split <;> rfl

end Run

namespace Trace

variable {s : Session} {ms : List Move} {m : Move} {t u : Trace} {as : List Activation}

/-- The longest part of a path under which the outputs that were stored last for a node are not empty. -/
structure Innermost (stores : List Stored) (node : String) (path part : Path) (o : Outputs) : Prop where
  inside : part <+: path
  latest : Latest stores node part o
  nonempty : o ≠ []
  longest : ∀ other o', other <+: path → Latest stores node other o' → o' ≠ [] → other.length ≤ part.length

/-! ### Stores that do not matter -/

/-- Two traces with the same stacks, and with the same values under all keys but one. -/
structure Apart (key : String) (t u : Trace) : Prop where
  context : t.run.context = u.run.context
  values : ∀ j, j ≠ key → t.run.values.lookup j = u.run.values.lookup j

theorem Apart.step {key : String} (h : Apart key t u) (inv : Inv t as) (hm : m.Allowed t) :
    Apart key (t.step m) (u.step m) := by
  by_cases hstore : ∃ node o, m = .store node o
  · obtain ⟨node, o, rfl⟩ := hstore
    have hids := inv.current.ids_ne_nil
    have ht := run_step_store hids node o
    have hu := run_step_store (h.context ▸ hids : u.run.context.ids ≠ []) node o
    refine ⟨?_, fun j hj => ?_⟩
    · rw [context_step_store, context_step_store, h.context]
    · rw [ht, hu, Run.lookup_stored, Run.lookup_stored, h.context, h.values j hj]
  · simp only [not_exists] at hstore
    obtain ⟨bs, n, -, hmoves⟩ := inv.moves hm hstore
    obtain ⟨s', ht⟩ := hmoves t.run.session t.run.values
    obtain ⟨s'', hu⟩ := hmoves u.run.session u.run.values
    rw [h.context] at hu
    rw [step_of_not_store t hstore, step_of_not_store u hstore, ht, hu]
    exact ⟨congrArg (·.movedTo bs n) h.context, h.values⟩

theorem Apart.steps {key : String} {before : List Move} (after : List Move) (hlegal : Legal s (before ++ after))
    (h : Apart key (of s before) u) : Apart key (of s (before ++ after)) (after.foldl Trace.step u) := by
  induction after generalizing before u with
  | nil => rwa [List.append_nil]
  | cons m after ih =>
    obtain ⟨as, inv⟩ := Legal.inv hlegal.of_append
    have hstep := h.step inv hlegal.allowed
    rw [List.append_cons] at hlegal ⊢
    rw [← of_concat] at hstep
    exact ih hlegal hstep

/-! ### What an edge shows -/

/-- An output shows the value of the outputs that were stored last under the longest part of the current path for which
    these are not empty, or nothing if there is no such part. A store for another node, or under a path that the
    current one does not go on from, makes no difference. -/
theorem output_lexical (s : Session) {ms : List Move} (h : Legal s ms) {node : String} (hnode : Edge.Plain node)
    {k : Nat} (hk : k < 10 ^ Text.longestNumeral) :
    (∀ part o, Innermost (of s ms).stores node (of s ms).run.path part o →
      (of s ms).run.output node k = .ok (o[k]?).join) ∧
    ((∀ part o, part <+: (of s ms).run.path → Latest (of s ms).stores node part o → o = []) →
      (of s ms).run.output node k = .ok none) ∧
    (∀ before other o after, ms = before ++ .store other o :: after →
      other ≠ node ∨ ¬(of s before).run.path <+: (of s ms).run.path →
      (of s (before ++ after)).run.output node k = (of s ms).run.output node k) := by
  obtain ⟨as, inv⟩ := h.inv
  have named : ∀ bs, bs <+: as → ∀ b ∈ bs, b.Named := fun bs hb b hmem => inv.named b (hb.subset hmem)
  refine ⟨fun part o hin => ?_, fun hnone => ?_, fun before other o after heq hother => ?_⟩
  · have hne : part ≠ [] := inv.paths ⟨node, part, o⟩ hin.latest.mem
    obtain ⟨bs, hbs, rfl⟩ := Activation.exists_path_of_prefix hne (inv.path ▸ hin.inside)
    have hl := (inv.values node bs o hnode (named bs hbs)).mpr hin.latest
    have hfind := Values.find?_ids_eq_some hbs hin.nonempty hl fun cs o' hcs hlo ho => by
      have hle := hin.longest (Activation.path cs) o' (inv.path ▸ Activation.path_prefix hcs)
        ((inv.values node cs o' hnode (named cs hcs)).mp hlo) ho
      simpa [Activation.length_path] using hle
    rw [Run.output_eq, if_pos hk, inv.current.ids_eq, hfind]
    rfl
  · have hempty : ∀ bs o, bs <+: as → (of s ms).run.values.lookup (Edge.key node (contextId bs)) = some o → o = [] :=
      fun bs o hbs hl => hnone (Activation.path bs) o (inv.path ▸ Activation.path_prefix hbs)
        ((inv.values node bs o hnode (named bs hbs)).mp hl)
    have hfind := Values.find?_ids_eq_none hempty
    rw [Run.output_eq, if_pos hk, inv.current.ids_eq, hfind]
    rfl
  · subst heq
    obtain ⟨cs, invBefore⟩ := Legal.inv h.of_append
    have hplain : Edge.Plain other := (Legal.allowed h).node other o rfl
    -- The two traces differ at the key of that store alone, and no part of the current stack leads to it.
    have hstart : Apart (Edge.key other (contextId cs)) (of s (before ++ [.store other o])) (of s before) := by
      have hrun := run_step_store invBefore.current.ids_ne_nil other o
      rw [of_concat]
      refine ⟨context_step_store _ other o, fun j hj => ?_⟩
      rw [hrun, Run.lookup_stored_at invBefore.current, if_neg hj]
    have hend := Apart.steps after (by rwa [← List.append_cons]) hstart
    rw [← List.append_cons, ← of_append] at hend
    have hkey : ∀ bs, bs <+: as → Edge.key node (contextId bs) ≠ Edge.key other (contextId cs) := by
      intro bs hbs hkeys
      obtain ⟨rfl, hid⟩ := (Edge.key_inj hnode hplain (Activation.rooted_contextId bs)
        (Activation.rooted_contextId cs)).mp hkeys
      have hpath := Activation.path_inj.mpr ((Activation.contextId_inj (named bs hbs) invBefore.named).mp hid)
      rcases hother with hne | hout
      · exact hne rfl
      · refine hout ?_
        rw [invBefore.path, inv.path, ← hpath]
        exact Activation.path_prefix hbs
    rw [Run.output_eq, Run.output_eq, ← hend.context, inv.current.ids_eq,
      Values.find?_ids_congr fun bs hbs => hend.values _ (hkey bs hbs)]

/-- Inside a loop, an output shows what was stored for its node before the loop was entered. -/
theorem output_lexical_in_loop :
    let s := Session.initial [] false false
    let x := Tensor.scalar .host .int32 (.whole 1)
    let ms := [.store "x" [some x], .enter "loop"]
    Legal s ms ∧ Edge.Plain "x" ∧ 0 < 10 ^ Text.longestNumeral ∧ (of s ms).run.output "x" 0 = .ok (some x) := by
  intro s x ms
  have hplain : Edge.Plain "x" := by unfold Edge.Plain; decide
  have hpos : 0 < 10 ^ Text.longestNumeral := Nat.pow_pos (by decide)
  have hstore : Legal s [.store "x" [some x]] :=
    legal_concat (legal_nil s)
      ⟨by simp, fun _ _ h => by cases h; exact hplain, by simp, (inv_initial s).answer (by simp) (by simp)⟩
  have inv := inv_store (inv_initial s) (o := [some x]) hplain
  have hlegal : Legal s ms :=
    legal_concat hstore ⟨fun _ h => by cases h; decide, by simp, by simp, inv.answer (by simp) (by simp)⟩
  refine ⟨hlegal, hplain, hpos, ?_⟩
  refine (output_lexical s hlegal hplain hpos).1 (Activation.path []) [some x]
    ⟨?_, ⟨[], [], rfl, ⟨rfl, rfl⟩, by simp⟩, by simp, ?_⟩
  · obtain ⟨as, inv⟩ := hlegal.inv
    rw [inv.path]
    exact Activation.path_prefix List.nil_prefix
  · intro other o _ hlatest _
    cases List.mem_singleton.mp hlatest.mem
    exact Nat.le_refl _

/-- An output whose number has too many digits is no output, though nothing is stored that could be wrong. -/
theorem output_of_long_number :
    let t := of (.initial [] false false) []
    t.run.output "x" (10 ^ Text.longestNumeral) = .error .badValue ∧ Legal (.initial [] false false) [] ∧
      Edge.Plain "x" ∧ ∀ part o, ¬Latest t.stores "x" part o := by
  intro t
  refine ⟨?_, legal_nil _, by unfold Edge.Plain; decide, fun part o => not_lastOf_nil⟩
  rw [Run.output_eq, if_neg (Nat.lt_irrefl _)]

end Trace

end Dataflow
