import Dataflow.Graph.Run
import Dataflow.Proofs.FrameMoves
import Mathlib.Data.List.Induction

/-! Outputs as they are seen in a run. The outputs of a node are those under the longest part of the current stack for
    which there are any; outputs that are stored are seen from then on, and nothing else changes with them. -/

namespace Dataflow

open Activation (contextId)

/-! ### Outputs seen from a stack -/

namespace Values

variable {values : Values} {node : String} {as : List Activation}

theorem find?_concat (values : Values) (node : String) (as : List Activation) (a : Activation) :
    values.find? node (Activation.ids (as ++ [a])) =
      match values.lookup (Edge.key node (contextId (as ++ [a]))) with
      | some (o :: os) => some (o :: os)
      | _ => values.find? node (Activation.ids as) := by
  rw [find?, Activation.ids_concat, List.findSome?_cons]
  rcases values.lookup (Edge.key node (contextId (as ++ [a]))) with _ | _ | ⟨o, os⟩ <;> rfl

theorem find?_concat_of_empty {a : Activation}
    (h : ∀ o, values.lookup (Edge.key node (contextId (as ++ [a]))) = some o → o = []) :
    values.find? node (Activation.ids (as ++ [a])) = values.find? node (Activation.ids as) := by
  rw [find?_concat]
  rcases hl : values.lookup (Edge.key node (contextId (as ++ [a]))) with _ | _ | ⟨o, os⟩
  · rfl
  · rfl
  · cases h _ hl

theorem find?_nil (values : Values) (node : String) :
    values.find? node (Activation.ids []) =
      match values.lookup (Edge.key node (contextId [])) with
      | some (o :: os) => some (o :: os)
      | _ => none := by
  rw [find?, Activation.ids_nil, Activation.contextId_nil, List.findSome?_cons]
  rcases values.lookup (Edge.key node "") with _ | _ | ⟨o, os⟩ <;> rfl

theorem find?_ids_eq_some {bs : List Activation} {o : Outputs} (hb : bs <+: as) (ho : o ≠ [])
    (hl : values.lookup (Edge.key node (contextId bs)) = some o)
    (hlong : ∀ cs o', cs <+: as → values.lookup (Edge.key node (contextId cs)) = some o' → o' ≠ [] →
      cs.length ≤ bs.length) :
    values.find? node (Activation.ids as) = some o := by
  obtain ⟨x, xs, rfl⟩ := List.exists_cons_of_ne_nil ho
  induction as using List.reverseRecOn with
  | nil =>
    rw [List.prefix_nil.mp hb] at hl
    rw [find?_nil, hl]
  | append_singleton as a ih =>
    rcases List.prefix_concat_iff.mp hb with rfl | hb
    · rw [find?_concat, hl]
    · have hempty : ∀ o, values.lookup (Edge.key node (contextId (as ++ [a]))) = some o → o = [] := by
        intro o hlo
        by_contra hne
        have hle := hlong (as ++ [a]) o (List.prefix_refl _) hlo hne
        have := hb.length_le
        rw [List.length_append, List.length_singleton] at hle
        omega
      rw [find?_concat_of_empty hempty]
      exact ih hb fun cs o' hc => hlong cs o' (hc.trans (List.prefix_append _ _))

theorem find?_ids_eq_none (h : ∀ bs o, bs <+: as → values.lookup (Edge.key node (contextId bs)) = some o → o = []) :
    values.find? node (Activation.ids as) = none := by
  induction as using List.reverseRecOn with
  | nil =>
    rw [find?_nil]
    rcases hl : values.lookup (Edge.key node (contextId [])) with _ | _ | ⟨o, os⟩
    · rfl
    · rfl
    · cases h [] _ (List.prefix_refl _) hl
  | append_singleton as a ih =>
    rw [find?_concat_of_empty fun o => h (as ++ [a]) o (List.prefix_refl _)]
    exact ih fun bs o hb => h bs o (hb.trans (List.prefix_append _ _))

theorem find?_ids_congr {others : Values}
    (h : ∀ bs, bs <+: as →
      values.lookup (Edge.key node (contextId bs)) = others.lookup (Edge.key node (contextId bs))) :
    values.find? node (Activation.ids as) = others.find? node (Activation.ids as) := by
  induction as using List.reverseRecOn with
  | nil => rw [find?_nil, find?_nil, h [] (List.prefix_refl _)]
  | append_singleton as a ih =>
    rw [find?_concat, find?_concat, h (as ++ [a]) (List.prefix_refl _),
      ih fun bs hb => h bs (hb.trans (List.prefix_append _ _))]

end Values

namespace Run

theorem inContext_apply {α : Type} (a : Action (Session × Context) α) (r : Run) :
    inContext a r =
      ((a (r.session, r.context)).1,
        { r with session := (a (r.session, r.context)).2.1, context := (a (r.session, r.context)).2.2 }) := rfl

/-- The run after outputs have been stored for a node in the current context, which has an identifier. -/
def stored (node : String) (o : Outputs) (r : Run) : Run :=
  { r with values := r.values.put (Edge.key node (r.context.ids.headD "")) o }

/-- The outputs of a node that are seen. -/
def seen (node : String) (r : Run) : Option Outputs := r.values.find? node r.context.ids

variable {r : Run} {as : List Activation} {m n : String}

theorem store_apply (hids : r.context.ids ≠ []) (node : String) (o : Outputs) :
    store node o r = (.ok (), r.stored node o) := by
  obtain ⟨id, ids, hcons⟩ := List.exists_cons_of_ne_nil hids
  have hcurrent : r.context.currentId = .ok id := by rw [Context.currentId, hcons]
  have hid : r.context.ids.headD "" = id := by rw [hcons, List.headD_cons]
  simp only [store, put, stored, Action.bind_apply, Action.get_apply, Action.lift_apply, hcurrent, hid]
  rfl

/-- Without an identifier there is nothing that outputs could be stored under. -/
theorem store_of_no_ids (hids : r.context.ids = []) (node : String) (o : Outputs) :
    store node o r = (.error .indexOutOfRange, r) := by
  have hcurrent : r.context.currentId = .error .indexOutOfRange := by rw [Context.currentId, hids]
  simp only [store, Action.bind_apply, Action.get_apply, Action.lift_apply, hcurrent]

theorem context_store (node : String) (o : Outputs) (r : Run) : (store node o r).2.context = r.context := by
  by_cases hids : r.context.ids = []
  · rw [store_of_no_ids hids]
  · rw [store_apply hids]
    rfl

theorem lookup_stored (node key : String) (o : Outputs) (r : Run) :
    (r.stored node o).values.lookup key =
      if key = Edge.key node (r.context.ids.headD "") then some o else r.values.lookup key :=
  Values.lookup_put _ _ _ _

theorem lookup_stored_at (h : r.context.At as) (node key : String) (o : Outputs) :
    (r.stored node o).values.lookup key =
      if key = Edge.key node (contextId as) then some o else r.values.lookup key := by
  rw [lookup_stored, h.headD_ids]

/-- Outputs that are stored are there for their node under the current stack alone. -/
theorem lookup_stored_self (h : r.context.At as) (hn : Edge.Plain n) (o : Outputs) (bs : List Activation) :
    (r.stored n o).values.lookup (Edge.key n (contextId bs)) =
      if contextId bs = contextId as then some o else r.values.lookup (Edge.key n (contextId bs)) := by
  have hkey := Edge.key_inj hn hn (Activation.rooted_contextId bs) (Activation.rooted_contextId as)
  rw [lookup_stored_at h]
  by_cases hsame : contextId bs = contextId as
  · rw [if_pos (hkey.mpr ⟨rfl, hsame⟩), if_pos hsame]
  · rw [if_neg fun hk => hsame (hkey.mp hk).2, if_neg hsame]

theorem lookup_stored_of_ne (h : r.context.At as) (hm : Edge.Plain m) (hn : Edge.Plain n) (hmn : m ≠ n) (o : Outputs)
    (bs : List Activation) :
    (r.stored n o).values.lookup (Edge.key m (contextId bs)) = r.values.lookup (Edge.key m (contextId bs)) := by
  have hkey := Edge.key_inj hm hn (Activation.rooted_contextId bs) (Activation.rooted_contextId as)
  rw [lookup_stored_at h, if_neg fun hk => hmn (hkey.mp hk).1]

theorem seen_stored_self (h : r.context.At as) {o : Outputs} (ho : o ≠ []) : (r.stored n o).seen n = some o := by
  rw [seen]
  show (r.stored n o).values.find? n r.context.ids = _
  rw [h.ids_eq]
  refine Values.find?_ids_eq_some (List.prefix_refl as) ho ?_ fun cs o' hcs _ _ => hcs.length_le
  rw [lookup_stored_at h, if_pos rfl]

theorem seen_stored_of_ne (h : r.context.At as) (hm : Edge.Plain m) (hn : Edge.Plain n) (hmn : m ≠ n) (o : Outputs) :
    (r.stored n o).seen m = r.seen m := by
  rw [seen, seen]
  show (r.stored n o).values.find? m r.context.ids = _
  rw [h.ids_eq]
  exact Values.find?_ids_congr fun bs _ => lookup_stored_of_ne h hm hn hmn o bs

end Run

end Dataflow
