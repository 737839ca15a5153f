import Dataflow.Proofs.EdgeNames
import Dataflow.Proofs.InputEdges

/-! A tensor in place of another one. Outputs are found under keys, and an edge leads to an output under one key. Where
    the tensor there is replaced, the parameters that read this output read the other tensor, and all other ones read
    what they read before. -/

namespace Dataflow

theorem Outcome.mapM_congr {α β : Type} {f g : α → Outcome β} {l : List α} (h : ∀ x ∈ l, f x = g x) :
    l.mapM f = l.mapM g := by
  induction l with
  | nil => rfl
  | cons x l ih =>
    obtain ⟨hx, hl⟩ := List.forall_mem_cons.mp h
    rw [List.mapM_cons, List.mapM_cons, hx, ih hl]

namespace Values

variable {values : Values} {ids : List String} {node edge key : String} {slot : Nat} {x y : Tensor} {o : Outputs}

/-- The key under which the outputs of a node are found. -/
def key? (values : Values) (node : String) (ids : List String) : Option String :=
  (ids.map (Edge.key node)).find? fun k => (values.lookup k).any (!·.isEmpty)

theorem find?_eq_key? (values : Values) (node : String) (ids : List String) :
    values.find? node ids = (values.key? node ids).bind (values.lookup ·) := by
  induction ids with
  | nil => rfl
  | cons i ids ih =>
    rw [find?, List.findSome?_cons, key?, List.map_cons, List.find?_cons]
    cases hlookup : values.lookup (Edge.key node i) with
    | none => exact ih
    | some o =>
      cases o with
      | nil => exact ih
      | cons x o => exact hlookup.symm

/-- An edge leads to an output under a key. -/
def LeadsTo (values : Values) (ids : List String) (edge key : String) (slot : Nat) : Prop :=
  ∃ e, Edge.ofName edge = .ok e ∧ values.key? e.node ids = some key ∧ e.slot = slot

/-- A tensor is an output under a key. -/
def Holds (values : Values) (key : String) (slot : Nat) (x : Tensor) : Prop :=
  ∃ o, values.lookup key = some o ∧ o[slot]? = some (some x)

/-- The values with a tensor as an output under a key, in place of the one that is there. -/
def replace (values : Values) (key : String) (slot : Nat) (y : Tensor) : Values :=
  match values.lookup key with
  | some o => values.put key (o.set slot (some y))
  | none => values

theorem lookup_replace (hx : values.lookup key = some o) (j : String) :
    (values.replace key slot y).lookup j = if j = key then some (o.set slot (some y)) else values.lookup j := by
  rw [replace, hx]
  exact lookup_put values key j _

theorem key?_replace (h : values.Holds key slot x) (node : String) (ids : List String) :
    (values.replace key slot y).key? node ids = values.key? node ids := by
  obtain ⟨o, hlookup, -⟩ := h
  rw [key?, key?]
  congr 1
  funext j
  rw [lookup_replace hlookup]
  split
  · rename_i hj
    rw [hj, hlookup]
    cases o <;> cases slot <;> rfl
  · rfl

theorem get_of_leadsTo (h : values.Holds key slot x) (hedge : values.LeadsTo ids edge key slot) :
    values.get ids edge = .ok (some x) := by
  obtain ⟨e, hname, hkey, rfl⟩ := hedge
  obtain ⟨o, hlookup, hslot⟩ := h
  have hfind : values.find? e.node ids = some o := by rw [find?_eq_key?, hkey, Option.bind_some, hlookup]
  rw [get_of_find? hname hfind, hslot]
  rfl

theorem holds_replace (h : values.Holds key slot x) : (values.replace key slot y).Holds key slot y := by
  obtain ⟨o, hlookup, hslot⟩ := h
  refine ⟨o.set slot (some y), by rw [lookup_replace hlookup, if_pos rfl], ?_⟩
  exact List.getElem?_set_self (List.getElem?_eq_some_iff.mp hslot).1

theorem leadsTo_replace (h : values.Holds key slot x) (hedge : values.LeadsTo ids edge key slot) :
    (values.replace key slot y).LeadsTo ids edge key slot := by
  obtain ⟨e, hname, hkey, hslot⟩ := hedge
  exact ⟨e, hname, by rw [key?_replace h, hkey], hslot⟩

/-- What is on other edges stays. -/
theorem get_replace_of_not (h : values.Holds key slot x) (hedge : ¬values.LeadsTo ids edge key slot) :
    (values.replace key slot y).get ids edge = values.get ids edge := by
  cases hname : Edge.ofName edge with
  | error e => rw [get, get, hname, Outcome.error_bind, Outcome.error_bind]
  | ok e =>
    obtain ⟨o, hlookup, -⟩ := id h
    rw [get, get, hname, Outcome.ok_bind, Outcome.ok_bind, find?_eq_key?, find?_eq_key?, key?_replace h]
    cases hkey : values.key? e.node ids with
    | none => rfl
    | some j =>
      rw [Option.bind_some, Option.bind_some, lookup_replace hlookup]
      split
      · rename_i hj
        subst hj
        have hslot : slot ≠ e.slot := fun heq => hedge ⟨e, hname, hkey, heq.symm⟩
        rw [hlookup, Option.bind_some, Option.bind_some, List.getElem?_set_ne hslot]
      · rfl

end Values

namespace Node

variable {n : Node} {values : Values} {ids : List String} {name key : String} {slot : Nat} {t : ParamType}
  {x y : Tensor}

/-- The edges that a parameter reads. -/
def sources (n : Node) (p : InputParam) : List String :=
  match p.type with
  | .tensors => n.edges p
  | _ => (n.edge p).toOption.toList

/-- A parameter of a type reads an output under a key. -/
def Reads (n : Node) (values : Values) (ids : List String) (name : String) (t : ParamType) (key : String)
    (slot : Nat) : Prop :=
  ∃ p, n.params.lookup name = some p ∧ p.type = t ∧ ∃ edge ∈ n.sources p, values.LeadsTo ids edge key slot

theorem mem_sources {p : InputParam} {edge : String} (hp : p.type ≠ .tensors) :
    edge ∈ n.sources p ↔ n.edge p = .ok edge := by
  have hsources : n.sources p = (n.edge p).toOption.toList := by
    rw [sources]
    split
    · rename_i htensors
      exact absurd htensors hp
    · rfl
  rw [hsources]
  cases n.edge p with
  | error e => exact ⟨nofun, nofun⟩
  | ok e => exact List.mem_singleton.trans ⟨fun h => congrArg Except.ok h.symm, fun h => (Except.ok.inj h).symm⟩

theorem Reads.takes (h : n.Reads values ids name t key slot) (ht : t ≠ .tensors) (hx : values.Holds key slot x) :
    n.Takes values ids name t x := by
  obtain ⟨p, hparam, rfl, edge, hmem, hedge⟩ := h
  exact ⟨p, edge, hparam, rfl, (mem_sources ht).mp hmem, Values.get_of_leadsTo hx hedge⟩

theorem Reads.replace (h : n.Reads values ids name t key slot) (hx : values.Holds key slot x) (y : Tensor) :
    n.Reads (values.replace key slot y) ids name t key slot := by
  obtain ⟨p, hparam, htype, edge, hmem, hedge⟩ := h
  exact ⟨p, hparam, htype, edge, hmem, Values.leadsTo_replace hx hedge⟩

theorem param_replace_of_not_reads (hx : values.Holds key slot x) (h : ∀ t, ¬n.Reads values ids name t key slot) :
    n.param (values.replace key slot y) ids name = n.param values ids name := by
  cases hparam : n.params.lookup name with
  | none => rw [param, param, hparam]
  | some p =>
    have hget : ∀ edge ∈ n.sources p, (values.replace key slot y).get ids edge = values.get ids edge :=
      fun edge hedge => Values.get_replace_of_not hx fun hleads => h p.type ⟨p, hparam, rfl, edge, hedge, hleads⟩
    by_cases htype : p.type = .tensors
    · rw [sources, htype] at hget
      have hall := Outcome.mapM_congr hget
      simp only [param, hparam, htype, hall]
    · rw [param_eq_readEdge hparam htype, param_eq_readEdge hparam htype]
      cases hedge : n.edge p with
      | error e => rfl
      | ok edge =>
        rw [Outcome.ok_bind, Outcome.ok_bind, readEdge, readEdge, hget edge ((mem_sources htype).mpr hedge)]

end Node

end Dataflow
