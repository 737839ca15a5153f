import Dataflow.Proofs.Parameters

/-! The input edge of a parameter. A start that is not negative names the edge at its place, and a negative one is
    counted from the end. A start in front of the first edge is counted from the end once more, so that it names an edge
    again; only past the second count there is none. -/

namespace Dataflow

section Positions

variable {n k : Nat} {i : Int}

theorem position?_sub (h : k < n) : position? n (k - n) = some k := by
  have hneg : ¬0 ≤ (k : Int) - n := by omega
  have hfirst : -(n : Int) ≤ k - n := by omega
  rw [position?, if_neg hneg, if_pos hfirst, Int.sub_add_cancel, Int.toNat_natCast]

theorem position?_eq_none (h : i < -n ∨ n ≤ i) : position? n i = none := by
  unfold position?
  rcases h with h | h
  · rw [if_neg (by omega), if_neg (by omega)]
  · rw [if_pos (by omega), if_neg (by omega)]

end Positions

namespace Node

variable {n : Node} {values : Values} {ids : List String} {name : String} {p : InputParam} {k : Nat}

/-- The value on an edge, read as what a parameter takes. -/
def readEdge (n : Node) (values : Values) (ids : List String) (name : String) (type : ParamType) (edge : String) :
    Outcome Value := do
  match ← values.get ids edge with
  | none => return .nothing
  | some x => n.readAs name x type

/-- A parameter that takes one edge is the value on this edge. -/
theorem param_eq_readEdge (hparam : n.params.lookup name = some p) (hsingle : p.type ≠ .tensors) (values : Values)
    (ids : List String) : n.param values ids name = n.edge p >>= n.readEdge values ids name p.type := by
  simp only [param, hparam]
  cases htype : p.type with
  | tensors => exact absurd htype hsingle
  | _ => rfl

theorem edge_of_position (hstart : position? n.inputs.length (n.shiftedStart p) = some k)
    (hk : k < n.inputs.length) : n.edge p = .ok n.inputs[k] := by
  rw [edge, hstart, Option.bind_some, List.getElem?_eq_getElem hk]

theorem edge_of_place (hk : k < n.inputs.length) (hstart : p.start = k) : n.edge p = .ok n.inputs[k] := by
  refine edge_of_position ?_ hk
  rw [shiftedStart, if_neg (by omega), hstart, position?_ofNat hk]

theorem edge_of_end (hk : k < n.inputs.length) (hstart : p.start = k - n.inputs.length) :
    n.edge p = .ok n.inputs[k] := by
  refine edge_of_position ?_ hk
  have hshifted : n.shiftedStart p = k := by
    rw [shiftedStart, if_pos (by omega)]
    omega
  rw [hshifted, position?_ofNat hk]

/-- In front of the first edge the count from the end starts again. -/
theorem edge_of_front (hk : k < n.inputs.length) (hstart : p.start = k - 2 * n.inputs.length) :
    n.edge p = .ok n.inputs[k] := by
  refine edge_of_position ?_ hk
  have hshifted : n.shiftedStart p = k - n.inputs.length := by
    rw [shiftedStart, if_pos (by omega)]
    omega
  rw [hshifted, position?_sub hk]

theorem edge_past (hstart : p.start < -2 * n.inputs.length ∨ n.inputs.length ≤ p.start) :
    n.edge p = .error .indexOutOfRange := by
  have hnone : position? n.inputs.length (n.shiftedStart p) = none := by
    refine position?_eq_none ?_
    unfold shiftedStart
    split <;> omega
  rw [edge, hnone]
  rfl

/-- A parameter that takes one edge reads the edge at its start, or counted from the end the one that a negative start
    names, and there is none at the length or past it. In front of the first edge the count from the end starts again,
    and the parameter reads the edge that it arrives at; there is none past the second count. -/
theorem param_reads_edge (hparam : n.params.lookup name = some p) (hsingle : p.type ≠ .tensors) (values : Values)
    (ids : List String) :
    (∀ k (hk : k < n.inputs.length), p.start = k ∨ p.start = k - n.inputs.length →
      n.param values ids name = n.readEdge values ids name p.type n.inputs[k]) ∧
    (∀ k (hk : k < n.inputs.length), p.start = k - 2 * n.inputs.length →
      n.param values ids name = n.readEdge values ids name p.type n.inputs[k]) ∧
    (p.start < -2 * n.inputs.length ∨ n.inputs.length ≤ p.start →
      n.param values ids name = .error .indexOutOfRange) := by
  have hread {edge : String} (hedge : n.edge p = .ok edge) :
      n.param values ids name = n.readEdge values ids name p.type edge := by
    rw [param_eq_readEdge hparam hsingle, hedge, Outcome.ok_bind]
  refine ⟨fun k hk hstart => ?_, fun k hk hstart => hread (edge_of_front hk hstart), fun hstart => ?_⟩
  · rcases hstart with hstart | hstart
    · exact hread (edge_of_place hk hstart)
    · exact hread (edge_of_end hk hstart)
  · rw [param_eq_readEdge hparam hsingle, edge_past hstart, Outcome.error_bind]

/-- Of two edges, a parameter that starts at the third one from the end reads the last. -/
theorem param_reads_edge_third_of_two :
    let x := Tensor.scalar .host .int32 (.whole 7)
    let y := Tensor.scalar .host .int32 (.whole 8)
    let p : InputParam := ⟨-3, none, .number⟩
    let n : Node := ⟨"n", .text "any", ["a", "b"], [("count", p)], []⟩
    let values : Values := [("a", [some x]), ("b", [some y])]
    n.params.lookup "count" = some p ∧ p.type ≠ .tensors ∧ p.start = (1 : Nat) - 2 * n.inputs.length ∧
      n.param values [""] "count" = .ok (.int 8) := by
  intro x y p n values
  have hparam : n.params.lookup "count" = some p := rfl
  have hread := (param_reads_edge hparam nofun values [""]).2.1 1 (by decide) (by decide)
  have hget : values.get [""] "b" = .ok (some y) := rfl
  refine ⟨rfl, nofun, by decide, hread.trans ?_⟩
  show n.readEdge values [""] "count" .number "b" = _
  rw [readEdge, hget]
  rfl

end Node

end Dataflow
