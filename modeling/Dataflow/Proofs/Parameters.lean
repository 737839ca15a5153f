import Dataflow.Graph.Node
import Dataflow.Proofs.DoublePrecision

/-! Parameters of nodes, read from tensors that are there. A parameter is the tensor on its edge, or the integer that the
    first element of this tensor reads as; every integer type has only integers of a word. -/

namespace Dataflow

/-- Integers of every type fit into a word. -/
theorem DType.natAbs_lt_of_holds {d : DType} {signed : Bool} {bits : Nat} {n : Int}
    (hd : d.storage = .integer signed bits) (h : Storage.holds signed bits n = true) : n.natAbs < 2 ^ 64 := by
  have hbits : bits ≤ 64 ∧ (signed = true → 0 < bits) := by
    cases d <;> simp only [storage, Storage.integer.injEq, reduceCtorEq] at hd <;> obtain ⟨rfl, rfl⟩ := hd <;> decide
  have hpow : (2 : Int) ^ bits ≤ 2 ^ 64 := by
    have : 2 ^ bits ≤ 2 ^ 64 := Nat.pow_le_pow_right (by decide) hbits.1
    exact_mod_cast this
  rw [Storage.holds, Bool.and_eq_true, decide_eq_true_eq, decide_eq_true_eq] at h
  cases signed with
  | false =>
    simp only [Storage.lowest, Storage.highest, Bool.false_eq_true, if_false] at h
    omega
  | true =>
    have hhalf : (2 : Int) ^ (bits - 1) ≤ 2 ^ 63 := by
      have : 2 ^ (bits - 1) ≤ 2 ^ 63 := Nat.pow_le_pow_right (by decide) (by omega)
      exact_mod_cast this
    simp only [Storage.lowest, Storage.highest, if_true] at h
    omega

namespace Tensor

variable {x : Tensor} {n : Int}

/-- The first element of a tensor reads as an integer. -/
def ReadsAs (x : Tensor) (n : Int) : Prop :=
  x.readable = .ok () ∧ ∃ e es, x.data = e :: es ∧ ∀ what, Value.integer what (.ofElement e) = .ok n

/-- The first element of a tensor is an integer of the tensor's type. -/
structure Counts (x : Tensor) (n : Int) : Prop where
  readable : x.readable = .ok ()
  first : x.data.head? = some (.whole n)
  inRange : ∃ signed bits, x.dtype.storage = .integer signed bits ∧ Storage.holds signed bits n = true

theorem Counts.natAbs_lt (h : x.Counts n) : n.natAbs < 2 ^ 64 := by
  obtain ⟨signed, bits, hstorage, hrange⟩ := h.inRange
  exact DType.natAbs_lt_of_holds hstorage hrange

theorem Counts.readsAs (h : x.Counts n) : x.ReadsAs n := by
  obtain ⟨es, hdata⟩ := List.head?_eq_some_iff.mp h.first
  refine ⟨h.readable, _, es, hdata, fun what => ?_⟩
  rw [Value.ofElement, Value.integer_int, Value.isHuge_eq_false h.natAbs_lt]
  rfl

end Tensor

namespace Values

theorem get_of_find? {values : Values} {ids : List String} {edge : String} {e : Edge} {o : Outputs}
    (hname : Edge.ofName edge = .ok e) (hfind : values.find? e.node ids = some o) :
    values.get ids edge = .ok (o[e.slot]?).join := by
  rw [get, hname, Outcome.ok_bind, hfind]
  rfl

end Values

namespace Node

variable {n : Node} {values : Values} {ids : List String} {name edge : String} {start : Int} {stop : Option Int}
  {x : Tensor} {k : Int}

theorem required_of_param {v : Value} (h : n.param values ids name = .ok v) (hv : v ≠ .nothing) :
    n.required values ids name = .ok v := by
  rw [required, h, Outcome.ok_bind]
  split
  · exact absurd rfl hv
  · rfl

theorem param_tensor (hparam : n.params.lookup name = some ⟨start, stop, .tensor⟩)
    (hedge : n.edge ⟨start, stop, .tensor⟩ = .ok edge) (hget : values.get ids edge = .ok (some x)) :
    n.param values ids name = .ok (.tensor x) := by
  simp only [param, hparam, hedge, hget, Outcome.ok_bind, readAs]

theorem required_tensor (hparam : n.params.lookup name = some ⟨start, stop, .tensor⟩)
    (hedge : n.edge ⟨start, stop, .tensor⟩ = .ok edge) (hget : values.get ids edge = .ok (some x)) :
    n.required values ids name = .ok (.tensor x) :=
  required_of_param (param_tensor hparam hedge hget) nofun

theorem param_number {e : Element} {es : List Element} (hparam : n.params.lookup name = some ⟨start, stop, .number⟩)
    (hedge : n.edge ⟨start, stop, .number⟩ = .ok edge) (hget : values.get ids edge = .ok (some x))
    (hreadable : x.readable = .ok ()) (hdata : x.data = e :: es) :
    n.param values ids name = .ok (.ofElement e) := by
  simp only [param, hparam, hedge, hget, Outcome.ok_bind, readAs, firstElement, hreadable, hdata, Outcome.pure_eq]

theorem ne_nothing_of_integer {what : String} {v : Value} (h : Value.integer what v = .ok k) : v ≠ .nothing := by
  rintro rfl
  cases h

theorem intParam_number (hparam : n.params.lookup name = some ⟨start, stop, .number⟩)
    (hedge : n.edge ⟨start, stop, .number⟩ = .ok edge) (hget : values.get ids edge = .ok (some x))
    (hx : x.ReadsAs k) : n.intParam values ids name = .ok k := by
  obtain ⟨hreadable, e, es, hdata, hinteger⟩ := hx
  have hrequired : n.required values ids name = .ok (.ofElement e) :=
    required_of_param (param_number hparam hedge hget hreadable hdata) (ne_nothing_of_integer (hinteger ""))
  rw [intParam, hrequired, Outcome.ok_bind, hinteger]

theorem intParamOr_number (default : Int) (hparam : n.params.lookup name = some ⟨start, stop, .number⟩)
    (hedge : n.edge ⟨start, stop, .number⟩ = .ok edge) (hget : values.get ids edge = .ok (some x))
    (hx : x.ReadsAs k) : n.intParamOr default values ids name = .ok k := by
  obtain ⟨hreadable, e, es, hdata, hinteger⟩ := hx
  rw [intParamOr, param_number hparam hedge hget hreadable hdata, Outcome.ok_bind]
  split
  · rename_i heq
    exact absurd heq (ne_nothing_of_integer (hinteger ""))
  · exact hinteger _

/-- A parameter of a node is an input of a type, and there is a tensor on its edge. -/
def Takes (n : Node) (values : Values) (ids : List String) (name : String) (type : ParamType) (x : Tensor) : Prop :=
  ∃ p edge, n.params.lookup name = some p ∧ p.type = type ∧ n.edge p = .ok edge ∧ values.get ids edge = .ok (some x)

theorem Takes.required (h : n.Takes values ids name .tensor x) : n.required values ids name = .ok (.tensor x) := by
  obtain ⟨⟨start, stop, type⟩, edge, hparam, htype, hedge, hget⟩ := h
  cases htype
  exact required_tensor hparam hedge hget

theorem Takes.intParam (h : n.Takes values ids name .number x) (hx : x.ReadsAs k) :
    n.intParam values ids name = .ok k := by
  obtain ⟨⟨start, stop, type⟩, edge, hparam, htype, hedge, hget⟩ := h
  cases htype
  exact intParam_number hparam hedge hget hx

/-- A parameter of a node is an integer: an attribute within double precision, or what the first element of the tensor
    on its edge reads as. -/
def Gives (n : Node) (values : Values) (ids : List String) (name : String) (k : Int) : Prop :=
  (n.params.lookup name = none ∧ n.attrs.lookup name = some (.int k) ∧ Value.isHuge k = false) ∨
    ∃ x, n.Takes values ids name .number x ∧ x.ReadsAs k

theorem Gives.intParam (h : n.Gives values ids name k) : n.intParam values ids name = .ok k := by
  rcases h with ⟨hparam, hattr, hk⟩ | ⟨x, htakes, hx⟩
  · simp only [Node.intParam, Node.required, param, hparam, hattr, Option.getD_some, Outcome.ok_bind, Outcome.pure_eq,
      Value.integer_int, hk, Bool.false_eq_true, if_false]
  · exact htakes.intParam hx

end Node

end Dataflow
