import Dataflow.Graph.Visit
import Dataflow.Proofs.Coercions
import Dataflow.Proofs.InputEdges

/-! Integers that parameters read from tensors. An element is taken by its value: an integer of any type and a number
    without a fraction are integers, a truth value is none. So two tensors with the same integers in them read alike,
    whatever their types are, and where a tensor holds anything else the parameter is refused. -/

namespace Dataflow

/-! ### Elements with the value of an integer -/

/-- A number that is equal to an integer. Truth values are no numbers. -/
def Element.IsInt (e : Element) (n : Int) : Prop :=
  match e with
  | .whole m => m = n
  | .real x => x.value? = some (.ofInt n)
  | _ => False

/-- An element of a type of the library: a truth value, an integer within the range of the type, or a real number. -/
def DType.Has (d : DType) (e : Element) : Prop :=
  match e with
  | .flag _ => d.storage = .boolean
  | .whole n => ∃ signed bits, d.storage = .integer signed bits ∧ Storage.holds signed bits n = true
  | .real _ => ∃ f, d.storage = .floating f
  | _ => False

section

variable {d : DType} {e : Element} {n : Int}

theorem DType.Has.isWritable (h : d.Has e) : (Value.ofElement e).isWritable = true := by
  cases e with
  | whole n =>
    obtain ⟨signed, bits, hstorage, hholds⟩ := h
    exact Value.isWritable_int (DType.natAbs_lt_of_holds hstorage hholds)
  | complex re im => exact h.elim
  | hidden => exact h.elim
  | _ => simp [Value.ofElement, Value.isWritable]

theorem DType.Has.not_isOutsize (h : d.Has e) : ¬(Value.ofElement e).IsOutsize := by
  cases e with
  | whole n =>
    obtain ⟨signed, bits, hstorage, hholds⟩ := h
    exact Value.not_isOutsize_of_word rfl (DType.natAbs_lt_of_holds hstorage hholds)
  | complex re im => exact h.elim
  | hidden => exact h.elim
  | _ => exact Value.not_isOutsize nofun

namespace Value

theorem isInt_ofElement (he : d.Has e) : (ofElement e).IsInt n ↔ e.IsInt n := by
  cases e with
  | flag b => exact iff_of_false (not_isInt_of_none rfl) id
  | whole m => exact isInt_of_whole rfl
  | real x => exact isInt_of_real rfl
  | complex re im => exact he.elim
  | hidden => exact he.elim

theorem integer_eq_ok (he : d.Has e) (what : String) : integer what (.ofElement e) = .ok n ↔ e.IsInt n := by
  rw [integer_ok_iff, StandsFor, isInt_ofElement he, and_iff_left he.not_isOutsize]

theorem not_escapes_integer (he : d.Has e) (what : String) : ¬(integer what (.ofElement e)).Escapes := by
  rw [integer_escapes_iff, Breaks, or_iff_right he.not_isOutsize, he.isWritable]
  exact fun h => Bool.false_ne_true h.2.symm

end Value

end

/-! ### Parameters that read integers -/

theorem Blocks.blocks_one {α : Type} (l : List α) : blocks l.length 1 l = l.map fun a => [a] := by
  induction l with
  | nil => rfl
  | cons a l ih => exact congrArg ([a] :: ·) ih

/-- The elements of a tensor that a parameter of a type reads. -/
def ParamType.taken (t : ParamType) (x : Tensor) : List Element :=
  match t with
  | .number => x.data.take 1
  | _ => x.data

theorem Tensor.nested_vector {x : Tensor} (h : x.rank = 1) :
    Value.nested x.shape x.data = .list (x.data.map Value.ofElement) := by
  obtain ⟨d, hshape⟩ := List.length_eq_one_iff.mp h
  have hlength : d = x.data.length := by
    rw [x.length_data, hshape]
    exact (Nat.mul_one d).symm
  rw [hshape, Value.nested, hlength, show Shape.size [] = 1 from rfl, Blocks.blocks_one, List.map_map]
  rfl

theorem DType.Has.ne_nothing {d : DType} {e : Element} (h : d.Has e) : Value.ofElement e ≠ .nothing := by
  cases e with
  | hidden => exact h.elim
  | _ => exact nofun

namespace Node

variable {n : Node} {values : Values} {ids : List String} {name : String} {t : ParamType} {x : Tensor}
  {e : Element} {es : List Element}

theorem Takes.param (h : n.Takes values ids name t x) (ht : t ≠ .tensors) :
    n.param values ids name = n.readAs name x t := by
  obtain ⟨p, edge, hparam, rfl, hedge, hget⟩ := h
  rw [param_eq_readEdge hparam ht, hedge, Outcome.ok_bind, readEdge, hget]
  rfl

theorem required_error {f : Failure} (h : n.param values ids name = .error f) :
    n.required values ids name = .error f := by
  rw [required, h, Outcome.error_bind]

theorem Takes.required_first (h : n.Takes values ids name .number x) (hx : x.readable = .ok ())
    (hdata : x.data = e :: es) (he : x.dtype.Has e) : n.required values ids name = .ok (.ofElement e) := by
  refine required_of_param ?_ he.ne_nothing
  rw [h.param (by decide)]
  simp only [readAs, firstElement, hx, hdata, Outcome.ok_bind, Outcome.pure_eq]

theorem Takes.required_empty (h : n.Takes values ids name .number x) (hx : x.readable = .ok ())
    (hdata : x.data = []) : n.required values ids name = .error (.refused (.emptyParam n.op n.name name)) := by
  refine required_error ?_
  rw [h.param (by decide)]
  simp only [readAs, firstElement, hx, hdata, Outcome.ok_bind, Outcome.throw_eq, Outcome.error_bind]

theorem Takes.required_elements (h : n.Takes values ids name .elements x) (hx : x.readable = .ok ())
    (hrank : x.rank = 1) : n.required values ids name = .ok (.list (x.data.map .ofElement)) := by
  refine required_of_param ?_ nofun
  rw [h.param (by decide), readAs, hx, ← Tensor.nested_vector hrank]
  rfl

/-- A parameter reads the first element of a tensor or all elements of a one-dimensional one, and the elements are of a
    type of the library. -/
structure Draws (n : Node) (values : Values) (ids : List String) (name : String) (t : ParamType) (x : Tensor) :
    Prop where
  takes : n.Takes values ids name t x
  type : t = .number ∨ t = .elements ∧ x.rank = 1
  readable : x.readable = .ok ()
  typed : ∀ e ∈ t.taken x, x.dtype.Has e

/-- What an operation takes from a parameter, an integer or a list of integers. -/
def integers (n : Node) (values : Values) (ids : List String) (name : String) : ParamType → Outcome Value
  | .elements => Visit.positions <$> n.intsParam values ids name
  | _ => .int <$> n.intParam values ids name

theorem Draws.intParam_cases (h : n.Draws values ids name t x) :
    (∃ cause, n.intParam values ids name = .error (.refused cause)) ∨
      ∃ e es, t = .number ∧ x.data = e :: es ∧ x.dtype.Has e ∧
        n.intParam values ids name = Value.integer (n.label name) (.ofElement e) := by
  rcases h.type with rfl | ⟨rfl, hrank⟩
  · cases hdata : x.data with
    | nil =>
      left
      rw [intParam, h.takes.required_empty h.readable hdata]
      exact ⟨_, rfl⟩
    | cons e es =>
      have he : x.dtype.Has e := h.typed e (by simp [ParamType.taken, hdata])
      right
      refine ⟨e, es, rfl, rfl, he, ?_⟩
      rw [intParam, h.takes.required_first h.readable hdata he]
      rfl
  · left
    have hwritable : (Value.list (x.data.map .ofElement)).isWritable = true := by
      rw [Value.isWritable, Value.areWritable_iff, List.forall_mem_map]
      exact fun e he => (h.typed e he).isWritable
    rw [intParam, h.takes.required_elements h.readable hrank, Outcome.ok_bind, Value.integer_eq,
      Value.refuse_writable hwritable]
    exact ⟨_, rfl⟩

theorem Draws.intsParam_cases (h : n.Draws values ids name t x) :
    (∃ cause, n.intsParam values ids name = .error (.refused cause)) ∨
      t = .elements ∧ n.intsParam values ids name = (x.data.map .ofElement).mapM (Value.integer (n.label name)) := by
  rcases h.type with rfl | ⟨rfl, hrank⟩
  · left
    cases hdata : x.data with
    | nil =>
      rw [intsParam, h.takes.required_empty h.readable hdata]
      exact ⟨_, rfl⟩
    | cons e es =>
      have he : x.dtype.Has e := h.typed e (by simp [ParamType.taken, hdata])
      have hitem : Value.integers (n.label name) (.ofElement e) =
          (Value.ofElement e).refuse (.notIntegers (n.label name)) := by
        cases e with
        | hidden => exact he.elim
        | _ => rfl
      rw [intsParam, h.takes.required_first h.readable hdata he, Outcome.ok_bind, hitem,
        Value.refuse_writable he.isWritable]
      exact ⟨_, rfl⟩
  · right
    rw [intsParam, h.takes.required_elements h.readable hrank]
    exact ⟨rfl, rfl⟩

theorem Draws.not_escapes_integers (h : n.Draws values ids name t x) (u : ParamType) :
    ¬(n.integers values ids name u).Escapes := by
  have hint : ¬(n.intParam values ids name).Escapes := by
    rcases h.intParam_cases with ⟨cause, hrefused⟩ | ⟨e, es, -, -, he, hread⟩
    · rw [hrefused]
      exact Outcome.not_escapes_refused cause
    · rw [hread]
      exact Value.not_escapes_integer he _
  cases u with
  | elements =>
    rw [integers, Outcome.escapes_map]
    rcases h.intsParam_cases with ⟨cause, hrefused⟩ | ⟨rfl, hread⟩
    · rw [hrefused]
      exact Outcome.not_escapes_refused cause
    · rw [hread, List.mapM_map]
      intro hescapes
      obtain ⟨e, he, hfirst⟩ := Outcome.exists_escapes_of_mapM hescapes
      exact Value.not_escapes_integer (h.typed e he) _ hfirst
  | _ =>
    rw [integers, Outcome.escapes_map]
    · exact hint
    · exact nofun

/-- What is taken as integers was read the way that the operation takes them, and the elements were integers. -/
theorem Draws.isInt_of_integers (h : n.Draws values ids name t x) {u : ParamType} {v : Value}
    (hu : u = .number ∨ u = .elements) (hv : n.integers values ids name u = .ok v) :
    t = u ∧ ∀ e ∈ t.taken x, ∃ k, e.IsInt k := by
  rcases hu with rfl | rfl
  · obtain ⟨k, hk, -⟩ := Outcome.exists_of_map hv
    rcases h.intParam_cases with ⟨cause, hrefused⟩ | ⟨e, es, rfl, hdata, he, hread⟩
    · cases hrefused.symm.trans hk
    · refine ⟨rfl, fun e' he' => ?_⟩
      obtain rfl : e' = e := by simpa [ParamType.taken, hdata] using he'
      exact ⟨k, (Value.integer_eq_ok he _).mp (hread.symm.trans hk)⟩
  · obtain ⟨ks, hks, -⟩ := Outcome.exists_of_map hv
    rcases h.intsParam_cases with ⟨cause, hrefused⟩ | ⟨rfl, hread⟩
    · cases hrefused.symm.trans hks
    · refine ⟨rfl, fun e he => ?_⟩
      rw [List.mapM_map] at hread
      obtain ⟨k, hk⟩ := Outcome.ok_of_mapM (hread.symm.trans hks) he
      exact ⟨k, (Value.integer_eq_ok (h.typed e he) _).mp hk⟩

end Node

/-! ### Tensors with the same integers -/

/-- What a parameter of a type reads of a tensor are integers. -/
structure Tensor.Lists (x : Tensor) (t : ParamType) (ns : List Int) : Prop where
  rank : t = .elements → x.rank = 1
  typed : ∀ e ∈ t.taken x, x.dtype.Has e
  integers : List.Forall₂ Element.IsInt (t.taken x) ns

/-- A parameter of a type reads the same integers of both tensors, or can read neither. -/
structure Tensor.SameIntegers (t : ParamType) (x y : Tensor) : Prop where
  readable : x.readable = y.readable
  integers : ∃ ns, x.Lists t ns ∧ y.Lists t ns

theorem Tensor.Lists.number_cases {x : Tensor} {ns : List Int} (h : x.Lists .number ns) :
    (x.data = [] ∧ ns = []) ∨ ∃ e es k, x.data = e :: es ∧ ns = [k] ∧ x.dtype.Has e ∧ e.IsInt k := by
  have hints : List.Forall₂ Element.IsInt (x.data.take 1) ns := h.integers
  have htyped : ∀ e ∈ x.data.take 1, x.dtype.Has e := h.typed
  cases hdata : x.data with
  | nil =>
    rw [hdata] at hints
    cases hints
    exact Or.inl ⟨rfl, rfl⟩
  | cons e es =>
    rw [hdata] at hints htyped
    obtain ⟨k, _, hk, hrest, rfl⟩ := List.forall₂_cons_left_iff.mp hints
    cases hrest
    exact Or.inr ⟨e, es, k, rfl, rfl, htyped e (by simp), hk⟩

theorem Value.mapM_integer {d : DType} {es : List Element} {ns : List Int} (htyped : ∀ e ∈ es, d.Has e)
    (hints : List.Forall₂ Element.IsInt es ns) (what : String) :
    (es.map .ofElement).mapM (integer what) = .ok ns := by
  rw [Outcome.mapM_eq_ok, List.forall₂_map_left_iff]
  induction hints with
  | nil => exact .nil
  | cons he _ ih =>
    obtain ⟨hfirst, hrest⟩ := List.forall_mem_cons.mp htyped
    exact .cons ((integer_eq_ok hfirst _).mpr he) (ih hrest)

namespace Node

variable {n : Node} {values others : Values} {ids : List String} {name : String} {t : ParamType} {x y : Tensor}
  {e : Element} {es : List Element} {k : Int} {ns : List Int}

theorem required_congr (h : n.param others ids name = n.param values ids name) :
    n.required others ids name = n.required values ids name := by
  rw [required, required, h]

theorem integers_congr (h : n.required others ids name = n.required values ids name) (u : ParamType) :
    n.integers others ids name u = n.integers values ids name u := by
  unfold integers intsParam intParam
  rw [h]

theorem Takes.integers_first (h : n.Takes values ids name .number x) (hx : x.readable = .ok ())
    (hdata : x.data = e :: es) (he : x.dtype.Has e) (hk : e.IsInt k) :
    n.integers values ids name .number = .ok (.int k) := by
  have hint : n.intParam values ids name = .ok k := by
    rw [Node.intParam, h.required_first hx hdata he, Outcome.ok_bind]
    exact (Value.integer_eq_ok he _).mpr hk
  exact congrArg (Functor.map Value.int) hint

theorem Takes.integers_elements (h : n.Takes values ids name .elements x) (hx : x.readable = .ok ())
    (hlists : x.Lists .elements ns) : n.integers values ids name .elements = .ok (Visit.positions ns) := by
  have hints : n.intsParam values ids name = .ok ns := by
    rw [intsParam, h.required_elements hx (hlists.rank rfl), Outcome.ok_bind]
    exact Value.mapM_integer hlists.typed hlists.integers _
  exact congrArg (Functor.map Visit.positions) hints

theorem Takes.param_unreadable {f : Failure} (h : n.Takes values ids name t x) (ht : t = .number ∨ t = .elements)
    (hx : x.readable = .error f) : n.param values ids name = .error f := by
  rcases ht with rfl | rfl
  · rw [h.param (by decide), readAs, firstElement, hx]
    rfl
  · rw [h.param (by decide), readAs, hx]
    rfl

theorem integers_of_same (hx : n.Takes values ids name t x) (hy : n.Takes others ids name t y)
    (ht : t = .number ∨ t = .elements) (h : x.SameIntegers t y) :
    n.integers others ids name t = n.integers values ids name t := by
  obtain ⟨hreadable, ns, hlists, hlists'⟩ := h
  cases hread : x.readable with
  | error f =>
    refine integers_congr (required_congr ?_) t
    rw [hx.param_unreadable ht hread, hy.param_unreadable ht (hreadable.symm.trans hread)]
  | ok _ =>
    have hread' : y.readable = .ok () := hreadable.symm.trans hread
    rcases ht with rfl | rfl
    · rcases hlists.number_cases with ⟨hdata, rfl⟩ | ⟨e, es, k, hdata, rfl, he, hk⟩
      · obtain ⟨hdata', -⟩ | ⟨_, _, _, -, hns, -⟩ := hlists'.number_cases
        · refine integers_congr ?_ _
          rw [hx.required_empty hread hdata, hy.required_empty hread' hdata']
        · cases hns
      · obtain ⟨-, hns⟩ | ⟨e', es', k', hdata', hns, he', hk'⟩ := hlists'.number_cases
        · cases hns
        · cases hns
          rw [hx.integers_first hread hdata he hk, hy.integers_first hread' hdata' he' hk']
    · rw [hx.integers_elements hread hlists, hy.integers_elements hread' hlists']

end Node

end Dataflow
