import Dataflow.Graph.Visit

/-! Premises that no value can break. The library takes some conditions for granted and does not refuse an operation
    that breaks one of them, but fails outright. Reading, comparing and converting values never does so, whatever the
    values are, nor does reading the parameters of a node. The lemmas follow the definitions: one for each function,
    from those for what it calls. -/

namespace Dataflow

/-- The failure says that a premise of the library is broken. -/
abbrev Failure.isPremise : Failure → Bool
  | .premise _ => true
  | _ => false

namespace Outcome

variable {α β : Type}

/-- The outcome is no broken premise. -/
def Unbroken (o : Outcome α) : Prop := ∀ e, o = .error e → !e.isPremise

@[simp, grind .] theorem unbroken_ok (x : α) : Unbroken (.ok x) := nofun

@[simp, grind .] theorem unbroken_pure (x : α) : Unbroken (pure x : Outcome α) := nofun

@[simp, grind =] theorem unbroken_error (e : Failure) : Unbroken (.error e : Outcome α) ↔ !e.isPremise := by
  simp [Unbroken]

@[simp, grind =] theorem unbroken_throw (e : Failure) : Unbroken (throw e : Outcome α) ↔ !e.isPremise :=
  unbroken_error e

attribute [grind =] Outcome.pure_eq Outcome.throw_eq Outcome.ok_bind Outcome.error_bind

@[grind ←] theorem Unbroken.bind {o : Outcome α} {f : α → Outcome β} (h : o.Unbroken)
    (hf : ∀ x, o = .ok x → (f x).Unbroken) : (o >>= f).Unbroken := by
  intro p hp
  rcases bind_eq_error.mp hp with ho | ⟨x, hx, hfx⟩
  · exact h p ho
  · exact hf x hx p hfx

@[grind ←] theorem Unbroken.map {o : Outcome α} (h : o.Unbroken) (f : α → β) : (f <$> o).Unbroken := by
  cases o with
  | error e => exact (unbroken_error e).mpr ((unbroken_error e).mp h)
  | ok x => exact unbroken_ok _

@[grind ←] theorem Unbroken.mapM {f : α → Outcome β} {l : List α} (h : ∀ x ∈ l, (f x).Unbroken) :
    (l.mapM f).Unbroken := by
  intro p hp
  obtain ⟨x, hx, hfx⟩ := mapM_error hp
  exact h x hx p hfx

@[grind ←] theorem Unbroken.forM {f : α → Outcome PUnit} {l : List α} (h : ∀ x ∈ l, (f x).Unbroken) :
    (l.forM f).Unbroken := by
  induction l with
  | nil => exact unbroken_ok _
  | cons x l ih => exact (h x List.mem_cons_self).bind fun _ _ => ih fun y hy => h y (List.mem_cons_of_mem _ hy)

end Outcome

/-! ### Values -/

namespace Value

@[grind .] theorem unbroken_items (v : Value) : v.items.Unbroken := by
  unfold items
  grind

@[grind .] theorem unbroken_formatted (v : Value) : v.formatted.Unbroken := by
  unfold formatted
  grind

@[grind .] theorem unbroken_position (v : Value) : v.position.Unbroken := by
  unfold position
  grind

@[grind .] theorem unbroken_missing (n : Nat) (v : Value) : (v.missing n).Unbroken := by
  unfold missing
  grind

@[grind .] theorem unbroken_integerPart (x : Floating) : (integerPart x).Unbroken := by
  unfold integerPart
  grind

@[grind .] theorem unbroken_wholePart (v : Value) : v.wholePart.Unbroken := by
  unfold wholePart
  grind

@[grind .] theorem unbroken_wholeParts (v : Value) : v.wholeParts.Unbroken := by
  unfold wholeParts
  grind

@[grind .] theorem unbroken_refuse {α : Type} (cause : Value → Refusal) (v : Value) :
    (v.refuse cause : Outcome α).Unbroken := by
  unfold refuse
  grind

@[grind .] theorem unbroken_asDouble (v : Value) : v.asDouble.Unbroken := by
  unfold asDouble
  grind

@[grind .] theorem unbroken_integer (what : String) (v : Value) : (v.integer what).Unbroken := by
  unfold integer
  grind

@[grind .] theorem unbroken_integers (what : String) (v : Value) : (v.integers what).Unbroken := by
  unfold integers
  grind

@[grind .] theorem unbroken_addElements (d : DType) (x y : Element) : (addElements d x y).Unbroken := by
  unfold addElements
  grind

@[grind .] theorem unbroken_addToScalar (d : DType) (e : Element) (v : Value) : (addToScalar d e v).Unbroken := by
  unfold addToScalar addScalars
  grind

@[grind .] theorem unbroken_plus (a b : Value) : (a.plus b).Unbroken := by
  unfold plus
  grind

@[grind .] theorem unbroken_successor (v : Value) : v.successor.Unbroken := by
  unfold successor
  grind

@[grind .] theorem unbroken_alignScalar (d : DType) (e : Element) (v : Value) : (alignScalar d e v).Unbroken := by
  unfold alignScalar
  grind

@[grind .] theorem unbroken_align (a b : Value) : (a.align b).Unbroken := by
  unfold align
  grind

@[grind .] theorem unbroken_equalAtoms (a b : Value) : (a.equalAtoms b).Unbroken := by
  unfold equalAtoms
  grind

@[grind .] theorem unbroken_lessAtoms (a b : Value) : (a.lessAtoms b).Unbroken := by
  unfold lessAtoms
  grind

@[grind .] theorem unbroken_single (bs : List Bool) : (single bs).Unbroken := by
  unfold single
  grind

end Value

/-! ### Nests -/

namespace Nest

@[grind .] theorem unbroken_gather (ns : List Nest) : (gather ns).Unbroken := by
  unfold gather
  grind

mutual

theorem unbroken_ofValue (v : Value) : (ofValue v).Unbroken := by
  cases v with
  | list vs => exact (unbroken_ofValues vs).bind fun ns _ => unbroken_gather ns
  | tuple vs => exact (unbroken_ofValues vs).bind fun ns _ => unbroken_gather ns
  | _ => exact Outcome.unbroken_ok _

theorem unbroken_ofValues (vs : List Value) : (ofValues vs).Unbroken := by
  cases vs with
  | nil => exact Outcome.unbroken_ok _
  | cons v vs => exact (unbroken_ofValue v).bind fun _ _ => (unbroken_ofValues vs).bind fun _ _ => Outcome.unbroken_ok _

end

attribute [grind .] unbroken_ofValue

end Nest

@[grind .] theorem unbroken_checkTexts (leaves : List Value) : (checkTexts leaves).Unbroken := by
  unfold checkTexts
  grind

namespace Nest

@[grind .] theorem unbroken_ofArray (v : Value) : (ofArray v).Unbroken := by
  unfold ofArray
  grind

end Nest

/-! ### Comparisons -/

namespace Value

@[grind .] theorem unbroken_compareEach {numbers : Floating → Floating → Bool} {atoms : Value → Value → Outcome Bool}
    {texts : Outcome Bool} (hatoms : ∀ a b, (atoms a b).Unbroken) (htexts : texts.Unbroken) (d : DType) (e : Element)
    (ofNumber : Element → Value) (leaves : List Value) :
    (compareEach numbers atoms texts d e ofNumber leaves).Unbroken := by
  unfold compareEach
  grind

@[grind .] theorem unbroken_leavesOf (v : Value) : (leavesOf v).Unbroken := by
  unfold leavesOf
  grind

@[grind .] theorem unbroken_scalarEquals (d : DType) (e : Element) (v : Value) : (scalarEquals d e v).Unbroken := by
  unfold scalarEquals
  grind

@[grind .] theorem unbroken_scalarLess (d : DType) (e : Element) (v : Value) : (scalarLess d e v).Unbroken := by
  unfold scalarLess
  grind

@[grind .] theorem unbroken_scalarGreater (d : DType) (e : Element) (v : Value) : (scalarGreater d e v).Unbroken := by
  unfold scalarGreater
  grind

theorem unbroken_equals_equalItems :
    (∀ a b : Value, (a.equals b).Unbroken) ∧ ∀ as bs, (equalItems as bs).Unbroken := by
  apply equals.mutual_induct <;> intros <;> grind [equals, equalItems]

@[grind .] theorem unbroken_equals (a b : Value) : (a.equals b).Unbroken := unbroken_equals_equalItems.1 a b

theorem unbroken_less_lessItems :
    (∀ a b : Value, (a.less b).Unbroken) ∧ ∀ as bs, (lessItems as bs).Unbroken := by
  apply less.mutual_induct <;> intros <;> grind [less, lessItems]

@[grind .] theorem unbroken_less (a b : Value) : (a.less b).Unbroken := unbroken_less_lessItems.1 a b

@[grind .] theorem unbroken_atLeast (a b : Value) : (a.atLeast b).Unbroken := by
  unfold atLeast
  grind

@[grind .] theorem unbroken_isNegative (v : Value) : v.isNegative.Unbroken := by
  unfold isNegative
  grind

@[grind .] theorem unbroken_greatest (v : Value) (ws : List Value) : (v.greatest ws).Unbroken := by
  induction ws generalizing v with
  | nil => exact Outcome.unbroken_ok v
  | cons w ws ih =>
    unfold greatest
    grind

end Value

/-! ### Shapes and tensors -/

@[grind .] theorem unbroken_partialDimension (v : Value) : (partialDimension v).Unbroken := by
  unfold partialDimension
  grind

@[grind .] theorem unbroken_partialShape (v : Value) : (partialShape v).Unbroken := by
  unfold partialShape
  grind

@[grind .] theorem unbroken_checkShape (expected : PartialShape Nat) (actual : Shape) (what : String) :
    (checkShape expected actual what).Unbroken := by
  unfold checkShape
  grind

namespace Tensor

@[grind .] theorem unbroken_readable (x : Tensor) : x.readable.Unbroken := by
  unfold readable
  grind

end Tensor

namespace Value

@[grind .] theorem unbroken_toTensor (v : Value) : v.toTensor.Unbroken := by
  unfold toTensor
  grind

@[grind .] theorem unbroken_toTensors (vs : List Value) : (toTensors vs).Unbroken := by
  unfold toTensors
  grind

@[grind .] theorem unbroken_read (v : Value) : v.read.Unbroken := by
  unfold read
  grind

end Value

/-! ### Codes of element types -/

namespace TimeUnit

@[grind .] theorem unbroken_divided (u : TimeUnit) (n : Int) : (u.divided n).Unbroken := by
  unfold divided
  grind

@[grind .] theorem unbroken_undivided (n : Int) (code : String) : (undivided n code).Unbroken := by
  unfold undivided
  grind

@[grind .] theorem unbroken_ofCode (cs : List Char) : (ofCode cs).Unbroken := by
  unfold ofCode
  grind

@[grind .] theorem unbroken_ofSuffix (cs : List Char) : (ofSuffix cs).Unbroken := by
  unfold ofSuffix
  grind

end TimeUnit

namespace CodedType

@[grind .] theorem unbroken_ofSingle (s : String) : (ofSingle s).Unbroken := by
  unfold ofSingle
  grind

@[grind .] theorem unbroken_count (cs : List Char) : (count cs).Unbroken := by
  unfold count
  grind

@[grind .] theorem unbroken_afterPart (cs : List Char) : (afterPart cs).Unbroken := by
  unfold afterPart
  grind

@[grind .] theorem unbroken_joinMarks (a b : Option Char) : (joinMarks a b).Unbroken := by
  unfold joinMarks
  grind

@[grind .] theorem Part.unbroken_marked (p : Part) : p.marked.Unbroken := by
  unfold Part.marked
  grind

@[grind .] theorem Part.unbroken_read (p : Part) : p.read.Unbroken := by
  unfold Part.read
  grind

@[grind .] theorem unbroken_parts (n : Nat) (cs : List Char) : (parts n cs).Unbroken := by
  induction n generalizing cs with
  | zero => grind [parts]
  | succ n ih =>
    unfold parts
    grind

@[grind .] theorem unbroken_asField (t : CodedType) : t.asField.Unbroken := by
  unfold asField
  grind

@[grind .] theorem unbroken_under (t : CodedType) (dims : List Int) : (t.under dims).Unbroken := by
  unfold under
  grind

@[grind .] theorem unbroken_beside (t : CodedType) (v : Value) : (t.beside v).Unbroken := by
  unfold beside
  grind

@[grind .] theorem unbroken_takingOver (t u : CodedType) : (t.takingOver u).Unbroken := by
  unfold takingOver
  grind

@[grind .] theorem unbroken_paired (t : CodedType) (v : Value) (u : Outcome CodedType) : (t.paired v u).Unbroken := by
  unfold paired
  grind

@[grind .] theorem unbroken_ofCode (n : Nat) (s : String) : (ofCode n s).Unbroken := by
  induction n generalizing s with
  | zero => grind [ofCode]
  | succ n ih =>
    unfold ofCode
    split
    · exact unbroken_ofSingle s
    refine (unbroken_parts _ _).bind ?_
    rintro ⟨ps, isList⟩ -
    dsimp only
    split
    · grind
    · grind
    split
    · simp
    · -- The parts are read one by one, as the single part is, and then made fields.
      exact .bind (.mapM fun p _ => .bind (by grind) fun t _ => unbroken_asField t) fun _ _ => Outcome.unbroken_pure _

@[grind .] theorem unbroken_ofText (s : String) : (ofText s).Unbroken := by
  unfold ofText
  grind

end CodedType

/-! ### Parameters of nodes -/

namespace Frame

@[grind .] theorem unbroken_segment (f : Frame) : f.segment.Unbroken := by
  unfold segment
  grind

@[grind .] theorem unbroken_contextId (fs : List Frame) : (contextId fs).Unbroken := by
  unfold contextId
  grind

end Frame

namespace Edge

@[grind .] theorem unbroken_ofName (s : String) : (ofName s).Unbroken := by
  unfold ofName
  grind

end Edge

namespace Values

@[grind .] theorem unbroken_get (values : Values) (ids : List String) (edge : String) :
    (values.get ids edge).Unbroken := by
  unfold get
  grind

end Values

namespace Node

@[grind .] theorem unbroken_edge (n : Node) (p : InputParam) : (n.edge p).Unbroken := by
  unfold edge
  grind

@[grind .] theorem unbroken_firstElement (n : Node) (name : String) (x : Tensor) :
    (n.firstElement name x).Unbroken := by
  unfold firstElement
  grind

@[grind .] theorem unbroken_readAs (n : Node) (name : String) (x : Tensor) (t : ParamType) :
    (n.readAs name x t).Unbroken := by
  unfold readAs
  grind

variable (n : Node) (values : Values) (ids : List String) (name : String)

@[grind .] theorem unbroken_param : (n.param values ids name).Unbroken := by
  unfold param
  grind

@[grind .] theorem unbroken_required : (n.required values ids name).Unbroken := by
  unfold required
  grind

@[grind .] theorem unbroken_intParam : (n.intParam values ids name).Unbroken := by
  unfold intParam
  grind

@[grind .] theorem unbroken_intParamOr (k : Int) : (intParamOr k n values ids name).Unbroken := by
  unfold intParamOr
  grind

@[grind .] theorem unbroken_intsParam : (n.intsParam values ids name).Unbroken := by
  unfold intsParam
  grind

@[grind .] theorem unbroken_boolParamOr (b : Bool) : (boolParamOr b n values ids name).Unbroken := by
  unfold boolParamOr
  grind

@[grind .] theorem unbroken_paramOr (v : Value) : (paramOr v n values ids name).Unbroken := by
  unfold paramOr
  grind

end Node

namespace Visit

@[grind .] theorem unbroken_firstValue (values : Values) (ids es : List String) :
    (firstValue values ids es).Unbroken := by
  induction es with
  | nil => exact Outcome.unbroken_ok _
  | cons e es ih =>
    unfold firstValue
    grind

end Visit

namespace Context

@[grind .] theorem unbroken_arrayNumber (c : Context) (v : Value) : (c.arrayNumber v).Unbroken := by
  unfold arrayNumber
  grind

@[grind .] theorem unbroken_queueNumber (c : Context) (v : Value) : (c.queueNumber v).Unbroken := by
  unfold queueNumber
  grind

end Context

end Dataflow
