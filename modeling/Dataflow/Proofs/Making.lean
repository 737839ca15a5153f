import Dataflow.Proofs.Calls

/-! How tensor arrays are made. An array whose element type is registered and whose size is not negative is made as its
    parameters say, with empty slots. -/

namespace Dataflow.TensorArray

/-- How an array is made, with arguments as its parameters ask for them. -/
structure Making where
  name : String
  dtype : String
  size : Int
  elementShape : Option (Sequence (Option Int))
  identical : Bool
  dynamicSize : Bool
  clearAfterRead : Bool

namespace Making

/-- A dimension that may be left open. -/
def dimension (d : Option Int) : Value := (d.map Value.int).getD .nothing

/-- The element shape as it is asked for, or nothing. -/
def shapeValue (m : Making) : Value := (m.elementShape.map (·.toValue dimension)).getD .nothing

def spec (m : Making) : Spec where
  name := .text m.name
  dtype := .text m.dtype
  size := .int m.size
  elementShape := m.shapeValue
  identical := .flag m.identical
  dynamicSize := .flag m.dynamicSize
  clearAfterRead := .flag m.clearAfterRead

def arguments (m : Making) : List Value :=
  [m.spec.name, m.spec.dtype, m.spec.size, m.spec.elementShape, m.spec.identical, m.spec.dynamicSize,
    m.spec.clearAfterRead]

/-- The element shape that is asked for; negative dimensions are open. -/
def shape (m : Making) : PartialShape Nat :=
  m.elementShape.map fun ds => ds.members.map fun d => d.bind fun n => if n < 0 then none else some n.toNat

/-- The array as it is made. -/
def array (m : Making) : TensorArray where
  id := none
  name := .text m.name
  dtype := .text m.dtype
  elementShape := m.shape
  identical := m.identical
  dynamicSize := .flag m.dynamicSize
  clearAfterRead := m.clearAfterRead
  closed := false
  slots := List.replicate m.size.toNat .empty

theorem partialDimension_dimension (d : Option Int) :
    partialDimension (dimension d) = .ok (d.bind fun n => if n < 0 then none else some n.toNat) := by
  cases d with
  | none => rfl
  | some n =>
    show (do if ← (Value.int n).isNegative then return none else return some (← (Value.int n).wholePart).toNat) = _
    rw [Value.isNegative_int, Outcome.ok_bind]
    by_cases h : n < 0 <;> simp [h, Value.wholePart]

theorem partialShape_shapeValue (m : Making) : partialShape m.shapeValue = .ok m.shape := by
  unfold shapeValue
  cases hshape : m.elementShape with
  | none => simp [partialShape, shape, hshape]
  | some ds =>
    have hdims : ds.members.mapM (partialDimension ∘ dimension) = .ok (ds.members.map fun d =>
        d.bind fun n => if n < 0 then none else some n.toNat) :=
      Outcome.mapM_ok fun d _ => partialDimension_dimension d
    have hpartial : ∀ v : Value, v ≠ .nothing →
        partialShape v = (do return some (← (← v.items).mapM partialDimension)) := fun v hv => by
      cases v <;> first | rfl | exact absurd rfl hv
    rw [Option.map_some, Option.getD_some, hpartial, Sequence.items_toValue, Outcome.ok_bind, List.mapM_map, hdims]
    · simp [shape, hshape]
    · unfold Sequence.toValue
      split <;> simp

/-- Making an array fails for an element type that is not registered and for a negative size, and for nothing else. -/
theorem make_eq (m : Making) (s : Session) :
    make s m.spec = do
      let _ ← s.dtypeInfo (.text m.dtype)
      if m.size < 0 then throw (.refused (.array (.text m.name) (.negativeSize (.int m.size))))
      return m.array := by
  unfold make spec
  simp only [Value.isNegative_int, partialShape_shapeValue, Value.position]
  cases s.dtypeInfo (.text m.dtype) with
  | error e => rfl
  | ok i => by_cases h : m.size < 0 <;> simp [h, array, Value.truth]

theorem make_ok {m : Making} {s : Session} {i : DTypeInfo} (hinfo : s.dtypeInfo (.text m.dtype) = .ok i)
    (hsize : 0 ≤ m.size) : make s m.spec = .ok m.array := by
  rw [make_eq, hinfo, Outcome.ok_bind, if_neg (Int.not_lt.mpr hsize)]
  rfl

theorem ofArguments_eq (m : Making) (s : Session) : ofArguments s m.arguments [] = make s m.spec := by
  have hbind : Arguments.bind parameters m.arguments [] = .ok m.arguments := by
    simp [Arguments.bind, parameters, arguments]
  rw [ofArguments, hbind, Outcome.ok_bind]
  rfl

theorem of_make {m : Making} {s : Session} {a : TensorArray} (h : ofArguments s m.arguments [] = .ok a) :
    (∃ i, s.dtypeInfo (.text m.dtype) = .ok i) ∧ a = m.array := by
  rw [ofArguments_eq, make_eq] at h
  obtain ⟨i, hi, h⟩ := Outcome.bind_eq_ok.mp h
  by_cases hneg : m.size < 0
  · rw [if_pos hneg] at h
    cases h
  · rw [if_neg hneg] at h
    exact ⟨⟨i, hi⟩, (Except.ok.inj h).symm⟩

theorem eq_array {m : Making} {s : Session} {a : TensorArray} (h : ofArguments s m.arguments [] = .ok a) :
    a = m.array := (of_make h).2

end Making

end Dataflow.TensorArray
