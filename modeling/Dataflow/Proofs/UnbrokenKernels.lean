import Dataflow.Proofs.Joining
import Dataflow.Proofs.Unbroken

/-! Premises of the kernels. The kernels of the host want the tensors that they tie or stack to be of one element type,
    and the operations on tensors want one tensor at least. These are all the premises there are between an operation on
    tensors and its answer: the selection of a kernel breaks none, and neither do the other kernels, whatever they are
    given. -/

namespace Dataflow

/-! ### Signatures -/

namespace TypeExpr

@[grind .] theorem unbroken_isSubOrigin (a b : Origin) : (isSubOrigin a b).Unbroken := by
  unfold isSubOrigin
  grind

@[grind .] theorem unbroken_matchHead (pattern arg : TypeExpr) : (matchHead pattern arg).Unbroken := by
  unfold matchHead
  grind

@[grind .] theorem unbroken_equalLiterals (vs ws : List Value) : (equalLiterals vs ws).Unbroken := by
  unfold equalLiterals
  grind

theorem unbroken_matchPattern_matchArguments_matchFirst :
    (∀ p a, (matchPattern p a).Unbroken) ∧ (∀ ps as, (matchArguments ps as).Unbroken) ∧
      ∀ ps a, (matchFirst ps a).Unbroken := by
  apply matchPattern.mutual_induct <;> intros <;> grind [matchPattern, matchArguments, matchFirst]

@[grind .] theorem unbroken_matchFirst (ps : List TypeExpr) (a : TypeExpr) : (matchFirst ps a).Unbroken :=
  unbroken_matchPattern_matchArguments_matchFirst.2.2 ps a

end TypeExpr

namespace Signature

@[grind .] theorem unbroken_matchEach (pss : List (List TypeExpr)) (ts : List TypeExpr) :
    (matchEach pss ts).Unbroken := by
  fun_induction matchEach pss ts <;> grind

@[grind .] theorem unbroken_matchTypes (s : Signature) (types : List TypeExpr) : (s.matchTypes types).Unbroken := by
  unfold matchTypes
  grind

end Signature

/-! ### Kernels of the host -/

namespace Host

@[grind .] theorem unbroken_word (bits : Nat) {e : Failure} (he : !e.isPremise) (n : Int) :
    (word bits e n).Unbroken := by
  unfold word
  grind

@[grind .] theorem unbroken_axisNumber (v : Value) : (axisNumber v).Unbroken := by
  unfold axisNumber
  grind

@[grind .] theorem unbroken_axisOf (rank : Nat) (a : Int) : (axisOf rank a).Unbroken := by
  unfold axisOf
  grind

@[grind .] theorem unbroken_place (v : Value) : (place v).Unbroken := by
  unfold place
  grind

@[grind .] theorem unbroken_places (v : Value) : (places v).Unbroken := by
  unfold places
  grind

@[grind .] theorem unbroken_placeOn (length : Nat) (i : Int) : (placeOn length i).Unbroken := by
  unfold placeOn
  grind

@[grind .] theorem unbroken_index (x : Tensor) (axis i : Value) : (index x axis i).Unbroken := by
  unfold index
  refine (unbroken_axisNumber axis).bind fun a _ => ?_
  refine (unbroken_axisOf _ _).bind fun k _ => ?_
  refine (unbroken_places i).bind fun p _ => ?_
  grind

@[grind .] theorem unbroken_members (v : Value) : (members v).Unbroken := by
  unfold members
  grind

@[grind .] theorem unbroken_runningTotals (t : Value) (vs : List Value) : (runningTotals t vs).Unbroken := by
  induction vs generalizing t with
  | nil => exact Outcome.unbroken_ok _
  | cons v vs ih =>
    unfold runningTotals
    grind

@[grind .] theorem unbroken_totals (sizes : List Value) : (totals sizes).Unbroken := by
  unfold totals
  grind

@[grind .] theorem unbroken_split (x : Tensor) (axis sizes : Value) : (split x axis sizes).Unbroken := by
  unfold split
  refine (unbroken_members sizes).bind fun vs _ => ?_
  split
  · exact Outcome.unbroken_pure _
  · refine (unbroken_totals vs).bind fun ts _ => ?_
    refine (Value.unbroken_position axis).bind fun a _ => ?_
    grind

@[grind .] theorem unbroken_joined (y : Option Tensor) : (joined y).Unbroken := by
  unfold joined
  grind

@[grind .] theorem unbroken_writtenElement (d : DType) (s : String) : (writtenElement d s).Unbroken := by
  unfold writtenElement
  grind

@[grind .] theorem unbroken_decoded (bs : List UInt8) : (decoded bs).Unbroken := by
  unfold decoded
  grind

@[grind .] theorem unbroken_writtenBytes (d : DType) (bs : List UInt8) : (writtenBytes d bs).Unbroken := by
  unfold writtenBytes
  grind

@[grind .] theorem unbroken_integerElement (d : DType) (n : Int) : (integerElement d n).Unbroken := by
  unfold integerElement
  grind

@[grind .] theorem unbroken_objectElement (d : DType) (v : Value) : (objectElement d v).Unbroken := by
  unfold objectElement
  grind

@[grind .] theorem unbroken_arrayElement (d : DType) (v : Value) : (arrayElement d v).Unbroken := by
  unfold arrayElement
  grind

@[grind .] theorem unbroken_require (holds : Bool) {e : Failure} (he : !e.isPremise) : (require holds e).Unbroken := by
  unfold require
  grind

@[grind .] theorem unbroken_requireText (v : Value) : (requireText v).Unbroken := by
  unfold requireText
  grind

@[grind .] theorem unbroken_requireDuration (read : Option Int) : (requireDuration read).Unbroken := by
  unfold requireDuration
  grind

@[grind .] theorem unbroken_attemptText (t : CodedType) (s : String) : (attemptText t s).Unbroken := by
  unfold attemptText
  grind

@[grind .] theorem unbroken_attemptBytes (t : CodedType) (bs : List UInt8) : (attemptBytes t bs).Unbroken := by
  unfold attemptBytes
  grind

@[grind .] theorem unbroken_attemptObject (t : CodedType) (v : Value) : (attemptObject t v).Unbroken := by
  unfold attemptObject
  grind

@[grind .] theorem unbroken_attemptSingle (t : CodedType) (v : Value) : (attemptSingle t v).Unbroken := by
  unfold attemptSingle
  grind

theorem unbroken_attempt_attemptEach :
    (∀ t v, (attempt t v).Unbroken) ∧ ∀ ts v, (attemptEach ts v).Unbroken := by
  apply attempt.mutual_induct <;> intros <;> grind [attempt, attemptEach]

@[grind .] theorem unbroken_attempt (t : CodedType) (v : Value) : (attempt t v).Unbroken :=
  unbroken_attempt_attemptEach.1 t v

@[grind .] theorem unbroken_stored (t : CodedType) (v : Value) : (stored t v).Unbroken := by
  unfold stored
  grind

@[grind .] theorem unbroken_storedInteger (t : CodedType) (n : Int) : (storedInteger t n).Unbroken := by
  unfold storedInteger
  grind

@[grind .] theorem unbroken_fieldName (k : Nat) (v : Value) : (fieldName k v).Unbroken := by
  unfold fieldName
  grind

@[grind .] theorem unbroken_taken (seen : List String) (name : String) (title : Option String) :
    (taken seen name title).Unbroken := by
  unfold taken
  grind

theorem unbroken_codedType_fields_field :
    (∀ v, (codedType v).Unbroken) ∧ (∀ seen k vs, (fields seen k vs).Unbroken) ∧ ∀ k v, (field k v).Unbroken := by
  apply codedType.mutual_induct <;> intros <;> grind [codedType, fields, field]

@[grind .] theorem unbroken_codedType (v : Value) : (codedType v).Unbroken := unbroken_codedType_fields_field.1 v

@[grind .] theorem unbroken_typeFor (v : Value) : (typeFor v).Unbroken := by
  unfold typeFor
  grind

@[grind .] theorem unbroken_valuesUnder (s : Shape) (v : Value) : (valuesUnder s v).Unbroken := by
  unfold valuesUnder
  grind

@[grind .] theorem unbroken_elements (t : CodedType) (s : Shape) (v : Value) : (elements t s v).Unbroken := by
  unfold elements
  grind

@[grind .] theorem unbroken_typeOfSole (v : Value) : (typeOfSole v).Unbroken := by
  unfold typeOfSole
  grind

@[grind .] theorem unbroken_constant (value dtype : Value) : (constant value dtype).Unbroken := by
  unfold constant
  grind

@[grind .] theorem unbroken_dimension (v : Value) : (dimension v).Unbroken := by
  unfold dimension
  grind

@[grind .] theorem unbroken_dimensions (v : Value) : (dimensions v).Unbroken := by
  unfold dimensions
  grind

@[grind .] theorem unbroken_newShape (n : Nat) (dims : List Int) : (newShape n dims).Unbroken := by
  unfold newShape
  grind

@[grind .] theorem unbroken_empty (shape dtype : Value) : (empty shape dtype).Unbroken := by
  unfold empty
  grind

end Host

/-! ### Kernels of torch -/

namespace Torch

@[grind .] theorem unbroken_typeFor (v : Value) : (typeFor v).Unbroken := by
  unfold typeFor
  grind

@[grind .] theorem unbroken_integerElement (signed : Bool) (bits : Nat) (n : Int) :
    (integerElement signed bits n).Unbroken := by
  unfold integerElement
  grind

@[grind .] theorem unbroken_truncatedElement (signed : Bool) (bits : Nat) (x : Floating) :
    (truncatedElement signed bits x).Unbroken := by
  unfold truncatedElement
  grind

@[grind .] theorem unbroken_ofInteger (d : DType) (n : Int) : (ofInteger d n).Unbroken := by
  unfold ofInteger
  grind

@[grind .] theorem unbroken_ofReal (d : DType) (x : Floating) : (ofReal d x).Unbroken := by
  unfold ofReal
  grind

@[grind .] theorem unbroken_ofScalar (d c : DType) (e : Element) : (ofScalar d c e).Unbroken := by
  unfold ofScalar
  grind

@[grind .] theorem unbroken_element (d : DType) (v : Value) : (element d v).Unbroken := by
  unfold element
  grind

@[grind .] theorem unbroken_stored (t : ElementType) (v : Value) : (stored t v).Unbroken := by
  unfold stored
  grind

@[grind .] theorem unbroken_announcedShape (v : Value) : (announcedShape v).Unbroken := by
  fun_induction announcedShape v <;> grind

@[grind .] theorem unbroken_elementsOf (t : ElementType) (s : Shape) (v : Value) : (elementsOf t s v).Unbroken := by
  induction s generalizing v with
  | nil => grind [elementsOf]
  | cons n s ih =>
    unfold elementsOf
    grind

@[grind .] theorem unbroken_nestedTensor (t : ElementType) (v : Value) : (nestedTensor t v).Unbroken := by
  unfold nestedTensor
  grind

@[grind .] theorem unbroken_constant (value dtype : Value) : (constant value dtype).Unbroken := by
  unfold constant
  grind

@[grind .] theorem unbroken_dimension (v : Value) : (dimension v).Unbroken := by
  unfold dimension
  grind

@[grind .] theorem unbroken_laterDimension (v : Value) : (laterDimension v).Unbroken := by
  unfold laterDimension
  grind

@[grind .] theorem unbroken_dimensions (v : Value) : (dimensions v).Unbroken := by
  unfold dimensions
  grind

@[grind .] theorem unbroken_empty (shape dtype : Value) : (empty shape dtype).Unbroken := by
  unfold empty
  grind

@[grind .] theorem unbroken_positionOf (length : Nat) (i : Int) : (positionOf length i).Unbroken := by
  unfold positionOf
  grind

@[grind .] theorem unbroken_number (v : Value) : (number v).Unbroken := by
  unfold number
  grind

@[grind .] theorem unbroken_word {e : Failure} (he : !e.isPremise) (n : Int) : (word e n).Unbroken := by
  unfold word
  grind

@[grind .] theorem unbroken_index (x : Tensor) (axis i : Value) : (index x axis i).Unbroken := by
  unfold index
  refine (unbroken_number axis).bind fun a _ => ?_
  refine (unbroken_number i).bind fun i _ => ?_
  refine (unbroken_word rfl i).bind fun i _ => ?_
  grind

@[grind .] theorem unbroken_laterSize (v : Value) : (laterSize v).Unbroken := by
  unfold laterSize
  grind

@[grind .] theorem unbroken_split (x : Tensor) (axis sizes : Value) : (split x axis sizes).Unbroken := by
  unfold split
  refine (Value.unbroken_items sizes).bind fun vs _ => ?_
  split
  · refine (unbroken_number _).bind fun n _ => ?_
    refine (unbroken_number axis).bind fun a _ => ?_
    refine (unbroken_word rfl a).bind fun a _ => ?_
    refine .bind (by grind) fun ns _ => ?_
    refine .bind (.mapM fun n _ => unbroken_word rfl n) fun ns _ => ?_
    split
    · simp
    · grind
  · exact Outcome.unbroken_pure _

@[grind .] theorem unbroken_commonDType (xs : List Tensor) : (commonDType xs).Unbroken := by
  unfold commonDType
  grind

@[grind .] theorem unbroken_joined (join : List Tensor → Option Tensor) (xs : List Tensor) :
    (joined join xs).Unbroken := by
  unfold joined
  grind

@[grind .] theorem unbroken_tie (axis : Value) (xs : List Tensor) : (tie axis xs).Unbroken := by
  unfold tie
  refine (unbroken_number axis).bind fun a _ => ?_
  refine (unbroken_word rfl a).bind fun a _ => ?_
  grind

@[grind .] theorem unbroken_stack (axis : Value) (xs : List Tensor) : (stack axis xs).Unbroken := by
  unfold stack
  grind

end Torch

/-! ### Tensors of one element type -/

namespace Tensor

/-- Tensors of one element type. -/
def OneType (xs : List Tensor) : Prop := ∃ d, ∀ x ∈ xs, x.dtype = d

theorem OneType.nil : OneType [] := ⟨.bool, nofun⟩

theorem OneType.single (x : Tensor) : OneType [x] := ⟨x.dtype, by simp⟩

theorem OneType.mono {xs ys : List Tensor} (h : OneType ys) (hsub : xs ⊆ ys) : OneType xs :=
  h.imp fun _ hd x hx => hd x (hsub hx)

end Tensor

namespace Host

variable {xs : List Tensor}

theorem unbroken_requireSameDType (operation : String) (h : Tensor.OneType xs) :
    (requireSameDType operation xs).Unbroken := by
  obtain ⟨d, hd⟩ := h
  rw [requireSameDType_ok hd]
  exact Outcome.unbroken_ok ()

theorem unbroken_tie (axis : Value) (h : Tensor.OneType xs) : (tie axis xs).Unbroken := by
  refine (unbroken_requireSameDType "tie" h).bind fun _ _ => ?_
  grind

theorem unbroken_stack (axis : Value) (h : Tensor.OneType xs) : (stack axis xs).Unbroken := by
  refine (unbroken_requireSameDType "stack" h).bind fun _ _ => ?_
  grind

end Host

namespace Kernel

@[grind .] theorem unbroken_tensorOf (o : Operand) : (tensorOf o).Unbroken := by
  unfold tensorOf
  grind

@[grind .] theorem unbroken_splitNone (device : Device) (sizes : Value) : (splitNone device sizes).Unbroken := by
  unfold splitNone
  grind

@[grind .] theorem unbroken_constant (device : Device) (value dtype : Value) :
    (constant device value dtype).Unbroken := by
  unfold constant
  grind

@[grind .] theorem unbroken_empty (device : Device) (shape dtype : Value) : (empty device shape dtype).Unbroken := by
  unfold empty
  grind

@[grind .] theorem unbroken_index (device : Device) (x : Tensor) (axis position : Value) :
    (index device x axis position).Unbroken := by
  unfold index
  grind

@[grind .] theorem unbroken_split (device : Device) (x : Tensor) (axis sizes : Value) :
    (split device x axis sizes).Unbroken := by
  unfold split
  grind

variable {os : List Operand} {xs : List Tensor}

theorem unbroken_tensorsOf (device : Device) (operation : String) (h : Tensor.OneType (os.filterMap Operand.tensor?)) :
    (tensorsOf device operation os).Unbroken := by
  have hknown : Tensor.OneType ((os.takeWhile (·.tensor?.isSome)).filterMap Operand.tensor?) :=
    h.mono ((List.takeWhile_sublist _).filterMap _).subset
  unfold tensorsOf
  cases device with
  | torch => exact .mapM fun o _ => unbroken_tensorOf o
  | host => exact (Host.unbroken_requireSameDType operation hknown).bind fun _ _ => .mapM fun o _ => unbroken_tensorOf o

theorem tensorOf_eq_ok {o : Operand} {x : Tensor} (h : tensorOf o = .ok x) : o.tensor? = some x := by
  unfold tensorOf at h
  split at h <;> cases h
  assumption

theorem mem_of_tensorsOf {device : Device} {operation : String} (h : tensorsOf device operation os = .ok xs) :
    xs ⊆ os.filterMap Operand.tensor? := by
  have hread : os.mapM tensorOf = .ok xs := by
    cases device with
    | torch => exact h
    | host => exact (Outcome.bind_eq_ok.mp h).elim fun _ h => h.2
  intro x hx
  obtain ⟨o, ho, hox⟩ := Outcome.exists_of_mapM hread hx
  exact List.mem_filterMap.mpr ⟨o, ho, tensorOf_eq_ok hox⟩

theorem unbroken_tie (device : Device) (axis : Value) (h : Tensor.OneType xs) : (tie device axis xs).Unbroken := by
  cases device with
  | host => exact Host.unbroken_tie axis h
  | torch => exact Torch.unbroken_tie axis xs

theorem unbroken_stack (device : Device) (axis : Value) (h : Tensor.OneType xs) : (stack device axis xs).Unbroken := by
  cases device with
  | host => exact Host.unbroken_stack axis h
  | torch => exact Torch.unbroken_stack axis xs

theorem unbroken_joining {device : Device} {operation : String} {kernel : List Tensor → Outcome Tensor}
    (h : Tensor.OneType (os.filterMap Operand.tensor?)) (hkernel : ∀ xs, Tensor.OneType xs → (kernel xs).Unbroken) :
    Outcome.Unbroken (do return [← kernel (← tensorsOf device operation os)]) := by
  refine (unbroken_tensorsOf device operation h).bind fun xs hxs => ?_
  exact (hkernel xs (h.mono (mem_of_tensorsOf hxs))).bind fun _ _ => Outcome.unbroken_pure _

/-- A kernel that is given tensors of one element type breaks no premise, whatever else it is given. -/
theorem unbroken_run (device : Device) (kind : OperatorKind) (h : Tensor.OneType (os.filterMap Operand.tensor?)) :
    (run device kind os).Unbroken := by
  have hrest {o : Operand} {rest : List Operand} (hos : os = o :: rest) :
      Tensor.OneType (rest.filterMap Operand.tensor?) := by
    subst hos
    exact h.mono ((List.sublist_cons_self o rest).filterMap _).subset
  unfold run
  split
  · grind
  · grind
  · grind
  · grind
  · exact unbroken_joining (hrest rfl) fun xs hxs => unbroken_tie device _ hxs
  · exact unbroken_joining (hrest rfl) fun xs hxs => unbroken_stack device _ hxs
  · exact (unbroken_tensorsOf device "tie" (hrest rfl)).bind fun _ _ => by simp
  · exact (unbroken_tensorsOf device "stack" (hrest rfl)).bind fun _ _ => by simp
  · simp

end Kernel

/-! ### Operators -/

namespace Table

theorem unbroken_accepts (types : List TypeExpr) {e : Entry} (h : e.predicate = none) : (e.accepts types).Unbroken := by
  unfold Entry.accepts
  grind

@[grind .] theorem unbroken_lookup (devices : List Device) (types : List TypeExpr) :
    ((builtin devices).lookup types).Unbroken := by
  have haccepting (es : Table) (h : ∀ e ∈ es, e.predicate = none) : (accepting types es).Unbroken := by
    induction es with
    | nil => exact Outcome.unbroken_ok _
    | cons e es ih =>
      unfold accepting
      grind [unbroken_accepts]
  have hbuiltin : ∀ e ∈ builtin devices, e.predicate = none := by
    intro e he
    rcases List.mem_cons.mp he with rfl | he
    · rfl
    · obtain ⟨device, -, he⟩ := List.mem_flatMap.mp he
      obtain ⟨kind, -, rfl⟩ := List.mem_map.mp he
      rfl
  refine (haccepting _ hbuiltin).bind fun es _ => ?_
  grind

end Table

namespace Operator

theorem unbroken_apply (op : Operator) {xs : List Tensor} (h : Tensor.OneType xs) : (op.apply xs).Unbroken := by
  have hoperands : Tensor.OneType ((.operator op :: xs.map .tensor).filterMap Operand.tensor?) := by
    simpa [List.filterMap_cons, Operand.tensor?, Function.comp_def] using h
  have hrun (device : Device) (kind : OperatorKind) := Kernel.unbroken_run device kind hoperands
  unfold apply
  grind

theorem unbroken_applySingle (op : Operator) {xs : List Tensor} (h : Tensor.OneType xs) :
    (op.applySingle xs).Unbroken := by
  unfold applySingle
  grind [unbroken_apply]

end Operator

namespace Tensor

variable {xs : List Tensor}

@[grind .] theorem unbroken_index (x : Tensor) (i axis : Value) : (x.index i axis).Unbroken :=
  Operator.unbroken_applySingle _ (.single x)

@[grind .] theorem unbroken_rowsUpTo (x : Tensor) (n : Nat) : (x.rowsUpTo n).Unbroken :=
  .mapM fun _ _ => unbroken_index x _ _

@[grind .] theorem unbroken_split (x : Tensor) (axis : Value) (sizes : List Int) : (x.split axis sizes).Unbroken := by
  have happly := Operator.unbroken_apply (.split axis (.tuple (sizes.map .int))) (.single x)
  unfold split requireSizes lengthAt
  grind

/-- Tensors of one element type are tied without a broken premise if there are any. -/
theorem unbroken_tie (axis : Value) (hne : xs ≠ []) (h : OneType xs) : (tie xs axis).Unbroken := by
  rw [tie, if_neg (by simpa using hne)]
  exact Operator.unbroken_applySingle _ h

theorem unbroken_stack (axis : Value) (hne : xs ≠ []) (h : OneType xs) : (stack xs axis).Unbroken := by
  rw [stack, if_neg (by simpa using hne)]
  exact Operator.unbroken_applySingle _ h

end Tensor

end Dataflow
