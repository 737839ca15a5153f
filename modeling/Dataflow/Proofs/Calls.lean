import Dataflow.Proofs.Slots
import Dataflow.TensorArray.Method

/-! Calls of tensor arrays. A call looks at its arguments, and then reads or writes slots one after another up to the first
    that fails; this is all that it does to the array, unless it closes it. -/

namespace Dataflow

/-- A list or a tuple. -/
structure Sequence (α : Type) where
  isTuple : Bool
  members : List α

namespace Sequence

variable {α : Type}

def toValue (f : α → Value) (s : Sequence α) : Value :=
  if s.isTuple then .tuple (s.members.map f) else .list (s.members.map f)

def length (s : Sequence α) : Nat := s.members.length

def map {β : Type} (f : α → β) (s : Sequence α) : Sequence β := ⟨s.isTuple, s.members.map f⟩

@[simp] theorem items_toValue (f : α → Value) (s : Sequence α) : (s.toValue f).items = .ok (s.members.map f) := by
  unfold toValue
  split <;> rfl

theorem wholeParts_toValue (s : Sequence Int) : (s.toValue .int).wholeParts = .ok s.members := by
  rw [Value.wholeParts, items_toValue, Outcome.ok_bind, Outcome.mapM_map_ok (f := Value.wholePart) fun _ => rfl]

end Sequence

namespace TensorArray

/-- A call of a tensor array, with arguments as its parameters ask for them. -/
inductive Call where
  | size
  | read (index : Int)
  | readMany (indices : Sequence Int)
  | write (index : Int) (x : Tensor)
  | writeMany (indices : Sequence Int) (xs : Sequence Tensor)
  | gather (indices : Sequence Int) (dtype : Option String)
  | scatter (indices : Sequence Int) (x : Tensor)
  | concat (dtype : Option String)
  | split (lengths : Sequence Int) (x : Tensor)
  | clearAndClose

/-- A text that may be missing. -/
def optionalText (s : Option String) : Value := (s.map Value.text).getD .nothing

namespace Call

def method : Call → Method
  | .size => .size
  | .read _ => .read
  | .readMany _ => .readMany
  | .write _ _ => .write
  | .writeMany _ _ => .writeMany
  | .gather _ _ => .gather
  | .scatter _ _ => .scatter
  | .concat _ => .concat
  | .split _ _ => .split
  | .clearAndClose => .clearAndClose

def arguments : Call → List Value
  | .size | .clearAndClose => []
  | .read i => [.int i]
  | .readMany is => [is.toValue .int]
  | .write i x => [.int i, .tensor x]
  | .writeMany is xs => [is.toValue .int, xs.toValue .tensor]
  | .gather is dtype => [is.toValue .int, optionalText dtype]
  | .scatter is x => [is.toValue .int, .tensor x]
  | .concat dtype => [optionalText dtype]
  | .split ns x => [ns.toValue .int, .tensor x]

def perform (c : Call) : Action (Session × TensorArray) Value := call c.method c.arguments

end Call

/-! ### Elementary steps -/

/-- A read or a write of one slot. -/
inductive Step where
  | read (i : Int)
  | write (i : Int) (x : Tensor)

namespace Step

def perform : Step → Action TensorArray Unit
  | .read i => do let _ ← TensorArray.read (.int i)
  | .write i x => TensorArray.write (.int i) (.tensor x)

/-- Whether a step succeeds. -/
def outcome (a : TensorArray) : Step → Outcome Unit
  | .read i => (fun _ => ()) <$> a.readable i
  | .write i x => a.writable i x

/-- The array after a step that succeeds. -/
def result (a : TensorArray) : Step → TensorArray
  | .read i => a.released i.toNat
  | .write i x => a.written i.toNat x

/-- A step that fails leaves the array as it is. -/
theorem perform_eq (t : Step) (a : TensorArray) :
    t.perform a = match t.outcome a with
      | .ok () => (.ok (), t.result a)
      | .error e => (.error e, a) := by
  cases t with
  | read i =>
    simp only [perform, Action.bind_apply, read_eq, outcome]
    cases a.readable i <;> rfl
  | write i x => exact write_eq i x a

end Step

/-- Steps one after another, up to the first that fails. -/
def performEach : List Step → Action TensorArray Unit
  | [] => pure ()
  | t :: ts => do
    t.perform
    performEach ts

/-- The steps that succeed, up to the first that fails. -/
def effective : List Step → TensorArray → List Step
  | [], _ => []
  | t :: ts, a => match t.outcome a with
    | .ok () => t :: effective ts (t.result a)
    | .error _ => []

theorem performEach_cons (t : Step) (ts : List Step) (a : TensorArray) :
    performEach (t :: ts) a = match t.outcome a with
      | .ok () => performEach ts (t.result a)
      | .error e => (.error e, a) := by
  rw [performEach, Action.bind_apply, Step.perform_eq]
  rcases t.outcome a with e | ⟨⟩ <;> rfl

theorem performEach_effective (ts : List Step) (a : TensorArray) :
    (performEach ts a).2 = (effective ts a).foldl Step.result a := by
  induction ts generalizing a with
  | nil => rfl
  | cons t ts ih =>
    rw [performEach_cons, effective]
    rcases t.outcome a with e | ⟨⟩
    · rfl
    · exact ih (t.result a)

theorem effective_of_ok {ts : List Step} {a : TensorArray} (h : (performEach ts a).1 = .ok ()) :
    effective ts a = ts := by
  induction ts generalizing a with
  | nil => rfl
  | cons t ts ih =>
    rw [performEach_cons] at h
    rw [effective]
    rcases ht : t.outcome a with e | ⟨⟩
    · rw [ht] at h
      cases h
    · rw [ht] at h
      exact congrArg (t :: ·) (ih h)

theorem effective_of_error {ts : List Step} {a : TensorArray} {e : Failure} (h : (performEach ts a).1 = .error e) :
    ∃ t rest, ts = effective ts a ++ t :: rest ∧ t.outcome (performEach ts a).2 = .error e := by
  induction ts generalizing a with
  | nil => cases h
  | cons t ts ih =>
    rw [performEach_cons] at h ⊢
    rw [effective]
    rcases ht : t.outcome a with e' | ⟨⟩
    · rw [ht] at h
      obtain rfl : e' = e := Except.error.inj h
      exact ⟨t, ts, rfl, ht⟩
    · rw [ht] at h
      obtain ⟨u, rest, hts, hu⟩ := ih h
      exact ⟨u, rest, congrArg (t :: ·) hts, hu⟩

theorem readEach_eq (is : List Int) (a : TensorArray) :
    ∃ o, readEach (is.map .int) a = (o, (performEach (is.map .read) a).2) ∧
      ∀ e, (performEach (is.map .read) a).1 = .error e → o = .error e := by
  -- A read that fails takes the tensors of the reads before it away, but not what these have done to the array.
  induction is generalizing a with
  | nil => exact ⟨.ok [], rfl, fun e h => by cases h⟩
  | cons i is ih =>
    rw [List.map_cons, List.map_cons, readEach, Action.bind_apply, read_eq, performEach_cons, Step.outcome]
    cases a.readable i with
    | error e => exact ⟨.error e, rfl, fun e' h => congrArg Except.error (Except.error.inj h)⟩
    | ok x =>
      obtain ⟨o, ho, he⟩ := ih (a.released i.toNat)
      refine ⟨(x :: ·) <$> o, ?_, fun e h => ?_⟩
      · show (readEach (is.map .int) >>= fun xs => pure (x :: xs) : Action TensorArray (List Tensor)) _ = _
        rw [Action.bind_apply, ho]
        cases o <;> rfl
      · rw [he e h]
        rfl

theorem writeEach_eq (is : List Int) (xs : List Tensor) (a : TensorArray) :
    writeEach ((is.map Value.int).zip (xs.map Value.tensor)) a = performEach (List.zipWith .write is xs) a := by
  induction is generalizing xs a with
  | nil => rfl
  | cons i is ih =>
    cases xs with
    | nil => rfl
    | cons x xs =>
      rw [List.map_cons, List.map_cons, List.zip_cons_cons, List.zipWith_cons_cons, writeEach, Action.bind_apply,
        write_eq, performEach_cons, Step.outcome]
      rcases a.writable i x with e | ⟨⟩
      · rfl
      · exact ih xs _

/-! ### What a call consists of -/

/-- An operation is possible on an open array only. -/
def opened (a : TensorArray) : Outcome Unit := if a.closed then .error (a.refusal .closed) else .ok ()

theorem closed_of_opened {a : TensorArray} (h : a.opened = .ok ()) : a.closed = false := by
  cases hclosed : a.closed with
  | false => rfl
  | true =>
    rw [opened, if_pos hclosed] at h
    cases h

/-- The steps that a call consists of. It fails where the call does not accept its arguments. -/
def Call.steps (a : TensorArray) : Call → Outcome (List Step)
  | .size | .clearAndClose => .ok []
  | .read i => .ok [.read i]
  | .readMany is => .ok (is.members.map .read)
  | .write i x => .ok [.write i x]
  | .writeMany is xs =>
    if is.length = xs.length then .ok (List.zipWith .write is.members xs.members)
    else .error (a.refusal (.pairing is.length xs.length))
  | .gather is dtype => do
    a.opened
    checkDType (optionalText dtype) a.dtype (a.label "gather")
    return is.members.map .read
  | .scatter is x => do
    a.opened
    let shape ← checkElementType a.dtype (.tensor x) (a.label "scatter")
    if shape.head? ≠ some is.length then throw (a.refusal (.rowCount is.length shape))
    match is.members.max? with
    | none => return []
    | some last =>
      if !a.dynamicSize.truth && a.size ≤ last then throw (a.refusal (.scatterPastEnd (.int last) a.size))
      return List.zipWith .write is.members (← x.rowsUpTo is.length)
  | .concat dtype => do
    a.opened
    checkDType (optionalText dtype) a.dtype (a.label "concat")
    return a.held.map fun (k : Nat) => .read k
  | .split ns x => do
    a.opened
    let shape ← checkElementType a.dtype (.tensor x) (a.label "split")
    match shape with
    | [] => throw (a.refusal .scalarSplit)
    | d :: _ =>
      let total := sumOf ns.members
      if total ≠ d then
        let _ ← (Value.int total).formatted
        throw (a.refusal (.lengthTotal total shape))
      if !a.dynamicSize.truth && a.size < ns.length then throw (a.refusal (.chunkCount ns.length a.size))
      let parts ← x.split (.int 0) ns.members
      return List.zipWith .write ((List.range ns.length).map fun (k : Nat) => (k : Int)) parts

/-- An array as the state of its own actions. -/
abbrev itself (a : TensorArray) : TensorArray := a

/-- An action on a state with an array in it, which is refused and leaves the array as it is, or does to the array what
    some steps do and fails where one of them does. -/
structure Performs {σ α : Type} (view : σ → TensorArray) (act : Action σ α) (steps : Outcome (List Step)) (p : σ) :
    Prop where
  refused : ∀ e, steps = .error e → (act p).1 = .error e ∧ view (act p).2 = view p
  array : ∀ ts, steps = .ok ts → view (act p).2 = (performEach ts (view p)).2
  failure : ∀ ts e, steps = .ok ts → (performEach ts (view p)).1 = .error e → (act p).1 = .error e

namespace Performs

variable {σ α β : Type} {view : σ → TensorArray} {act : Action σ α} {steps : Outcome (List Step)} {p : σ}

theorem of_error {e : Failure} (h : act p = (.error e, p)) : Performs view act (.error e) p where
  refused := fun _ he => by cases he; rw [h]; exact ⟨rfl, rfl⟩
  array := fun _ h => nomatch h
  failure := fun _ _ h => nomatch h

theorem of_unchanged (h : view (act p).2 = view p) : Performs view act (.ok []) p where
  refused := fun _ he => nomatch he
  array := fun _ hts => by cases hts; exact h
  failure := fun _ _ hts he => by cases hts; cases he

theorem bind_ok {part : Action σ β} {x : β} {f : β → Action σ α} (hpart : part p = (.ok x, p))
    (h : Performs view (f x) steps p) : Performs view (part >>= f) steps p := by
  have hact : (part >>= f) p = f x p := Action.bind_ok hpart
  exact ⟨fun e he => by rw [hact]; exact h.refused e he, fun ts hts => by rw [hact]; exact h.array ts hts,
    fun ts e hts he => by rw [hact]; exact h.failure ts e hts he⟩

theorem bind {check : Action σ β} {o : Outcome β} {f : β → Action σ α} {g : β → Outcome (List Step)}
    (hcheck : check p = (o, p)) (h : ∀ x, o = .ok x → Performs view (f x) (g x) p) :
    Performs view (check >>= f) (o >>= g) p := by
  cases o with
  | error e => exact of_error (Action.bind_error hcheck)
  | ok x => exact bind_ok hcheck (h x rfl)

theorem bind_after {f : α → Action σ β} (h : Performs view act steps p) (hf : ∀ x q, view (f x q).2 = view q) :
    Performs view (act >>= f) steps p := by
  have hview : view ((act >>= f) p).2 = view (act p).2 := by
    rw [Action.bind_apply]
    rcases act p with ⟨e | x, q⟩
    · rfl
    · exact hf x q
  have herror : ∀ e, (act p).1 = .error e → ((act >>= f) p).1 = .error e := by
    intro e he
    have hact : act p = (.error e, (act p).2) := Prod.ext he rfl
    rw [Action.bind_error hact]
  exact ⟨fun e he => ⟨herror e (h.refused e he).1, hview.trans (h.refused e he).2⟩,
    fun ts hts => hview.trans (h.array ts hts), fun ts e hts he => herror e (h.failure ts e hts he)⟩

theorem onSecond {act : Action TensorArray α} {a : TensorArray} (h : Performs itself act steps a) (s : Session) :
    Performs Prod.snd act.onSecond steps (s, a) := ⟨h.refused, h.array, h.failure⟩

end Performs

/-- An action on an array that is refused, or is some steps one after another and nothing else. -/
def Does (act : Action TensorArray Unit) (steps : Outcome (List Step)) (a : TensorArray) : Prop :=
  act a = match steps with
    | .ok ts => performEach ts a
    | .error e => (.error e, a)

namespace Does

variable {β : Type} {act : Action TensorArray Unit} {steps : Outcome (List Step)} {a : TensorArray}

theorem of_error {e : Failure} (h : act a = (.error e, a)) : Does act (.error e) a := h

theorem bind_ok {part : Action TensorArray β} {x : β} {f : β → Action TensorArray Unit} (hpart : part a = (.ok x, a))
    (h : Does (f x) steps a) : Does (part >>= f) steps a := (Action.bind_ok hpart).trans h

theorem bind {check : Action TensorArray β} {o : Outcome β} {f : β → Action TensorArray Unit}
    {g : β → Outcome (List Step)} (hcheck : check a = (o, a)) (h : ∀ x, o = .ok x → Does (f x) (g x) a) :
    Does (check >>= f) (o >>= g) a := by
  cases o with
  | error e => exact of_error (Action.bind_error hcheck)
  | ok x => exact bind_ok hcheck (h x rfl)

theorem refuse_if {q : Prop} [Decidable q] {cause : ArrayRefusal} {f : Unit → Action TensorArray Unit}
    {g : Unit → Outcome (List Step)} (h : ¬q → Does (f ()) (g ()) a) :
    Does (if q then refuse cause >>= f else f ()) (if q then throw (a.refusal cause) >>= g else g ()) a := by
  by_cases hq : q
  · rw [if_pos hq, if_pos hq]
    exact of_error rfl
  · rw [if_neg hq, if_neg hq]
    exact h hq

theorem performs (h : Does act steps a) : Performs itself act steps a := by
  unfold Does at h
  cases steps with
  | error e => exact .of_error h
  | ok ts =>
    refine ⟨fun _ he => (nomatch he), fun _ hts => ?_, fun _ e hts he => ?_⟩
    · cases hts
      rw [h]
    · cases hts
      rw [h]
      exact he

end Does

/-! ### The calls one by one -/

section
variable (a : TensorArray)

theorem performs_readEach (is : List Int) : Performs itself (readEach (is.map .int)) (.ok (is.map .read)) a := by
  obtain ⟨o, ho, he⟩ := readEach_eq is a
  exact ⟨fun _ h => (nomatch h), fun _ hts => by cases hts; rw [ho],
    fun _ e hts hfail => by cases hts; rw [ho]; exact he e hfail⟩

theorem performs_read (i : Int) : Performs itself (read (.int i)) (.ok [.read i]) a := by
  have hone : performEach [.read i] a = Step.perform (.read i) a := by
    rw [performEach_cons, Step.perform_eq]
    rfl
  refine ⟨fun _ h => (nomatch h), fun _ hts => ?_, fun _ e hts hfail => ?_⟩
  · cases hts
    rw [hone, Step.perform_eq, read_eq, Step.outcome]
    cases a.readable i <;> rfl
  · cases hts
    rw [hone, Step.perform_eq, Step.outcome] at hfail
    rw [read_eq]
    cases hread : a.readable i with
    | error e' => rw [hread] at hfail; exact congrArg Except.error (Except.error.inj hfail)
    | ok x => rw [hread] at hfail; cases hfail

theorem does_write (i : Int) (x : Tensor) : Does (write (.int i) (.tensor x)) (.ok [.write i x]) a := by
  show _ = performEach [.write i x] a
  rw [performEach_cons, write_eq, Step.outcome]
  rcases a.writable i x with e | ⟨⟩ <;> rfl

theorem performs_size : Performs itself openSize (.ok []) a := by
  refine .of_unchanged ?_
  rw [openSize, Action.bind_apply, requireOpen_apply]
  by_cases h : a.closed = true
  · rw [if_pos h]
  · rw [if_neg h]
    rfl

theorem lift_items {α : Type} (f : α → Value) (s : Sequence α) :
    (liftM (s.toValue f).items : Action TensorArray (List Value)) a = (.ok (s.members.map f), a) := by
  rw [Sequence.items_toValue, Action.lift_apply]

theorem performs_readMany (is : Sequence Int) :
    Performs itself (readMany (is.toValue .int)) (Call.steps a (.readMany is)) a :=
  .bind_ok (lift_items a .int is) (performs_readEach a is.members)

theorem does_writeMany (is : Sequence Int) (xs : Sequence Tensor) :
    Does (writeMany (is.toValue .int) (xs.toValue .tensor)) (Call.steps a (.writeMany is xs)) a := by
  refine .bind_ok (lift_items a .int is) (.bind_ok (lift_items a .tensor xs) ?_)
  simp only [List.length_map]
  by_cases h : is.members.length = xs.members.length
  · have hsteps : Call.steps a (.writeMany is xs) = .ok (List.zipWith .write is.members xs.members) := if_pos h
    rw [hsteps, if_neg (Decidable.not_not.mpr h)]
    exact writeEach_eq is.members xs.members a
  · have hsteps : Call.steps a (.writeMany is xs) = .error (a.refusal (.pairing is.length xs.length)) := if_neg h
    rw [hsteps, if_pos h]
    exact .of_error rfl

theorem greatest_int (i : Int) (is : List Int) :
    Value.greatest (.int i) (is.map .int) = .ok (.int (is.foldl max i)) := by
  induction is generalizing i with
  | nil => rfl
  | cons j is ih =>
    rw [List.map_cons, Value.greatest, Value.less_int, Outcome.ok_bind, List.foldl_cons]
    by_cases h : i < j
    · rw [if_pos (by simpa using h), ih, Int.max_eq_right (Int.le_of_lt h)]
    · rw [if_neg (by simpa using h), ih, Int.max_eq_left (Int.not_lt.mp h)]

theorem does_writeParts (is : List Int) (parts : Outcome (List Tensor)) :
    Does (do writeEach ((is.map .int).zip ((← liftM parts).map .tensor)))
      (do return List.zipWith .write is (← parts)) a :=
  .bind rfl fun xs _ => writeEach_eq is xs a

theorem does_scatter (is : Sequence Int) (x : Tensor) :
    Does (scatter (is.toValue .int) (.tensor x)) (Call.steps a (.scatter is x)) a := by
  obtain ⟨isTuple, is⟩ := is
  unfold scatter Call.steps
  refine .bind (requireOpen_apply a) fun _ _ => .bind rfl fun shape _ => .bind_ok (lift_items a .int _) ?_
  rw [List.length_map]
  refine .refuse_if fun _ => ?_
  cases is with
  -- Without indices there is no largest one that could lie past the end, and nothing to write.
  | nil => rfl
  | cons i rest =>
    have hgreatest : (liftM (Value.greatest (.int i) (rest.map .int)) : Action TensorArray Value) a =
        (.ok (.int (rest.foldl max i)), a) := by
      rw [greatest_int, Action.lift_apply]
    refine .bind_ok hgreatest (.bind_ok (Action.get_apply a) ?_)
    have hrows := does_writeParts a (i :: rest) (x.rowsUpTo (i :: rest).length)
    cases hdynamic : a.dynamicSize.truth with
    | true => exact hrows
    | false =>
      refine .bind_ok (by rw [Value.atLeast_int, Action.lift_apply]) ?_
      exact .refuse_if fun _ => hrows

theorem indices_eq (ks : List Nat) : indices ks = (ks.map fun (k : Nat) => (k : Int)).map .int := by
  rw [indices, List.map_map]
  rfl

theorem does_split (ns : Sequence Int) (x : Tensor) :
    Does (split (ns.toValue .int) (.tensor x)) (Call.steps a (.split ns x)) a := by
  unfold split Call.steps
  refine .bind (requireOpen_apply a) fun _ _ => .bind rfl fun shape _ => ?_
  cases shape with
  | nil => exact .of_error rfl
  | cons d shape =>
    refine .bind_ok (by rw [Sequence.wholeParts_toValue, Action.lift_apply]) ?_
    have hparts := does_writeParts a ((List.range ns.length).map fun (k : Nat) => (k : Int))
      (x.split (.int 0) ns.members)
    rw [← indices_eq] at hparts
    by_cases hsum : sumOf ns.members ≠ d
    · simp only [if_pos hsum]
      exact .bind rfl fun _ _ => .of_error rfl
    · simp only [if_neg hsum]
      exact .bind_ok (Action.get_apply a) (.refuse_if fun _ => hparts)

theorem requireOpen_onSecond (s : Session) : requireOpen.onSecond (s, a) = (a.opened, s, a) := by
  rw [Action.onSecond_apply, requireOpen_apply]
  rfl

theorem performs_gather (is : Sequence Int) (dtype : Option String) (s : Session) :
    Performs Prod.snd (gather (is.toValue .int) (optionalText dtype)) (Call.steps a (.gather is dtype)) (s, a) := by
  obtain ⟨isTuple, is⟩ := is
  unfold gather Call.steps
  refine .bind (requireOpen_onSecond a s) fun _ _ => .bind rfl fun _ _ => ?_
  refine .bind_ok (by rw [Sequence.items_toValue, Action.lift_apply]) ?_
  cases is with
  -- Nothing is read for an empty tensor.
  | nil => exact .of_unchanged rfl
  | cons i is => exact .bind_after ((performs_readEach a (i :: is)).onSecond s) fun _ _ => rfl

theorem performs_concat (dtype : Option String) (s : Session) :
    Performs Prod.snd (concat (optionalText dtype)) (Call.steps a (.concat dtype)) (s, a) := by
  unfold concat Call.steps
  refine .bind (requireOpen_onSecond a s) fun _ _ => .bind rfl fun _ _ => .bind_ok (Action.get_apply (s, a)) ?_
  have hread := performs_readEach a (a.held.map fun (k : Nat) => (k : Int))
  rw [← indices_eq, List.map_map] at hread
  show Performs Prod.snd _ (.ok (a.held.map fun (k : Nat) => .read k)) (s, a)
  cases hheld : a.held with
  | nil => exact .of_unchanged rfl
  | cons k ks =>
    rw [hheld] at hread
    -- All tensors have been read by the time that their ranks are looked at.
    refine .bind_after (hread.onSecond s) fun xs q => ?_
    by_cases hscalar : xs.any (·.rank = 0)
    · simp only [if_pos hscalar]
      rfl
    · simp only [if_neg hscalar]
      rfl

theorem clearAndClose_array (p : Session × TensorArray) :
    (clearAndClose p).2.2 = { p.2 with slots := [], closed := true } := rfl

end

namespace Call

theorem bind_arguments {m : Method} {args : List Value} (h : m.parameters.length = args.length) :
    Arguments.bind m.parameters args [] = .ok args := by
  simp [Arguments.bind, ← h]

theorem perform_eq (c : Call) : c.perform = invoke c.method c.arguments := by
  have h : Arguments.bind c.method.parameters c.arguments [] = .ok c.arguments :=
    bind_arguments (by cases c <;> rfl)
  funext p
  rw [Call.perform, TensorArray.call, h, Action.bind_apply, Action.lift_apply]

/-- A call does to an array what its steps do, unless it closes the array. -/
theorem performs (c : Call) (hc : c ≠ .clearAndClose) (s : Session) (a : TensorArray) :
    Performs Prod.snd c.perform (c.steps a) (s, a) := by
  rw [perform_eq]
  cases c with
  | size => exact .bind_after ((performs_size a).onSecond s) fun _ _ => rfl
  | read i => exact .bind_after ((performs_read a i).onSecond s) fun _ _ => rfl
  | readMany is => exact .bind_after ((performs_readMany a is).onSecond s) fun _ _ => rfl
  | write i x => exact .bind_after ((does_write a i x).performs.onSecond s) fun _ _ => rfl
  | writeMany is xs => exact .bind_after ((does_writeMany a is xs).performs.onSecond s) fun _ _ => rfl
  | gather is dtype => exact .bind_after (performs_gather a is dtype s) fun _ _ => rfl
  | scatter is x => exact .bind_after ((does_scatter a is x).performs.onSecond s) fun _ _ => rfl
  | concat dtype => exact .bind_after (performs_concat a dtype s) fun _ _ => rfl
  | split ns x => exact .bind_after ((does_split a ns x).performs.onSecond s) fun _ _ => rfl
  | clearAndClose => exact absurd rfl hc

theorem perform_clearAndClose (s : Session) (a : TensorArray) :
    (Call.clearAndClose.perform (s, a)).2.2 = { a with slots := [], closed := true } := by
  rw [perform_eq]
  show ((TensorArray.clearAndClose >>= fun _ => pure Value.nothing : Action _ Value) (s, a)).2.2 = _
  rw [Action.bind_apply, ← clearAndClose_array (s, a)]
  rcases TensorArray.clearAndClose (s, a) with ⟨e | x, p⟩ <;> rfl

end Call

end TensorArray

end Dataflow
