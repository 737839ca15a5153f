import Dataflow.Proofs.Handles

/-! Visits that make an object or write a tensor, and fail. Whatever stands before the change leaves the context alone. The
    tensors that a visit answers with are made after the change: where the settings cannot make them, the object stays
    without a handle, and the slot stays written. -/

namespace Dataflow

/-! ### Where the tensors of an answer can be made -/

section Numbers

variable {d : DType} {signed : Bool} {bits k : Nat}

/-- Only the widest unsigned type has numbers beyond the word. -/
theorem Storage.holds_word (hd : d.storage = .integer signed bits) (hnarrow : ¬(!signed ∧ bits = 64))
    (h : holds signed bits k = true) : holds true 64 k = true := by
  rw [holds_iff] at h ⊢
  have hhighest : highest signed bits ≤ highest true 64 := by
    cases d <;> simp only [DType.storage, Storage.integer.injEq, reduceCtorEq] at hd <;> obtain ⟨rfl, rfl⟩ := hd <;>
      first | decide | exact absurd ⟨rfl, rfl⟩ hnarrow
  have hlowest : lowest true 64 ≤ 0 := by decide
  omega

theorem Torch.integerElement_of_holds (hd : d.storage = .integer signed bits)
    (h : Storage.holds signed bits k = true) : ∃ e, integerElement signed bits k = .ok e := by
  rw [integerElement]
  by_cases hwidest : !signed ∧ bits = 64
  · obtain ⟨hsigned, rfl⟩ := hwidest
    obtain rfl : signed = false := by simpa using hsigned
    exact ⟨.whole k, by simp [h]⟩
  · have hword := Storage.holds_word hd hwidest h
    rw [if_neg hwidest, if_neg (by simp [hword]), if_pos (by simp [h])]
    exact ⟨_, rfl⟩

/-- A backend makes a tensor of a number that the element type has. -/
theorem Kernel.constant_of_holds (hd : d.storage = .integer signed bits) (b : Device)
    (h : Storage.holds signed bits k = true) : ∃ x, constant b (.int k) (.text d.name) = .ok x ∧ x.dtype = d := by
  have hstandard := (DType.standard_of_integer hd).1
  cases b with
  | host =>
    refine ⟨.scalar .host d (.whole k), ?_, rfl⟩
    rw [constant, host_constant_int hstandard, Host.integerElement, hd]
    simp only [h, if_true, Outcome.ok_map]
  | torch =>
    obtain ⟨e, he⟩ := Torch.integerElement_of_holds hd h
    refine ⟨.scalar .torch d (e.cast d), ?_, rfl⟩
    rw [constant, torch_constant_int hstandard, Torch.ofInteger, hd]
    simp only [he, Outcome.ok_map]

end Numbers

namespace Session

variable {s t : Session}

/-- The settings name an integer type that has the number. -/
def Numbers (s : Session) (k : Nat) : Prop :=
  ∃ (d : DType) (signed : Bool) (bits : Nat), d.storage = .integer signed bits ∧
    s.config.value .indexDType = d.name ∧ Storage.holds signed bits k = true

theorem indexScalar_ok (hs : s.Ready) {k : Nat} (hk : s.Numbers k) :
    ∃ x t, indexScalar (.int k) .nothing auto s = (.ok x, t) ∧ t.Ready := by
  obtain ⟨b, hb, hdevice⟩ := hs.device
  obtain ⟨d, signed, bits, hd, hname, hholds⟩ := hk
  obtain ⟨x, hx, hdtype⟩ := Kernel.constant_of_holds hd b hholds
  have hnothing : ¬Value.nothing.truth = true := Bool.false_ne_true
  have hsetting : (Value.text <$> setting .indexDType : Action Session Value) s =
      (.ok (.text d.name), s.settled .indexDType) := by
    rw [← hname]
    rfl
  have hsettled : (s.settled .indexDType).config.value .device = b.name := (Config.value_read _ _ _).trans hdevice
  refine ⟨x, _, ?_, (hs.settled .indexDType).settled .device⟩
  rw [indexScalar, if_neg hnothing, Action.bind_ok hsetting]
  exact constant_ok (hs.settled _) hb hsettled (DType.standard_of_integer hd).1 hx hdtype

end Session

namespace Visit

variable {s t : Session} {c d : Context} {e : Failure}

theorem handle_ok (hs : s.Ready) {k : Nat} (hk : s.Numbers k) (c : Context) : ∃ o, (handle k (s, c)).1 = .ok o := by
  obtain ⟨x, t, hx, ht⟩ := Session.indexScalar_ok hs hk
  obtain ⟨flag, u, hflag, -⟩ := Session.flag_ok ht
  refine ⟨tensorOutputs [x, flag], ?_⟩
  simp only [handle, Action.bind_apply, Action.onFirst_apply, hx, hflag]
  rfl

theorem handle_alike (h : s.Alike t) (k : Nat) (c : Context) : (handle k (s, c)).1 = (handle k (t, c)).1 :=
  ((confined_handle k).same (s, c) (t, c) ⟨h, rfl, rfl, rfl, nofun, nofun⟩).1

theorem done_error (h : done (s, c) = (.error e, t, d)) : d = c ∧ (Session.flag Session.auto s).1 = .error e := by
  rcases hflag : Session.flag Session.auto s with ⟨e' | x, u⟩
  all_goals
    simp only [done, Action.bind_apply, Action.onFirst_apply, hflag] at h
    cases h
  exact ⟨rfl, rfl⟩

/-- A step of an action that changes nothing, where the whole fails. -/
theorem failed_bind {α β : Type} {part : Action (Session × Context) α} {f : α → Action (Session × Context) β}
    {p q : Session × Context} (hpart : (part p).2 = p) (h : (part >>= f) p = (.error e, q)) :
    q = p ∨ ∃ x, part p = (.ok x, p) ∧ f x p = (.error e, q) := by
  rw [Action.bind_apply] at h
  rcases hx : part p with ⟨e' | x, r⟩
  · rw [hx] at h hpart
    cases h
    exact Or.inl hpart
  · rw [hx] at h hpart
    obtain rfl : r = p := hpart
    exact Or.inr ⟨x, rfl, h⟩

end Visit

/-! ### Writes that fail -/

namespace TensorArray

variable {i : Int} {a : TensorArray}

/-- An array that has grown up to an index, and whose element shape is that of a single element if it was to be fixed. -/
def stretched (i : Int) (a : TensorArray) : TensorArray := (a.growBy (i.toNat + 1 - a.size)).pin []

theorem write_without_type {v : Value} (hv : v.elementType = .error .missingMember) (a : TensorArray) :
    ∃ e, write (.int i) v a = (.error e, a) := by
  simp only [write, requireElementType, Action.bind_apply, requireOpen_apply, Action.get_apply, Action.lift_apply,
    checkElementType, hv, Outcome.error_bind]
  by_cases hclosed : a.closed = true
  · rw [if_pos hclosed]
    exact ⟨_, rfl⟩
  · rw [if_neg hclosed]
    exact ⟨_, rfl⟩

theorem shape_of_checkElementType {expected : Value} {d : DType} {y : Element} {what : String} {shape : Shape}
    (h : checkElementType expected (.scalar d y) what = .ok shape) : shape = [] := by
  simp only [checkElementType, Value.elementType, Outcome.ok_bind] at h
  have hchecked : (checkDType expected (.text d.name) what >>= fun _ => .ok []) = .ok shape → shape = [] := by
    intro hok
    obtain ⟨⟨⟩, -, hshape⟩ := Outcome.bind_eq_ok.mp hok
    exact (Except.ok.inj hshape).symm
  split at h
  · split at h
    · exact (Except.ok.inj h).symm
    · exact hchecked h
  · exact hchecked h

theorem write_scalar (i : Int) (d : DType) (y : Element) (a : TensorArray) :
    (∃ e, write (.int i) (.scalar d y) a = (.error e, a)) ∨
      write (.int i) (.scalar d y) a = (.error .missingMember, a.stretched i) := by
  unfold write requireElementType
  simp only [Action.bind_apply, requireOpen_apply, Action.get_apply, Action.lift_apply, checkWriteIndex_apply]
  by_cases hclosed : a.closed = true
  · rw [if_pos hclosed]
    exact Or.inl ⟨_, rfl⟩
  simp only [if_neg hclosed]
  rcases hdtype : checkElementType a.dtype (.scalar d y) (a.label "write") with e | shape
  · exact Or.inl ⟨_, rfl⟩
  dsimp only
  rcases checkShape a.elementShape shape (a.label "write at index " ++ (Value.int i).plain) with e | ⟨⟩
  · exact Or.inl ⟨_, rfl⟩
  dsimp only
  by_cases hneg : i < 0
  · rw [if_pos hneg]
    exact Or.inl ⟨_, rfl⟩
  by_cases hfixed : a.size ≤ i ∧ a.dynamicSize.truth = false
  · rw [if_neg hneg, if_pos hfixed]
    exact Or.inl ⟨_, rfl⟩
  refine Or.inr ?_
  obtain rfl := shape_of_checkElementType hdtype
  have hplace : i.toNat < ((a.growBy (i.toNat + 1 - a.size)).pin []).size := by
    rw [size_pin, size_growBy]
    omega
  rw [if_neg hneg, if_neg hfixed]
  simp only [Action.modify_apply, placeOf_apply hplace]
  rfl

/-- A write of whatever value: of a tensor that the array takes, or a failure that changes nothing, or one that leaves
    room for a scalar that is no tensor. -/
theorem write_cases (i : Int) (v : Value) (a : TensorArray) :
    (∃ x, v = .tensor x ∧ a.writable i x = .ok () ∧ write (.int i) v a = (.ok (), a.written i.toNat x)) ∨
      (∃ e, write (.int i) v a = (.error e, a)) ∨
      (∃ d y, v = .scalar d y) ∧ write (.int i) v a = (.error .missingMember, a.stretched i) := by
  cases v with
  | tensor x =>
    rw [write_eq]
    rcases hwritable : a.writable i x with e | ⟨⟩
    · exact Or.inr (Or.inl ⟨e, rfl⟩)
    · exact Or.inl ⟨x, rfl, hwritable, rfl⟩
  | scalar d y =>
    rcases write_scalar i d y a with hsame | hstretched
    · exact Or.inr (Or.inl hsame)
    · exact Or.inr (Or.inr ⟨⟨d, y, rfl⟩, hstretched⟩)
  | _ => exact Or.inr (Or.inl (write_without_type rfl a))

end TensorArray

/-! ### Visits -/

/-- What a failing visit leaves of a context, if not the context as it was. -/
inductive Node.Leaves (n : Node) (values : Values) (s : Session) (c : Context) (e : Failure) : Context → Prop
  /-- An object is registered that nobody has a handle of. -/
  | registered {kind : ObjectKind} {d : Context} (hop : n.controlOp? = some kind.maker) (hgains : kind.Gains c d)
      (hhandle : (Visit.handle (kind.count c) (s, d)).1 = .error e) : Leaves n values s c e d
  /-- A tensor is written, and there is no flag to say so. -/
  | written {k : Nat} {a : TensorArray} {i : Int} {x : Tensor} (hop : n.controlOp? = some .tensorArrayWrite)
      (hk : n.arrayAt values c = .ok k) (ha : c.arrays[k]? = some a) (hi : n.intParam values c.ids "index" = .ok i)
      (hx : n.required values c.ids "tensor" = .ok (.tensor x)) (hwritable : a.writable i x = .ok ())
      (hflag : (Session.flag Session.auto s).1 = .error e) :
      Leaves n values s c e (c.withArrays (c.arrays.set k (a.written i.toNat x)))
  /-- An array has made room for a scalar that is no tensor. -/
  | stretched {k : Nat} {a : TensorArray} {i : Int} {dtype : DType} {y : Element}
      (hop : n.controlOp? = some .tensorArrayWrite)
      (hk : n.arrayAt values c = .ok k) (ha : c.arrays[k]? = some a) (hi : n.intParam values c.ids "index" = .ok i)
      (hx : n.required values c.ids "tensor" = .ok (.scalar dtype y)) (he : e = .missingMember) :
      Leaves n values s c e (c.withArrays (c.arrays.set k (a.stretched i)))

namespace Node

variable {n : Node} {values : Values} {s t : Session} {c d : Context} {e : Failure}

theorem leaves_of_maker {kind : ObjectKind} (hop : n.controlOp? = some kind.maker)
    (h : n.visit values (s, c) = (.error e, t, d)) : d = c ∨ n.Leaves values s c e d := by
  -- Once the object is registered, only its handle can fail, and that sees no more of the session than it did before.
  have hafter {s' : Session} {c' : Context} (hgains : kind.Gains c c') (hsame : s.Alike s')
      (hhandle : Visit.handle (kind.count c) (s', c') = (.error e, t, d)) : d = c ∨ n.Leaves values s c e d := by
    obtain rfl : d = c' := by
      have hcontext := (Visit.confined_handle (kind.count c)).keeps (s', c')
      rw [hhandle] at hcontext
      exact hcontext.2.eq_of_none
    refine Or.inr (.registered hop hgains ?_)
    rw [Visit.handle_alike hsame, hhandle]
  rw [visit_eq hop] at h
  cases kind with
  | array =>
    rw [ObjectKind.maker, Visit.ofControlOp, Visit.tensorArray] at h
    iterate 9
      rcases Visit.failed_bind (by rfl) h with hself | ⟨_, -, h⟩
      · exact Or.inl (congrArg Prod.snd hself)
    rename_i a
    cases ha : a.id with
    | some k =>
      rw [Action.bind_error (Context.addArray_registered ha (s, c))] at h
      cases h
      exact Or.inl rfl
    | none =>
      rw [Action.bind_ok (Context.addArray_eq ha s c)] at h
      exact hafter ⟨a, rfl⟩ (Session.alike_recorded _ _ s) h
  | queue =>
    rw [ObjectKind.maker, Visit.ofControlOp, Visit.fifoQueue] at h
    iterate 7
      rcases Visit.failed_bind (by rfl) h with hself | ⟨_, -, h⟩
      · exact Or.inl (congrArg Prod.snd hself)
    rename_i q
    cases hq : q.id with
    | some k =>
      rw [Action.bind_error (Context.addQueue_registered hq (s, c))] at h
      cases h
      exact Or.inl rfl
    | none =>
      rw [Action.bind_ok (Context.addQueue_eq hq s c)] at h
      exact hafter ⟨q, rfl⟩ (Session.alike_recorded _ _ s) h

theorem leaves_of_write (hop : n.controlOp? = some .tensorArrayWrite)
    (h : n.visit values (s, c) = (.error e, t, d)) : d = c ∨ n.Leaves values s c e d := by
  rw [visit_eq hop, Visit.ofControlOp, Visit.tensorArrayWrite] at h
  rcases Visit.failed_bind (by rw [Visit.arrayOf_apply]) h with hself | ⟨k, hk, h⟩
  · exact Or.inl (congrArg Prod.snd hself)
  rcases Visit.failed_bind (by rfl) h with hself | ⟨i, hi, h⟩
  · exact Or.inl (congrArg Prod.snd hself)
  rcases Visit.failed_bind (by rfl) h with hself | ⟨v, hv, h⟩
  · exact Or.inl (congrArg Prod.snd hself)
  have hk : n.arrayAt values c = .ok k := by
    rw [Visit.arrayOf_apply] at hk
    exact congrArg Prod.fst hk
  have hi : n.intParam values c.ids "index" = .ok i := congrArg Prod.fst hi
  have hv : n.required values c.ids "tensor" = .ok v := congrArg Prod.fst hv
  cases ha : c.arrays[k]? with
  | none =>
    rw [Action.bind_error (Context.onArray_none ha s)] at h
    cases h
    exact Or.inl rfl
  | some a =>
    have hact : Context.onArray k (TensorArray.write (.int i) v).onSecond (s, c) = _ := Context.onArray_some ha s
    rw [Action.onSecond_apply] at hact
    rcases TensorArray.write_cases i v a with ⟨x, rfl, hwritable, hwrite⟩ | ⟨e', hwrite⟩ | ⟨⟨dtype, y, rfl⟩, hwrite⟩
    · rw [hwrite] at hact
      rw [Action.bind_ok hact] at h
      obtain ⟨rfl, hflag⟩ := Visit.done_error h
      exact Or.inr (.written hop hk ha hi hv hwritable hflag)
    · rw [hwrite] at hact
      rw [Action.bind_error hact] at h
      cases h
      obtain ⟨hlt, rfl⟩ := List.getElem?_eq_some_iff.mp ha
      exact Or.inl (congrArg (Context.withArrays · c) (List.set_getElem_self hlt))
    · rw [hwrite] at hact
      rw [Action.bind_error hact] at h
      cases h
      exact Or.inr (.stretched hop hk ha hi hv rfl)

/-- A visit that is to make an object or to write a tensor, and fails, leaves the context as it was, or it leaves the
    object without a handle, the tensor written without a flag, or room for a scalar that is no tensor. Under settings
    that the tensors of its answer can be made of, a node that takes its tensor from an input leaves nothing. -/
theorem failed_visit_leaves
    (hop : n.controlOp? = some .tensorArray ∨ n.controlOp? = some .fifoQueue ∨ n.controlOp? = some .tensorArrayWrite)
    (hfail : n.visit values (s, c) = (.error e, t, d)) :
    (d = c ∨ n.Leaves values s c e d) ∧
      (s.Ready → s.Numbers c.arrays.length → s.Numbers c.queues.length → n.DeclaresTensors → d = c) := by
  have hleaves : d = c ∨ n.Leaves values s c e d := by
    rcases hop with hop | hop | hop
    · exact leaves_of_maker (show n.controlOp? = some ObjectKind.array.maker from hop) hfail
    · exact leaves_of_maker (show n.controlOp? = some ObjectKind.queue.maker from hop) hfail
    · exact leaves_of_write hop hfail
  refine ⟨hleaves, fun hs harrays hqueues hdeclares => ?_⟩
  rcases hleaves with rfl | hleaves
  · rfl
  cases hleaves with
  | @registered kind d hmaker hgains hhandle =>
    have hnumbers : s.Numbers (kind.count c) := by
      cases kind with
      | array => exact harrays
      | queue => exact hqueues
    obtain ⟨o, ho⟩ := Visit.handle_ok hs hnumbers d
    rw [ho] at hhandle
    cases hhandle
  | written _ _ _ _ _ _ hflag =>
    obtain ⟨x, u, hx, -⟩ := Session.flag_ok hs
    rw [hx] at hflag
    cases hflag
  | stretched _ _ _ _ hx =>
    obtain ⟨x, hx⟩ := hdeclares.eq_tensor (by simp) hx
    cases hx

/-- Numbers of an element type that nobody has registered: the array of a creation that fails is there all the same. -/
theorem failed_visit_leaves_array :
    let s := Session.initial [("FLOWCTL_INDEX_DTYPE", "bogus")] false false
    let n : Node := ⟨"a", .text "tensorArray", [], [], [("dtype", .text "float32")]⟩
    let e : Failure := .refused (.unknownDType (.text "bogus"))
    n.controlOp? = some .tensorArray ∧
      ∃ t d, n.visit [] (s, .initial) = (.error e, t, d) ∧ d ≠ .initial ∧ n.Leaves [] s .initial e d := by
  intro s n e
  have hop : n.controlOp? = some .tensorArray := rfl
  have hfail : n.visit [] (s, .initial) = (.error e, (n.visit [] (s, .initial)).2) := rfl
  have hne : (n.visit [] (s, .initial)).2.2 ≠ .initial := fun heq => by
    have hcount : (n.visit [] (s, .initial)).2.2.arrays.length = 1 := rfl
    rw [heq] at hcount
    cases hcount
  exact ⟨hop, _, _, hfail, hne, (failed_visit_leaves (Or.inl hop) hfail).1.resolve_left hne⟩

end Node

/-- Neither a creation nor a write that fails takes back what it has done: the array is registered, and the tensor is in
    its slot. -/
theorem ContextUse.visit_error_leaves_trace :
    let s := Session.initial [("FLOWCTL_INDEX_DTYPE", "bogus"), ("FLOWCTL_FLAG_DTYPE", "bogus")] false false
    let n : Node := ⟨"a", .text "tensorArray", [], [], [("dtype", .text "float32"), ("size", .int 1)]⟩
    let m : Node := ⟨"w", .text "tensorArrayWrite", ["x"], [("tensor", ⟨0, none, .tensor⟩)],
      [("tensorArrayId", .int 0), ("index", .int 0)]⟩
    let x : Tensor := .scalar .host .float32 (.real (.ofInt 1))
    let p := run s []
    let q := run s [.visit n []]
    let e : Failure := .refused (.unknownDType (.text "bogus"))
    n.controlOp? = some .tensorArray ∧ (n.visit [] p).1 = .error e ∧ p.2.arrays.length = 0 ∧ q.2.arrays.length = 1 ∧
      m.controlOp? = some .tensorArrayWrite ∧ (m.visit [("x", [some x])] q).1 = .error e ∧
      q.2.arrays.map TensorArray.slots = [[.empty]] ∧
      (m.visit [("x", [some x])] q).2.2.arrays.map TensorArray.slots = [[⟨some x, false⟩]] := by
  intro s n m x p q e
  refine ⟨rfl, rfl, rfl, rfl, rfl, rfl, rfl, rfl⟩

end Dataflow
