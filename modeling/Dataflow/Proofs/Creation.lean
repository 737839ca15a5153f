import Dataflow.Proofs.FrameMoves
import Dataflow.Proofs.Parameters
import Dataflow.Session.Creation
import Mathlib.Tactic.FinCases

/-! Tensors that are created. Under settings that name a backend that is loaded and standard element types, an operation
    can always answer with a flag, and with a number that reads as the integer that it was made from; and the device of
    the settings makes the empty tensors that it has room for. -/

namespace Dataflow

/-! ### The standard element types by name -/

theorem Host.typeFor_standard {d : DType} (hd : d ∈ DType.standard) :
    Host.typeFor (.text d.name) = .ok (some (.known d)) := by
  unfold DType.standard at hd
  fin_cases hd <;> rfl

theorem Torch.typeFor_standard {d : DType} (hd : d ∈ DType.standard) :
    Torch.typeFor (.text d.name) = .ok (.known d) := by
  unfold DType.standard at hd
  fin_cases hd <;> rfl

namespace Session

/-- The standard element types are registered. -/
def KnowsStandard (s : Session) : Prop := ∀ d ∈ DType.standard, ∃ i, s.dtypeInfo (.text d.name) = .ok i

/-- Settings under which flags and numbers can be made, and element types that are there. The torch backend makes no
    flags of the widest unsigned type, and numbers are never truth values. -/
structure Ready (s : Session) : Prop where
  device : ∃ b ∈ s.devices, s.config.value .device = b.name
  flagDType : ∃ d ∈ DType.standard, s.config.value .flagDType = d.name ∧
    (d = .uint64 → s.config.value .device ≠ Device.torch.name)
  indexDType : ∃ d ∈ DType.standard, d ≠ .bool ∧ s.config.value .indexDType = d.name
  dtypes : s.KnowsStandard

theorem host_mem_devices (s : Session) : .host ∈ s.devices := by
  unfold devices
  split <;> exact List.mem_cons_self

theorem ready_initial (torch logs : Bool) : (initial [] torch logs).Ready where
  device := ⟨.host, host_mem_devices _, rfl⟩
  flagDType := ⟨.float32, by decide, rfl, nofun⟩
  indexDType := ⟨.int32, by decide, by decide, rfl⟩
  dtypes := fun d hd => by
    unfold DType.standard at hd
    fin_cases hd <;> exact ⟨_, rfl⟩

/-- The session after a setting has been read. -/
def settled (k : Setting) (s : Session) : Session := { s with config := (s.config.read k).2 }

theorem setting_apply (k : Setting) (s : Session) : setting k s = (.ok (s.config.value k), s.settled k) := rfl

variable {s : Session} {d : DType}

theorem Ready.settled (h : s.Ready) (k : Setting) : (s.settled k).Ready where
  device := by
    obtain ⟨b, hb, hname⟩ := h.device
    exact ⟨b, hb, (Config.value_read k .device s.config).trans hname⟩
  flagDType := by
    obtain ⟨d, hd, hname, hwide⟩ := h.flagDType
    refine ⟨d, hd, (Config.value_read k .flagDType s.config).trans hname, fun heq htorch => hwide heq ?_⟩
    exact (Config.value_read k .device s.config).symm.trans htorch
  indexDType := by
    obtain ⟨d, hd, hbool, hname⟩ := h.indexDType
    exact ⟨d, hd, hbool, (Config.value_read k .indexDType s.config).trans hname⟩
  dtypes := h.dtypes

theorem Ready.recorded (h : s.Ready) (source : LogSource) (text : String) : (s.recorded source text).Ready := by
  unfold Session.recorded
  split
  · exact ⟨h.device, h.flagDType, h.indexDType, h.dtypes⟩
  · exact h

theorem requireDType_apply (name : Value) (s : Session) : requireDType name s = (s.dtypeInfo name, s) := rfl

theorem requireKnown_apply (x : Tensor) (s : Session) :
    requireKnown [x] s = (s.dtypeInfo (.text x.dtype.name) >>= fun _ => .ok (), s) := by
  simp only [requireKnown, List.forM_eq_forM, List.forM_cons, List.forM_nil, Action.bind_apply, requireDType_apply]
  cases s.dtypeInfo (.text x.dtype.name) <;> rfl

/-! ### Dispatch of a creation -/

/-- A tensor is created by an operator that is placed on a device. -/
def creates (op : Operator) : Prop := op.kind = .constant ∨ op.kind = .empty

theorem areKeys_placed (op : Operator) (device : String) :
    TypeExpr.areKeys [(Operand.placed (.operator op) (.text device)).type] = true := rfl

theorem select_keys {types : List TypeExpr} (h : TypeExpr.areKeys types = true) (s : Session) :
    select types s = ((Table.builtin s.devices).lookup types, s) := by
  rw [select, h]
  rfl

theorem select_auto {op : Operator} (hop : creates op) (s : Session) :
    select [(Operand.placed (.operator op) auto).type] s = (.ok .redirect, s) := by
  rw [auto, select_keys (areKeys_placed op Table.autoDevice)]
  simp only [devices, Operand.type]
  rcases hop with hkind | hkind <;> rw [hkind] <;> cases s.torch <;> rfl

theorem select_device {op : Operator} (hop : creates op) {b : Device} (hb : b ∈ s.devices) :
    select [(Operand.placed (.operator op) (.text b.name)).type] s = (.ok (.kernel b op.kind), s) := by
  rw [select_keys (areKeys_placed op b.name)]
  simp only [Operand.type]
  unfold devices at hb ⊢
  cases hs : s.torch with
  | false =>
    obtain rfl : b = .host := by simpa [hs] using hb
    rcases hop with hkind | hkind <;> rw [hkind] <;> rfl
  | true => rcases hop with hkind | hkind <;> rw [hkind] <;> cases b <;> rfl

theorem run_eq {op : Operator} {b : Device} {o : Outcome Tensor} (hop : creates op) (hb : b ∈ s.devices)
    (ho : Kernel.run b op.kind [.placed (.operator op) (.text b.name)] = (fun x => [x]) <$> o) (redirects : Nat) :
    Dispatch.run means redirects [.placed (.operator op) (.text b.name)] s =
      (do
        let x ← o
        let _ ← s.dtypeInfo (.text x.dtype.name)
        return .tensors [x], s) := by
  have hselect : means.select ([Operand.placed (.operator op) (.text b.name)].map Operand.type) s =
      (.ok (.kernel b op.kind), s) := select_device hop hb
  have hknown (x : Tensor) : means.requireKnown [x] s = (s.dtypeInfo (.text x.dtype.name) >>= fun _ => .ok (), s) :=
    requireKnown_apply x s
  rw [Dispatch.run]
  simp only [Bool.false_eq_true, if_false, List.isEmpty_cons, Action.bind_apply, hselect, ho, Action.lift_apply]
  cases o with
  | error e => rfl
  | ok x =>
    simp only [Outcome.ok_map, Outcome.ok_bind, hknown]
    cases s.dtypeInfo (.text x.dtype.name) <;> rfl

/-- Under settings that name a backend that is loaded, this backend creates the tensors. -/
theorem create_eq {op : Operator} {b : Device} {o : Outcome Tensor} (hop : creates op) (hb : b ∈ s.devices)
    (hname : s.config.value .device = b.name)
    (ho : Kernel.run b op.kind [.placed (.operator op) (.text b.name)] = (fun x => [x]) <$> o) :
    create op auto s =
      (do
        let x ← o
        let _ ← s.dtypeInfo (.text x.dtype.name)
        return x, s.settled .device) := by
  -- The device that leaves the choice open leads to a redirect, and the redirect to the default device.
  have hselect : means.select ([Operand.placed (.operator op) auto].map Operand.type) s = (.ok .redirect, s) :=
    select_auto hop s
  have hdevice : means.defaultDevice s = (.ok b.name, s.settled .device) := by
    rw [← hname]
    rfl
  have hinfo (name : Value) : (s.settled .device).dtypeInfo name = s.dtypeInfo name := rfl
  rw [create, Dispatch.redirectLimit, Dispatch.run]
  simp only [Bool.false_eq_true, if_false, List.isEmpty_cons, Action.bind_apply, hselect, hdevice]
  rw [run_eq (s := s.settled .device) hop hb ho]
  simp only [hinfo]
  cases o with
  | error e => rfl
  | ok x =>
    simp only [Outcome.ok_bind]
    cases s.dtypeInfo (.text x.dtype.name) <;> rfl

theorem empty_eq {b : Device} {shape dtype : Value} {dims : List Value} (hb : b ∈ s.devices)
    (hname : s.config.value .device = b.name) (hdims : shape.items = .ok dims) :
    empty shape dtype auto s = match s.dtypeInfo dtype with
      | .error e => (.error e, s)
      | .ok _ => (do
          let x ← Kernel.empty b (.tuple dims) dtype
          let _ ← s.dtypeInfo (.text x.dtype.name)
          return x, s.settled .device) := by
  have hkernel : Kernel.run b .empty [.placed (.operator (.empty (.tuple dims) dtype)) (.text b.name)] =
      (fun x => [x]) <$> Kernel.empty b (.tuple dims) dtype := by
    show (do return [← Kernel.empty b (.tuple dims) dtype]) = _
    cases Kernel.empty b (.tuple dims) dtype <;> rfl
  rw [empty, Action.bind_apply, requireDType_apply]
  cases s.dtypeInfo dtype with
  | error e => rfl
  | ok i =>
    dsimp only
    rw [Action.bind_apply, hdims, Action.lift_apply]
    exact create_eq (Or.inr rfl) hb hname hkernel

theorem empty_ok {b : Device} {shape : Value} {dims : List Value} {x : Tensor} (h : s.KnowsStandard)
    (hb : b ∈ s.devices) (hname : s.config.value .device = b.name) (hd : d ∈ DType.standard)
    (hdims : shape.items = .ok dims) (hx : Kernel.empty b (.tuple dims) (.text d.name) = .ok x)
    (hdtype : x.dtype = d) : empty shape (.text d.name) auto s = (.ok x, s.settled .device) := by
  obtain ⟨i, hi⟩ := h d hd
  rw [empty_eq hb hname hdims, hi, hx]
  simp only [Outcome.ok_bind, hdtype, hi, Outcome.pure_eq]

theorem constant_ok {b : Device} {value : Value} {x : Tensor} (h : s.Ready) (hb : b ∈ s.devices)
    (hname : s.config.value .device = b.name) (hd : d ∈ DType.standard)
    (hx : Kernel.constant b value (.text d.name) = .ok x) (hdtype : x.dtype = d) :
    constant value (.text d.name) auto s = (.ok x, s.settled .device) := by
  obtain ⟨i, hi⟩ := h.dtypes d hd
  have hkernel : Kernel.run b .constant [.placed (.operator (.constant value (.text d.name))) (.text b.name)] =
      (fun x => [x]) <$> (.ok x : Outcome Tensor) := by
    show (do return [← Kernel.constant b value (.text d.name)]) = _
    rw [hx]
    rfl
  have hcreate : create (.constant value (.text d.name)) auto s = _ := create_eq (Or.inl rfl) hb hname hkernel
  rw [constant, Action.bind_apply, requireDType_apply, hi]
  dsimp only
  rw [hcreate]
  simp only [Outcome.ok_bind, hdtype, hi, Outcome.pure_eq]

/-! ### Flags and numbers -/

theorem kernel_constant_one {b : Device} (hd : d ∈ DType.standard) (hwide : d = .uint64 → b ≠ .torch) :
    ∃ x, Kernel.constant b (.real (.ofInt 1)) (.text d.name) = .ok x ∧ x.dtype = d := by
  unfold DType.standard at hd
  cases b with
  | host => fin_cases hd <;> exact ⟨_, rfl, rfl⟩
  | torch =>
    have hne : d ≠ .uint64 := fun heq => hwide heq rfl
    fin_cases hd <;> first | exact ⟨_, rfl, rfl⟩ | exact absurd rfl hne

theorem kernel_constant_zero {b : Device} (hd : d ∈ DType.standard) (hbool : d ≠ .bool) :
    ∃ x, Kernel.constant b (.int 0) (.text d.name) = .ok x ∧ x.dtype = d ∧ x.ReadsAs 0 := by
  unfold DType.standard at hd
  fin_cases hd <;> first
    | exact absurd rfl hbool
    | cases b <;> exact ⟨_, rfl, rfl, rfl, _, _, rfl, fun _ => rfl⟩

theorem flag_ok (h : s.Ready) : ∃ x t, flag auto s = (.ok x, t) ∧ t.Ready := by
  obtain ⟨b, hb, hdevice⟩ := h.device
  obtain ⟨d, hd, hname, hwide⟩ := h.flagDType
  have hnotTorch : d = .uint64 → b ≠ .torch := fun heq hb => hwide heq (hb ▸ hdevice)
  obtain ⟨x, hx, hdtype⟩ := kernel_constant_one hd hnotTorch
  have hsetting : setting .flagDType s = (.ok d.name, s.settled .flagDType) := by rw [setting_apply, hname]
  have hsettled : (s.settled .flagDType).config.value .device = b.name := (Config.value_read _ _ _).trans hdevice
  refine ⟨x, _, ?_, (h.settled .flagDType).settled .device⟩
  rw [flag, Action.bind_ok hsetting, constant_ok (h.settled _) hb hsettled hd hx hdtype]

theorem indexScalar_zero (h : s.Ready) :
    ∃ x t, indexScalar (.int 0) .nothing auto s = (.ok x, t) ∧ t.Ready ∧ x.ReadsAs 0 := by
  obtain ⟨b, hb, hdevice⟩ := h.device
  obtain ⟨d, hd, hbool, hname⟩ := h.indexDType
  obtain ⟨x, hx, hdtype, hreads⟩ := kernel_constant_zero (b := b) hd hbool
  have hnothing : ¬Value.nothing.truth = true := Bool.false_ne_true
  have hsetting : (Value.text <$> setting .indexDType : Action Session Value) s =
      (.ok (.text d.name), s.settled .indexDType) := by
    rw [← hname]
    rfl
  have hsettled : (s.settled .indexDType).config.value .device = b.name := (Config.value_read _ _ _).trans hdevice
  refine ⟨x, _, ?_, (h.settled .indexDType).settled .device, hreads⟩
  rw [indexScalar, if_neg hnothing, Action.bind_ok hsetting]
  exact constant_ok (h.settled _) hb hsettled hd hx hdtype

end Session

end Dataflow
