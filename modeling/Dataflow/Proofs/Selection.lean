import Dataflow.Dispatch.Table

/-! Which implementations of the library take an operator. Beside tensors these are kernels of the operator for the device
    that all of the tensors are on; placed on a device, they go by the name of the device. With the backends of both
    devices in the table there is never more than one, unless an operator that joins tensors is given none. -/

namespace Dataflow

/-! ### Patterns of single classes -/

namespace TypeExpr

theorem equalLiterals_text (a b : String) : equalLiterals [.text a] [.text b] = .ok (a = b : Bool) := by
  have hkeys : ([Value.text a] ++ [Value.text b]).all Value.isKey = true := rfl
  rw [equalLiterals, if_pos hkeys, Except.ok.injEq, Bool.eq_iff_iff]
  simp [sameMembers, sameLiteral, sameKind, Value.sameKey, Value.sameObject, Value.same, Class.ofValue?]
  exact Eq.symm

theorem matchPattern_named (c d : Class) :
    matchPattern (.named c) (.named d) =
      .ok (if d.origin.isSubclass c.origin then some (.named c) else none) := by
  have hhead : matchHead (.named c) (.named d) = .ok (if d.origin.isSubclass c.origin then some false else none) := by
    show (if !d.origin.isSubclass c.origin then _ else _ : Outcome _) = _
    cases d.origin.isSubclass c.origin <;> rfl
  rw [matchPattern, hhead]
  cases d.origin.isSubclass c.origin <;> rfl

/-- A pattern with arguments asks for the arguments, which a class does not have. -/
theorem matchPattern_placed_named (c d : Class) (device : String) :
    matchPattern (Table.placedType c device) (.named d) = .ok none := by
  have hhead : matchHead (Table.placedType c device) (.named d) = .ok none := by
    show (if !d.origin.isSubclass Class.placed then _ else _ : Outcome _) = _
    cases d.origin.isSubclass Class.placed with
    | false => rfl
    | true => exact if_pos (Or.inr rfl)
  rw [Table.placedType, matchPattern, ← Table.placedType, hhead]
  rfl

/-- Placed operators match by the class of the operator and the name of the device. -/
theorem matchPattern_placed (c d : Class) (device name : String) :
    matchPattern (Table.placedType c device) (Table.placedType d name) =
      .ok (if d.origin.isSubclass c.origin && device = name then some (Table.placedType c device) else none) := by
  have hhead : matchHead (Table.placedType c device) (Table.placedType d name) = .ok (some true) := rfl
  have hdevice : matchPattern (.literal [.text device]) (.literal [.text name]) =
      .ok (if device = name then some (.literal [.text device]) else none) := by
    rw [matchPattern, equalLiterals_text]
    by_cases h : device = name <;> simp [h]
  have harguments : matchArguments [.named c, .literal [.text device]] (Table.placedType d name).arguments =
      .ok (d.origin.isSubclass c.origin && device = name) := by
    show matchArguments [.named c, .literal [.text device]] [.named d, .literal [.text name]] = _
    rw [matchArguments, matchArguments, matchPattern_named, hdevice]
    cases d.origin.isSubclass c.origin <;> by_cases h : device = name <;> simp [h, matchArguments]
  rw [Table.placedType, matchPattern, ← Table.placedType, hhead, Outcome.ok_bind, harguments]
  rfl

theorem matchFirst_single (p t : TypeExpr) : matchFirst [p] t = matchPattern p t := by
  rw [matchFirst]
  rcases matchPattern p t with e | _ | m <;> rfl

end TypeExpr

namespace Signature

open TypeExpr

variable {p : List TypeExpr} {t : TypeExpr} {pss : List (List TypeExpr)} {ts : List TypeExpr}

theorem matchEach_of_first (h : matchFirst p t = .ok none) : matchEach (p :: pss) (t :: ts) = .ok none := by
  rw [matchEach, h]
  rfl

theorem matchTypes_of_first {rest : Option (List TypeExpr)} (h : matchFirst p t = .ok none) :
    matchTypes ⟨p :: pss, rest⟩ (t :: ts) = .ok none := by
  cases rest <;> simp [matchTypes, matchEach_of_first h]

theorem matchTypes_single (p t : TypeExpr) (rest : Option (List TypeExpr)) :
    matchTypes ⟨[[p]], rest⟩ [t] = Option.map (fun m => [m]) <$> matchPattern p t := by
  have heach : matchEach [[p]] [t] = Option.map (fun m => [m]) <$> matchPattern p t := by
    rw [matchEach, matchFirst_single]
    rcases matchPattern p t with e | _ | m <;> rfl
  cases rest with
  | none => exact heach
  | some ps => exact heach

/-- One class as often as there are types. -/
theorem matchEach_replicate (c : Class) (ds : List Class) :
    matchEach (List.replicate ds.length [.named c]) (ds.map .named) =
      .ok (if ds.all (·.origin.isSubclass c.origin) then some (List.replicate ds.length (.named c)) else none) := by
  induction ds with
  | nil => rfl
  | cons d ds ih =>
    rw [List.length_cons, List.replicate_succ, List.map_cons, matchEach, matchFirst_single, matchPattern_named,
      Outcome.ok_bind, List.all_cons]
    cases d.origin.isSubclass c.origin with
    | false => rfl
    | true =>
      rw [Bool.true_and, if_pos rfl, ih]
      cases ds.all (·.origin.isSubclass c.origin) <;> rfl

end Signature

/-! ### Lookups by what is accepted -/

namespace Table

variable {types : List TypeExpr} {table : Table} {e : Entry}

theorem accepting_eq {accepted : Entry → Bool} (h : ∀ e ∈ table, e.accepts types = .ok (accepted e)) :
    accepting types table = .ok (table.filter accepted) := by
  induction table with
  | nil => rfl
  | cons e es ih =>
    rw [accepting, h e List.mem_cons_self, Outcome.ok_bind, ih fun d hd => h d (List.mem_cons_of_mem _ hd),
      Outcome.ok_bind, List.filter_cons]
    rfl

/-- The implementation that takes the types, if there is one: a lookup finds it, and otherwise says that there is none. -/
structure Decides (table : Table) (types : List TypeExpr) (takes : Implementation → Prop) : Prop where
  found : ∀ f, table.lookup types = .ok f ↔ takes f
  missing : (∀ f, ¬takes f) → table.lookup types = .error (.undispatched types 0)

/-- Such a lookup is never left with several implementations. -/
theorem Decides.candidates {takes : Implementation → Prop} {c : Failure} (h : table.Decides types takes)
    (hc : table.lookup types = .error c) : c = .undispatched types 0 := by
  have hnone : ∀ f, ¬takes f := fun f hf => by
    rw [(h.found f).mpr hf] at hc
    cases hc
  rw [h.missing hnone] at hc
  exact (Except.error.inj hc).symm

theorem lookup_of_none (h : ∀ e ∈ table, e.accepts types = .ok false) :
    table.lookup types = .error (.undispatched types 0) := by
  have hnone : table.filter (fun _ => false) = [] := by simp
  rw [lookup, accepting_eq h, hnone]
  rfl

/-- In a table of different implementations the only one that accepts the types is found. -/
theorem lookup_of_only (hdistinct : (table.map Entry.implementation).Nodup) (he : e ∈ table)
    (h : ∀ d ∈ table, d.accepts types = .ok (d.implementation = e.implementation)) :
    table.lookup types = .ok e.implementation := by
  have honly : table.filter (·.implementation = e.implementation) = [e] := by
    obtain ⟨before, after, rfl⟩ := List.append_of_mem he
    rw [List.map_append, List.map_cons, List.nodup_append, List.nodup_cons] at hdistinct
    obtain ⟨-, ⟨hafter, -⟩, hbefore⟩ := hdistinct
    refine List.filter_eq_cons_iff.mpr ⟨before, after, rfl, fun d hd => ?_, decide_eq_true rfl,
      List.filter_eq_nil_iff.mpr fun d hd => ?_⟩
    · simpa using hbefore _ (List.mem_map_of_mem hd) _ List.mem_cons_self
    · have hne : d.implementation ≠ e.implementation := fun heq => hafter (heq ▸ List.mem_map_of_mem hd)
      simpa using hne
  have htop : top [e] = [e] := by simp [top]
  rw [lookup, accepting_eq h, Outcome.ok_bind, honly, htop]
  rfl

theorem decides_of_unique {takes : Implementation → Bool} (hdistinct : (table.map Entry.implementation).Nodup)
    (h : ∀ e ∈ table, e.accepts types = .ok (takes e.implementation))
    (hmem : ∀ f, takes f = true → f ∈ table.map Entry.implementation)
    (hunique : ∀ f g, takes f = true → takes g = true → f = g) : table.Decides types (takes · = true) := by
  have hok (f : Implementation) (hf : takes f = true) : table.lookup types = .ok f := by
    obtain ⟨e, he, rfl⟩ := List.mem_map.mp (hmem f hf)
    refine lookup_of_only hdistinct he fun d hd => ?_
    rw [h d hd]
    exact congrArg Except.ok (Bool.eq_iff_iff.mpr
      ⟨fun hd => decide_eq_true (hunique _ _ hd hf), fun heq => (of_decide_eq_true heq) ▸ hf⟩)
  have hmissing (hnone : ∀ f, ¬takes f = true) : table.lookup types = .error (.undispatched types 0) :=
    lookup_of_none fun e he => by rw [h e he, Bool.eq_false_iff.mpr (hnone _)]
  refine ⟨fun f => ⟨fun hlookup => ?_, hok f⟩, hmissing⟩
  by_cases hexists : ∃ g, takes g = true
  · obtain ⟨g, hg⟩ := hexists
    rw [hok g hg] at hlookup
    exact Except.ok.inj hlookup ▸ hg
  · rw [hmissing (not_exists.mp hexists)] at hlookup
    cases hlookup

end Table

/-! ### Operators beside tensors -/

namespace OperatorKind

/-- An operator that joins tensors. -/
def joins (kind : OperatorKind) : Prop := kind = .stack ∨ kind = .tie

/-- An operator that makes parts of a tensor. -/
def parts (kind : OperatorKind) : Prop := kind = .index ∨ kind = .split

theorem parts.not_joins {kind : OperatorKind} (h : kind.parts) : ¬kind.joins := by
  rintro (rfl | rfl) <;> rcases h with h | h <;> cases h

/-- The kernel for a device takes tensors of some devices: one, or any number, or none of an operator that has to be
    placed. -/
def takes (device : Device) (bs : List Device) : OperatorKind → Bool
  | .constant | .empty => false
  | .index | .split => bs = [device]
  | .tie | .stack => bs.all (· = device)

end OperatorKind

namespace Implementation

/-- The implementations for an operator beside tensors of some devices. -/
def takes (kind : OperatorKind) (bs : List Device) : Implementation → Bool
  | .kernel device other => other = kind && kind.takes device bs
  | .redirect | .named _ => false

/-- The implementations for an operator that is placed on a device of some name. -/
def takesPlaced (kind : OperatorKind) (name : String) : Implementation → Bool
  | .redirect => name = Table.autoDevice
  | .kernel device other => (kind = .constant || kind = .empty) && other = kind && device.name = name
  | .named _ => false

end Implementation

namespace Table

open Implementation

variable {kind : OperatorKind} {b : Device} {bs : List Device} {name : String}

/-- The types of an operator and of tensors of some devices. -/
def typesBeside (kind : OperatorKind) (bs : List Device) : List TypeExpr :=
  .named kind.toClass :: bs.map fun b => .named b.toClass

theorem isSubclass_kind (kind other : OperatorKind) :
    kind.toClass.origin.isSubclass other.toClass.origin = decide (other = kind) := by
  cases kind <;> cases other <;> rfl

theorem isSubclass_device (b device : Device) :
    b.toClass.origin.isSubclass device.toClass.origin = decide (b = device) := by
  cases b <;> cases device <;> rfl

theorem accepts_redirect (kind : OperatorKind) (ts : List TypeExpr) :
    redirectEntry.accepts (.named kind.toClass :: ts) = .ok false := by
  have hfirst : TypeExpr.matchFirst [placedType .operator autoDevice] (.named kind.toClass) = .ok none := by
    rw [TypeExpr.matchFirst_single, TypeExpr.matchPattern_placed_named]
  rw [Entry.accepts, redirectEntry, Signature.matchTypes_of_first hfirst]
  rfl

/-- The kernel of another operator asks for that operator first. -/
theorem accepts_other {device : Device} {other : OperatorKind} (hother : other ≠ kind) (ts : List TypeExpr) :
    Entry.accepts (.named kind.toClass :: ts) ⟨kernelSignature device other, .kernel device other, none, 0⟩ =
      .ok false := by
  have hnamed : TypeExpr.matchFirst [.named other.toClass] (.named kind.toClass) = .ok none := by
    rw [TypeExpr.matchFirst_single, TypeExpr.matchPattern_named, isSubclass_kind, decide_eq_false hother]
    rfl
  have hplaced : TypeExpr.matchFirst [placedType other.toClass device.name] (.named kind.toClass) = .ok none := by
    rw [TypeExpr.matchFirst_single, TypeExpr.matchPattern_placed_named]
  have hfirst : ∃ p pss rest, kernelSignature device other = ⟨p :: pss, rest⟩ ∧
      TypeExpr.matchFirst p (.named kind.toClass) = .ok none := by
    cases other with
    | constant | empty => exact ⟨_, _, _, rfl, hplaced⟩
    | index | split | tie | stack => exact ⟨_, _, _, rfl, hnamed⟩
  obtain ⟨p, pss, rest, hsignature, hp⟩ := hfirst
  rw [Entry.accepts, hsignature, Signature.matchTypes_of_first hp]
  rfl

/-- A kernel for one tensor takes a single tensor of its device. -/
theorem accepts_parts (hkind : kind.parts) (device : Device) :
    Entry.accepts (typesBeside kind bs) ⟨kernelSignature device kind, .kernel device kind, none, 0⟩ =
      .ok (bs = [device]) := by
  have hsignature : kernelSignature device kind = ⟨[[.named kind.toClass], [.named device.toClass]], none⟩ := by
    rcases hkind with rfl | rfl <;> rfl
  rw [Entry.accepts, hsignature]
  match bs with
  | [] => simp [typesBeside, Signature.matchTypes]
  | [b] =>
    have hmatch : Signature.matchTypes ⟨[[.named kind.toClass], [.named device.toClass]], none⟩ (typesBeside kind [b]) =
        Signature.matchEach [[.named kind.toClass], [.named device.toClass]]
          [.named kind.toClass, .named b.toClass] := rfl
    rw [hmatch, Signature.matchEach, Signature.matchEach, TypeExpr.matchFirst_single, TypeExpr.matchFirst_single,
      TypeExpr.matchPattern_named, TypeExpr.matchPattern_named, isSubclass_kind, isSubclass_device]
    by_cases hdevice : b = device <;> simp [hdevice, Signature.matchEach]
  | b :: c :: bs => simp [typesBeside, Signature.matchTypes]

/-- A kernel for any number of tensors takes tensors of its device alone. -/
theorem accepts_joining (hkind : kind.joins) (device : Device) :
    Entry.accepts (typesBeside kind bs) ⟨kernelSignature device kind, .kernel device kind, none, 0⟩ =
      .ok (bs.all (· = device)) := by
  have hsignature : kernelSignature device kind = ⟨[[.named kind.toClass]], some [.named device.toClass]⟩ := by
    rcases hkind with rfl | rfl <;> rfl
  have hmatch : Signature.matchTypes ⟨[[.named kind.toClass]], some [.named device.toClass]⟩ (typesBeside kind bs) =
      Signature.matchEach ([.named kind.toClass] :: List.replicate (bs.map Device.toClass).length [.named device.toClass])
        (.named kind.toClass :: (bs.map Device.toClass).map .named) := by
    simp [Signature.matchTypes, typesBeside, Function.comp_def]
  have hall : (bs.map Device.toClass).all (·.origin.isSubclass device.toClass.origin) = bs.all (· = device) := by
    rw [List.all_map]
    exact congrArg bs.all (funext fun b => isSubclass_device b device)
  rw [Entry.accepts, hsignature, hmatch, Signature.matchEach, TypeExpr.matchFirst_single, TypeExpr.matchPattern_named,
    isSubclass_kind, Signature.matchEach_replicate, hall]
  cases bs.all (· = device) <;> simp

theorem accepts_beside {devices : List Device} {e : Entry} (he : e ∈ builtin devices) :
    e.accepts (typesBeside kind bs) = .ok (e.implementation.takes kind bs) := by
  rcases List.mem_cons.mp he with rfl | he
  · exact accepts_redirect kind _
  obtain ⟨device, -, he⟩ := List.mem_flatMap.mp he
  obtain ⟨other, -, rfl⟩ := List.mem_map.mp he
  by_cases hother : other = kind
  · subst hother
    rw [takes, decide_eq_true rfl, Bool.true_and]
    cases other with
    | constant | empty =>
      rw [Entry.accepts, kernelSignature, typesBeside, Signature.matchTypes_of_first]
      · rfl
      · rw [TypeExpr.matchFirst_single, TypeExpr.matchPattern_placed_named]
    | index => exact accepts_parts (Or.inl rfl) device
    | split => exact accepts_parts (Or.inr rfl) device
    | tie => exact accepts_joining (Or.inr rfl) device
    | stack => exact accepts_joining (Or.inl rfl) device
  · rw [typesBeside, accepts_other hother, takes, decide_eq_false hother, Bool.false_and]

/-! ### Operators placed on a device -/

/-- An entry for operators of one class on one device takes these, and nothing else. -/
theorem accepts_of_placed (c d : Class) (device : String) (rest : Option (List TypeExpr)) (f : Implementation)
    (priority : Int) :
    Entry.accepts [placedType d name] ⟨⟨[[placedType c device]], rest⟩, f, none, priority⟩ =
      .ok (d.origin.isSubclass c.origin && device = name) := by
  rw [Entry.accepts, Signature.matchTypes_single, TypeExpr.matchPattern_placed]
  cases d.origin.isSubclass c.origin <;> by_cases h : device = name <;> simp [h]

theorem accepts_placed {devices : List Device} {e : Entry} (he : e ∈ builtin devices) :
    e.accepts [placedType kind.toClass name] = .ok (e.implementation.takesPlaced kind name) := by
  rcases List.mem_cons.mp he with rfl | he
  · have hsub : kind.toClass.origin.isSubclass Class.operator.origin = true := by cases kind <;> rfl
    rw [redirectEntry, accepts_of_placed, hsub]
    simp [takesPlaced, eq_comm]
  obtain ⟨device, -, he⟩ := List.mem_flatMap.mp he
  obtain ⟨other, -, rfl⟩ := List.mem_map.mp he
  rw [takesPlaced]
  cases other with
  | constant | empty =>
    rw [kernelSignature, accepts_of_placed, isSubclass_kind]
    cases kind <;> rfl
  | index | split | tie | stack => cases kind <;> rfl

/-- Only the device that leaves the choice open is redirected. -/
theorem lookup_ne_redirect (kind : OperatorKind) (hname : name ≠ autoDevice) (devices : List Device) :
    (builtin devices).lookup [placedType kind.toClass name] ≠ .ok .redirect := by
  intro h
  rw [lookup, accepting_eq fun e he => accepts_placed he, Outcome.ok_bind] at h
  split at h
  · rename_i e htop
    have hmem := (List.mem_filter.mp (htop ▸ List.mem_singleton_self e)).1
    have haccepted := (List.mem_filter.mp hmem).2
    rw [Except.ok.inj h, takesPlaced, decide_eq_true_eq] at haccepted
    exact hname haccepted
  · cases h

/-! ### Lookups with the backends of both devices -/

theorem nodup_builtin : ((builtin [.host, .torch]).map Entry.implementation).Nodup := by decide

theorem kernel_mem_builtin (b : Device) (kind : OperatorKind) :
    .kernel b kind ∈ (builtin [.host, .torch]).map Entry.implementation := by
  cases b <;> cases kind <;> decide

/-- Tensors that a kernel takes are on one device, except where none are joined. -/
theorem device_of_takes {c : Device} (hbs : bs = [] → ¬kind.joins) (hb : kind.takes b bs = true)
    (hc : kind.takes c bs = true) : b = c := by
  have hjoins (hkind : kind.joins) (hb : bs.all (· = b) = true) (hc : bs.all (· = c) = true) : b = c := by
    obtain ⟨d, hd⟩ := List.exists_mem_of_ne_nil bs fun hnil => hbs hnil hkind
    have hdb := of_decide_eq_true (List.all_eq_true.mp hb d hd)
    have hdc := of_decide_eq_true (List.all_eq_true.mp hc d hd)
    exact hdb.symm.trans hdc
  cases kind with
  | constant | empty => cases hb
  | index | split =>
    rw [OperatorKind.takes, decide_eq_true_eq] at hb hc
    exact List.singleton_inj.mp (hb.symm.trans hc)
  | tie => exact hjoins (Or.inr rfl) hb hc
  | stack => exact hjoins (Or.inl rfl) hb hc

theorem decides_beside (hbs : bs = [] → ¬kind.joins) : (builtin [.host, .torch]).Decides (typesBeside kind bs)
    (fun f => ∃ b, f = .kernel b kind ∧ kind.takes b bs = true) := by
  have htakes (f : Implementation) : f.takes kind bs = true ↔ ∃ b, f = .kernel b kind ∧ kind.takes b bs = true := by
    cases f with
    | kernel device other =>
      rw [takes, Bool.and_eq_true, decide_eq_true_eq]
      constructor
      · rintro ⟨rfl, h⟩
        exact ⟨device, rfl, h⟩
      · rintro ⟨b, heq, h⟩
        cases heq
        exact ⟨rfl, h⟩
    | redirect | named n => exact iff_of_false Bool.false_ne_true (by simp)
  simp only [← htakes]
  refine decides_of_unique nodup_builtin (fun e he => accepts_beside he) (fun f hf => ?_) fun f g hf hg => ?_
  · obtain ⟨b, rfl, -⟩ := (htakes f).mp hf
    exact kernel_mem_builtin b kind
  · obtain ⟨b, rfl, hb⟩ := (htakes f).mp hf
    obtain ⟨c, rfl, hc⟩ := (htakes g).mp hg
    rw [device_of_takes hbs hb hc]

/-- A joining operator is left to the device that all tensors are on. -/
theorem decides_joining (hkind : kind.joins) (hne : bs ≠ []) : (builtin [.host, .torch]).Decides (typesBeside kind bs)
    (fun f => ∃ b, f = .kernel b kind ∧ ∀ c ∈ bs, c = b) := by
  have htakes (b : Device) : kind.takes b bs = true ↔ ∀ c ∈ bs, c = b := by
    rcases hkind with rfl | rfl <;> simp [OperatorKind.takes]
  have hdecides : (builtin [.host, .torch]).Decides (typesBeside kind bs) _ := decides_beside fun hnil => absurd hnil hne
  simpa only [htakes] using hdecides

/-- An operator that makes parts of a tensor is left to the device of the only tensor. -/
theorem decides_parts (hkind : kind.parts) : (builtin [.host, .torch]).Decides (typesBeside kind bs)
    (fun f => ∃ b, f = .kernel b kind ∧ bs = [b]) := by
  have htakes (b : Device) : kind.takes b bs = true ↔ bs = [b] := by
    rcases hkind with rfl | rfl <;> simp [OperatorKind.takes]
  have hdecides : (builtin [.host, .torch]).Decides (typesBeside kind bs) _ := decides_beside fun _ => hkind.not_joins
  simpa only [htakes] using hdecides

theorem takesPlaced_iff {f : Implementation} : f.takesPlaced kind name = true ↔ f = .redirect ∧ name = autoDevice ∨
    ∃ b, f = .kernel b kind ∧ name = b.name ∧ (kind = .constant ∨ kind = .empty) := by
  cases f with
  | redirect => simp [takesPlaced]
  | kernel device other =>
    simp only [takesPlaced, Bool.and_eq_true, Bool.or_eq_true, decide_eq_true_eq, reduceCtorEq, false_and, false_or]
    constructor
    · rintro ⟨⟨hkind, rfl⟩, rfl⟩
      exact ⟨device, rfl, rfl, hkind⟩
    · rintro ⟨b, heq, rfl, hkind⟩
      cases heq
      exact ⟨⟨hkind, rfl⟩, rfl⟩
  | named n => simp [takesPlaced]

/-- No device is called like the choice that is left open, and the devices have different names. -/
theorem decides_placed (kind : OperatorKind) (name : String) :
    (builtin [.host, .torch]).Decides [placedType kind.toClass name] (fun f => f = .redirect ∧ name = autoDevice ∨
      ∃ b, f = .kernel b kind ∧ name = b.name ∧ (kind = .constant ∨ kind = .empty)) := by
  have hauto (b : Device) : autoDevice ≠ b.name := by cases b <;> decide
  have hinjective (b c : Device) (h : b.name = c.name) : b = c := by
    cases b <;> cases c <;> first | rfl | exact absurd h (by decide)
  simp only [← takesPlaced_iff]
  refine decides_of_unique nodup_builtin (fun e he => accepts_placed he) (fun f hf => ?_) fun f g hf hg => ?_
  · rcases takesPlaced_iff.mp hf with ⟨rfl, -⟩ | ⟨b, rfl, -⟩
    · decide
    · exact kernel_mem_builtin b kind
  · rcases takesPlaced_iff.mp hf with ⟨rfl, hfauto⟩ | ⟨b, rfl, hb, -⟩ <;>
      rcases takesPlaced_iff.mp hg with ⟨rfl, hgauto⟩ | ⟨c, rfl, hc, -⟩
    · rfl
    · exact absurd (hfauto.symm.trans hc) (hauto c)
    · exact absurd (hgauto.symm.trans hb) (hauto b)
    · rw [hinjective b c (hb.symm.trans hc)]

theorem types_beside (op : Operator) (xs : List Tensor) :
    (Operand.operator op :: xs.map .tensor).map Operand.type = typesBeside op.kind (xs.map Tensor.device) := by
  rw [typesBeside, List.map_cons, List.map_map, List.map_map]
  rfl

/-- With both backends loaded, operators that join tensors are left to the device that all of them are on, and operators
    that make parts of a tensor to the device of the one tensor that they need; what creates tensors is selected by the
    name of the device. Everything else is refused: there is never more than one implementation, as long as there is a
    tensor or the operator is placed on a device. -/
theorem builtin_keeps_devices_apart (op : Operator) (xs : List Tensor) (device : String) :
    let table := builtin [.host, .torch]
    let beside := (Operand.operator op :: xs.map .tensor).map Operand.type
    let placed := [Operand.placed (.operator op) (.text device)].map Operand.type
    (op.kind.joins → xs ≠ [] →
      (∀ f, table.lookup beside = .ok f ↔ ∃ b, f = .kernel b op.kind ∧ ∀ x ∈ xs, x.device = b) ∧
      ∀ x ∈ xs, ∀ y ∈ xs, x.device ≠ y.device → table.lookup beside = .error (.undispatched beside 0)) ∧
    (op.kind.parts →
      (∀ f, table.lookup beside = .ok f ↔ ∃ x, f = .kernel x.device op.kind ∧ xs = [x]) ∧
      (xs.length ≠ 1 → table.lookup beside = .error (.undispatched beside 0))) ∧
    (op.kind = .constant ∨ op.kind = .empty →
      (∀ f, table.lookup placed = .ok f ↔
        f = .redirect ∧ device = "auto" ∨ f = .kernel .host op.kind ∧ device = "host" ∨
          f = .kernel .torch op.kind ∧ device = "torch") ∧
      (device ∉ ["host", "torch", "auto"] → table.lookup placed = .error (.undispatched placed 0))) ∧
    (xs ≠ [] → ∀ c, table.lookup beside = .error c → c = .undispatched beside 0) ∧
    (∀ c, table.lookup placed = .error c → c = .undispatched placed 0) ∧
    ∀ types, (Failure.undispatched types 0).message? =
      some ("no matching implementation for " ++ TypeExpr.names types) := by
  intro table beside placed
  have htypes : beside = typesBeside op.kind (xs.map Tensor.device) := types_beside op xs
  have hplaced := decides_placed op.kind device
  rw [htypes]
  refine ⟨fun hkind hne => ?joining, fun hkind => ?parts, fun hkind => ?creating, fun hne c => ?ambiguous,
    fun c => hplaced.candidates, fun types => rfl⟩
  case joining =>
    have hdecides := @decides_joining _ (xs.map Tensor.device) hkind (by simpa using hne)
    simp only [List.forall_mem_map] at hdecides
    refine ⟨hdecides.found, fun x hx y hy hmixed => hdecides.missing ?_⟩
    rintro f ⟨b, -, hb⟩
    exact hmixed ((hb x hx).trans (hb y hy).symm)
  case parts =>
    have hdecides := @decides_parts _ (xs.map Tensor.device) hkind
    simp only [List.map_eq_singleton_iff] at hdecides
    refine ⟨fun f => (hdecides.found f).trans ?_, fun hlength => hdecides.missing ?_⟩
    · constructor
      · rintro ⟨b, rfl, x, hx, rfl⟩
        exact ⟨x, rfl, hx⟩
      · rintro ⟨x, rfl, hx⟩
        exact ⟨_, rfl, x, hx, rfl⟩
    · rintro f ⟨b, -, x, rfl, -⟩
      exact hlength rfl
  case creating =>
    refine ⟨fun f => (hplaced.found f).trans ?_, fun hdevice => hplaced.missing ?_⟩
    · constructor
      · rintro (⟨rfl, hname⟩ | ⟨b, rfl, hname, -⟩)
        · exact Or.inl ⟨rfl, hname⟩
        · cases b with
          | host => exact Or.inr (Or.inl ⟨rfl, hname⟩)
          | torch => exact Or.inr (Or.inr ⟨rfl, hname⟩)
      · rintro (⟨rfl, hname⟩ | ⟨rfl, hname⟩ | ⟨rfl, hname⟩)
        · exact Or.inl ⟨rfl, hname⟩
        · exact Or.inr ⟨.host, rfl, hname, hkind⟩
        · exact Or.inr ⟨.torch, rfl, hname, hkind⟩
    · rintro f (⟨-, rfl⟩ | ⟨b, -, rfl, -⟩)
      · exact hdevice (by decide)
      · exact hdevice (by cases b <;> decide)
  case ambiguous => exact (decides_beside fun hnil => absurd (List.map_eq_nil_iff.mp hnil) hne).candidates

/-- Tensors of the host are tied there; with one of the other device among them they are refused. -/
theorem builtin_keeps_devices_apart_mixed :
    let x : Tensor := ⟨.host, .int32, [1], [.whole 7], rfl⟩
    let y : Tensor := ⟨.torch, .int32, [1], [.whole 8], rfl⟩
    let types (xs : List Tensor) := (Operand.operator (.tie (.int 0)) :: xs.map .tensor).map Operand.type
    (builtin [.host, .torch]).lookup (types [x, x]) = .ok (.kernel .host .tie) ∧
      (builtin [.host, .torch]).lookup (types [x, y]) = .error (.undispatched (types [x, y]) 0) ∧
      (Failure.undispatched (types [x, y]) 0).message? =
        some "no matching implementation for (Tie, HostTensor, TorchTensor)" := by
  intro x y types
  have hhost := (builtin_keeps_devices_apart (.tie (.int 0)) [x, x] "auto").1 (Or.inr rfl) (by simp)
  have hmixed := (builtin_keeps_devices_apart (.tie (.int 0)) [x, y] "auto").1 (Or.inr rfl) (by simp)
  refine ⟨(hhost.1 _).mpr ⟨.host, rfl, by simp [x]⟩, hmixed.2 x (by simp) y (by simp) (by decide), by decide⟩

-- An operator that joins tensors takes none on both devices.
example : (builtin [.host, .torch]).lookup (typesBeside .tie []) = .error (.undispatched (typesBeside .tie []) 2) := rfl

end Table

end Dataflow
