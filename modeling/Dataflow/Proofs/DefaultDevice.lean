import Dataflow.Proofs.PlacedTypes
import Mathlib

/-! The device that leaves the choice to the settings. A creation on it is redirected once, to the device that the
    settings name, and ends as it would have there; where the settings leave the choice open themselves, every redirect
    leads to the next one. The cache and what was dispatched before have no part in this. -/

namespace Dataflow

open TypeExpr

/-! ### Creations -/

/-- What tensors are created from. -/
inductive Creation where
  | constant (value dtype : Value)
  | empty (shape dtype : Value)
  | flag
  | indexScalar (value dtype : Value)

namespace Creation

/-- The creation on a device. -/
def perform (device : Value) : Creation → Action Session Tensor
  | .constant value dtype => Session.constant value dtype device
  | .empty shape dtype => Session.empty shape dtype device
  | .flag => Session.flag device
  | .indexScalar value dtype => Session.indexScalar value dtype device

/-- The operator of a creation, once its element type is found to be registered. -/
def operator : Creation → Action Session Operator
  | .constant value dtype => do
    let _ ← Session.requireDType dtype
    return .constant value dtype
  | .empty shape dtype => do
    let _ ← Session.requireDType dtype
    return .empty (.tuple (← shape.items)) dtype
  | .flag => do
    let dtype ← Session.setting .flagDType
    let _ ← Session.requireDType (.text dtype)
    return .constant (.real (.ofInt 1)) (.text dtype)
  | .indexScalar value dtype => do
    let dtype ← if dtype.truth then pure dtype else .text <$> Session.setting .indexDType
    let _ ← Session.requireDType dtype
    return .constant value dtype

end Creation

namespace Session

/-- What an operator placed on a device creates, with a limit to the redirects on the way. -/
def createWithin (redirects : Nat) (op : Operator) (device : Value) : Action Session Tensor := do
  match ← Dispatch.run means redirects [.placed (.operator op) device] with
  | .tensors [x] => return x
  | _ => throw .badValue

theorem create_eq_within (op : Operator) (device : Value) :
    create op device = createWithin Dispatch.redirectLimit op device := rfl

end Session

/-- What an operator placed on a device creates by the table and the cache of a dispatcher. -/
def Dispatcher.createWithin (redirects : Nat) (op : Operator) (device : Value) : Action Dispatcher Tensor := do
  let os ← onTypes ([Operand.placed (.operator op) device].mapM adopt)
  match ← Dispatch.run means redirects os with
  | .tensors [x] => return x
  | _ => throw .badValue

namespace Creation

/-- The creation by the table and the cache of a dispatcher, with a limit to the redirects on the way. -/
def dispatched (redirects : Nat) (device : Value) (c : Creation) : Action Dispatcher Tensor := do
  let op ← Dispatcher.onSession c.operator
  Dispatcher.createWithin redirects op device

/-- A creation makes its operator and dispatches it. -/
theorem perform_eq (device : Value) (c : Creation) :
    c.perform device = c.operator >>= fun op => Session.create op device := by
  cases c with
  | constant value dtype => simp only [perform, operator, Session.constant, bind_assoc, pure_bind]
  | empty shape dtype => simp only [perform, operator, Session.empty, bind_assoc, pure_bind]
  | flag => simp only [perform, operator, Session.flag, Session.constant, bind_assoc, pure_bind]
  | indexScalar value dtype =>
    cases h : dtype.truth <;>
      simp only [perform, operator, Session.indexScalar, Session.constant, h, Bool.false_eq_true, if_true, if_false,
        bind_assoc, pure_bind]

variable {c : Creation} {s t : Session} {op : Operator}

theorem creates_of_operator (h : c.operator s = (.ok op, t)) : Session.creates op := by
  cases c with
  | constant value dtype =>
    obtain ⟨_, _, _, h⟩ := Action.bind_eq_ok.mp h
    cases h
    exact Or.inl rfl
  | empty shape dtype =>
    obtain ⟨_, _, -, h⟩ := Action.bind_eq_ok.mp h
    obtain ⟨_, _, -, h⟩ := Action.bind_eq_ok.mp h
    cases h
    exact Or.inr rfl
  | flag =>
    obtain ⟨_, _, -, h⟩ := Action.bind_eq_ok.mp h
    obtain ⟨_, _, -, h⟩ := Action.bind_eq_ok.mp h
    cases h
    exact Or.inl rfl
  | indexScalar value dtype =>
    cases htruth : dtype.truth <;> simp only [operator, htruth, Bool.false_eq_true, if_true, if_false] at h
    all_goals
      obtain ⟨_, _, -, h⟩ := Action.bind_eq_ok.mp h
      obtain ⟨_, _, -, h⟩ := Action.bind_eq_ok.mp h
      cases h
      exact Or.inl rfl

theorem confined_operator (c : Creation) : c.operator.Confined Session.footprint := by
  cases c with
  | constant value dtype => exact .bind (Session.confined_requireDType _) fun _ => .pure _
  | empty shape dtype =>
    exact .bind (Session.confined_requireDType _) fun _ => .bind (.lift _) fun _ => .pure _
  | flag =>
    exact .bind (Session.confined_setting _) fun _ => .bind (Session.confined_requireDType _) fun _ => .pure _
  | indexScalar value dtype =>
    refine .ite (.bind (.pure _) fun _ => ?_) (.bind (.map (Session.confined_setting _) _) fun _ => ?_)
    all_goals exact .bind (Session.confined_requireDType _) fun _ => .pure _

end Creation

/-! ### Redirects -/

namespace Session

variable {op : Operator} {s : Session}

/-- A device that is named is not redirected, so that there is nothing for a limit to stop. -/
theorem run_named {name : String} (hname : name ≠ Table.autoDevice) (m n : Nat) (s : Session) :
    Dispatch.run means m [.placed (.operator op) (.text name)] s =
      Dispatch.run means n [.placed (.operator op) (.text name)] s := by
  have hselect : means.select ([Operand.placed (.operator op) (.text name)].map Operand.type) s =
      ((Table.builtin s.devices).lookup [Table.placedType op.kind.toClass name], s) :=
    select_keys (areKeys_placed op name) s
  have hredirect := Table.lookup_ne_redirect op.kind hname s.devices
  rw [Dispatch.run, Dispatch.run, Action.bind_apply, Action.bind_apply, hselect]
  cases hlookup : (Table.builtin s.devices).lookup [Table.placedType op.kind.toClass name] with
  | error e => rfl
  | ok implementation =>
    cases implementation with
    | redirect => exact absurd hlookup hredirect
    | kernel device kind => rfl
    | named n => rfl

theorem run_auto (hop : creates op) (redirects : Nat) (s : Session) :
    Dispatch.run means redirects [.placed (.operator op) auto] s =
      match redirects with
      | 0 => (.error .endlessRedirect, s.settled .device)
      | n + 1 => Dispatch.run means n [.placed (.operator op) (.text (s.config.value .device))] (s.settled .device) := by
  have hselect : means.select ([Operand.placed (.operator op) auto].map Operand.type) s = (.ok .redirect, s) :=
    select_auto hop s
  have hdevice : means.defaultDevice s = (.ok (s.config.value .device), s.settled .device) := rfl
  rw [Dispatch.run, Action.bind_ok hselect]
  cases redirects <;> exact Action.bind_ok hdevice

/-- Where the settings leave the choice open, no number of redirects is enough. -/
theorem run_endless (hop : creates op) (hname : s.config.value .device = Table.autoDevice) (redirects : Nat) :
    (Dispatch.run means redirects [.placed (.operator op) auto] s).1 = .error .endlessRedirect := by
  induction redirects generalizing s with
  | zero => rw [run_auto hop]
  | succ n ih =>
    rw [run_auto hop, hname]
    exact ih ((Config.value_read .device .device s.config).trans hname)

theorem createWithin_named {name : String} (hname : name ≠ Table.autoDevice) (m n : Nat) (s : Session) :
    createWithin m op (.text name) s = createWithin n op (.text name) s := by
  rw [createWithin, createWithin, Action.bind_apply, Action.bind_apply, run_named hname m n]

theorem createWithin_auto (hop : creates op) (n : Nat) (s : Session) :
    createWithin (n + 1) op auto s = createWithin n op (.text (s.config.value .device)) (s.settled .device) := by
  rw [createWithin, createWithin, Action.bind_apply, Action.bind_apply, run_auto hop]

theorem createWithin_endless (hop : creates op) (hname : s.config.value .device = Table.autoDevice) (redirects : Nat) :
    (createWithin redirects op auto s).1 = .error .endlessRedirect := by
  have hrun := run_endless hop hname redirects
  rw [createWithin, Action.bind_apply]
  rcases hanswer : Dispatch.run means redirects [.placed (.operator op) auto] s with ⟨o, t⟩
  rw [hanswer] at hrun
  obtain rfl : o = .error .endlessRedirect := hrun
  rfl

end Session

theorem Session.Alike.devices {s t : Session} (h : s.Alike t) : s.devices = t.devices := by
  rw [Session.devices, Session.devices, h.torch]

namespace Dispatcher

/-! ### A dispatcher beside a session -/

/-- A dispatcher with the implementations of the library alone, in a session that is like another one. -/
structure Library (s : Session) (d : Dispatcher) : Prop where
  session : d.session.Alike s
  types : d.types.Coherent
  table : d.table = .builtin s.devices
  fresh : d.Fresh

variable {s : Session} {d : Dispatcher}

theorem library_initial (s : Session) : Library s (initial s true) where
  session := .refl s
  types := TypeStore.coherent_empty
  table := rfl
  fresh := fresh_initial s true

theorem Library.onSession {α : Type} {a : Action Session α} (ha : a.Confined Session.footprint) (h : Library s d) :
    Library (a s).2 (Dispatcher.onSession a d).2 where
  session := (ha.same d.session s h.session).2
  types := h.types
  table := h.table.trans (congrArg Table.builtin (Session.Alike.devices (ha.keeps s)))
  fresh := h.fresh

theorem Library.onTypes {α : Type} {a : Action TypeStore α} {P : α → Prop} (ha : TypeStore.Gives P a)
    (h : Library s d) : Library s (Dispatcher.onTypes a d).2 :=
  ⟨h.session, (ha d.types h.types).1, h.table, h.fresh⟩

theorem Library.select (h : Library s d) (ts : List TypeExpr) : Library s (Dispatcher.select ts d).2 := by
  have hfresh := fresh_select ts d h.fresh
  cases hcached : d.cached? ts with
  | some f =>
    rw [select_cached hcached]
    exact h
  | none =>
    rw [select_new hcached] at hfresh ⊢
    cases hlookup : d.table.lookup ts with
    | error e => exact h
    | ok f =>
      rw [hlookup] at hfresh
      exact ⟨h.session, h.types, h.table, hfresh⟩

theorem library_selectMade (ts : List TypeExpr) : (selectMade ts).Keeps (Library s) := by
  unfold selectMade
  cases areKeys ts with
  | false => exact .throw _
  | true =>
    exact Action.Keeps.bind (fun d hd => hd.onTypes (TypeStore.gives_types ts)) fun us d hd => hd.select us

theorem library_confined {α : Type} {a : Action Session α} (ha : a.Confined Session.footprint) :
    (onSession a).Keeps (Library s) := by
  intro d hd
  obtain ⟨hsession, htypes, htable, hfresh⟩ := hd.onSession ha
  have hback : (a s).2.Alike s := (ha.keeps s).symm
  exact ⟨hsession.trans hback, htypes, htable.trans (congrArg Table.builtin hback.devices), hfresh⟩

/-- A dispatch of anything leaves the dispatcher with the implementations of the library. -/
theorem library_dispatch (os : List Operand) : (dispatch os).Keeps (Library s) :=
  Action.Keeps.bind (fun _ hd => hd.onTypes (gives_adopt_all os)) fun _ =>
    Dispatch.keeps_run library_selectMade (library_confined (Session.confined_setting _))
      (fun xs => library_confined (Session.confined_requireKnown xs)) _ _

theorem library_of (s : Session) (earlier : List (List Operand)) :
    Library s ((initial s true).of (earlier.map .dispatch)) := by
  induction earlier using List.reverseRecOn with
  | nil => exact library_initial s
  | append_singleton earlier os ih =>
    rw [List.map_append, List.map_singleton, of_concat]
    exact library_dispatch os _ ih

section Mirrors

variable {α β : Type}

/-- An action on a dispatcher that answers like one on a session beside it, and keeps them side by side. -/
def Mirrors (a : Action Dispatcher α) (b : Action Session α) : Prop :=
  ∀ s d, Library s d → SameAnswer (a d).1 (b s).1 ∧ Library (b s).2 (a d).2

namespace Mirrors

theorem lift (o : Outcome α) : Mirrors (liftM o) (liftM o) := fun _ _ h => ⟨.refl o, h⟩

theorem pure (x : α) : Mirrors (pure x) (Pure.pure x) := lift (.ok x)

theorem throw (e : Failure) : Mirrors (throw e : Action Dispatcher α) (MonadExcept.throw e) := lift (.error e)

theorem onSession {a : Action Session α} (ha : a.Confined Session.footprint) : Mirrors (onSession a) a :=
  fun s d h => ⟨Or.inl (ha.same d.session s h.session).1, h.onSession ha⟩

theorem bind {a : Action Dispatcher α} {b : Action Session α} {f : α → Action Dispatcher β}
    {g : α → Action Session β} (h : Mirrors a b) (hf : ∀ x, Mirrors (f x) (g x)) : Mirrors (a >>= f) (b >>= g) := by
  intro s d hd
  obtain ⟨hsame, hlibrary⟩ := h s d hd
  rw [Action.bind_apply, Action.bind_apply]
  generalize a d = p at hsame hlibrary ⊢
  generalize b s = q at hsame hlibrary ⊢
  obtain ⟨o, d'⟩ := p
  obtain ⟨o', s'⟩ := q
  rcases hsame with hsame | ⟨ts, us, n, hnames, ho, ho'⟩
  · obtain rfl : o = o' := hsame
    cases o with
    | error e => exact ⟨.refl _, hlibrary⟩
    | ok x => exact hf x s' d' hlibrary
  · obtain rfl : o = .error (.undispatched ts n) := ho
    obtain rfl : o' = .error (.undispatched us n) := ho'
    exact ⟨Or.inr ⟨ts, us, n, hnames, rfl, rfl⟩, hlibrary⟩

end Mirrors

/-- The cache and what types were made before do not show in a selection for a placed operator. -/
theorem mirrors_select (op : Operator) (name : String) :
    Mirrors (selectMade [(Operand.placed (.operator op) (.text name)).type])
      (Session.select [(Operand.placed (.operator op) (.text name)).type]) := by
  intro s d h
  have hkeys := Session.areKeys_placed op name
  obtain ⟨t, types, hmade, htypes, hsame⟩ := TypeStore.makes_placed op.kind.toClass name d.types h.types
  have hlibrary : Library s { d with types } := ⟨h.session, htypes, h.table, h.fresh⟩
  have hselect : selectMade [(Operand.placed (.operator op) (.text name)).type] d = select [t] { d with types } := by
    unfold selectMade
    rw [hkeys]
    exact Action.bind_ok (types_single hmade)
  have hcache : ∀ e ∈ d.cache, sameAll e.1 [t] = true → LookAlike e.1 [t] ∧ d.table.Undecided e.1 [t] := by
    intro e _ he
    refine ⟨?_, h.table ▸ Table.undecided_builtin _ _ _⟩
    cases hts : e.1 with
    | nil =>
      rw [hts] at he
      simp [sameAll] at he
    | cons u us =>
      cases us with
      | nil =>
        rw [hts, sameAll, Bool.and_eq_true] at he
        exact lookAlike_of_same_placed hsame he.1
      | cons v us =>
        rw [hts] at he
        simp [sameAll] at he
  rw [hselect, Session.select_keys hkeys, hlibrary.fresh.select_eq hcache]
  refine ⟨?_, hlibrary.select [t]⟩
  show SameAnswer (d.table.lookup [t]) _
  rw [h.table]
  refine Table.lookup_sameAnswer (Table.undecided_builtin _ _ _) (lookAlike_placed hsame) ?_
  rw [names, names, List.map_singleton, List.map_singleton, name_placed hsame]
  rfl

theorem mirrors_run_of (op : Operator) (name : String) {redirects : Nat}
    (hnested : ∀ n, redirects = n + 1 → ∀ name : String,
      Mirrors (Dispatch.run means n [.placed (.operator op) (.text name)])
        (Dispatch.run Session.means n [.placed (.operator op) (.text name)])) :
    Mirrors (Dispatch.run means redirects [.placed (.operator op) (.text name)])
      (Dispatch.run Session.means redirects [.placed (.operator op) (.text name)]) := by
  rw [Dispatch.run, Dispatch.run]
  refine (mirrors_select op name).bind fun implementation => ?_
  cases implementation with
  | kernel device kind =>
    exact (Mirrors.lift _).bind fun xs => (Mirrors.onSession (Session.confined_requireKnown xs)).bind fun _ => .pure _
  | named n => exact .pure _
  | redirect =>
    refine (Mirrors.onSession (Session.confined_setting .device)).bind fun name' => ?_
    cases redirects with
    | zero => exact .throw _
    | succ n => exact hnested n rfl name'

theorem mirrors_run (op : Operator) (redirects : Nat) (name : String) :
    Mirrors (Dispatch.run means redirects [.placed (.operator op) (.text name)])
      (Dispatch.run Session.means redirects [.placed (.operator op) (.text name)]) := by
  induction redirects generalizing name with
  | zero => exact mirrors_run_of op name fun n hn => absurd hn (Nat.succ_ne_zero n).symm
  | succ n ih =>
    refine mirrors_run_of op name fun m hm name' => ?_
    obtain rfl := Nat.succ.inj hm
    exact ih name'

theorem mirrors_createWithin (op : Operator) (redirects : Nat) (name : String) :
    Mirrors (createWithin redirects op (.text name)) (Session.createWithin redirects op (.text name)) := by
  have hadopt : ∀ d, onTypes ([Operand.placed (.operator op) (.text name)].mapM adopt) d =
      (.ok [.placed (.operator op) (.text name)], d) := fun _ => rfl
  have hcreate : Mirrors
      (do
        match ← Dispatch.run means redirects [.placed (.operator op) (.text name)] with
        | .tensors [x] => return x
        | _ => throw .badValue)
      (Session.createWithin redirects op (.text name)) := by
    refine (mirrors_run op redirects name).bind fun answer => ?_
    split
    · exact .pure _
    · exact .throw _
  intro s d h
  rw [createWithin, Action.bind_ok (hadopt d)]
  exact hcreate s d h

theorem mirrors_dispatched (c : Creation) (redirects : Nat) (name : String) :
    Mirrors (c.dispatched redirects (.text name))
      (c.operator >>= fun op => Session.createWithin redirects op (.text name)) :=
  (Mirrors.onSession c.confined_operator).bind fun op => mirrors_createWithin op redirects name

end Mirrors

end Dispatcher

/-! ### The device of the settings -/

namespace Session

variable {op : Operator} {s t : Session}

/-- One redirect leads to the device of the settings, and no limit beyond it makes a difference. -/
theorem fst_createWithin_auto (hop : creates op) (hname : s.config.value .device ≠ Table.autoDevice) (n : Nat) :
    (createWithin (n + 1) op auto s).1 = (create op (.text (s.config.value .device)) s).1 := by
  rw [createWithin_auto hop, createWithin_named hname n Dispatch.redirectLimit]
  exact ((confined_create op _).same _ _ (alike_settled .device s).symm).1

end Session

namespace Creation

variable {s : Session}

/-- What two creations make of the same operator decides what they answer. -/
theorem fst_bind_operator (c : Creation) {f g : Operator → Action Session Tensor}
    (h : ∀ op t, Session.creates op → s.Alike t → (f op t).1 = (g op t).1) :
    ((c.operator >>= f) s).1 = ((c.operator >>= g) s).1 := by
  have halike := c.confined_operator.keeps s
  rw [Action.bind_apply, Action.bind_apply]
  rcases hop : c.operator s with ⟨e | op, t⟩
  · rfl
  · rw [hop] at halike
    exact h op t (creates_of_operator hop) halike

/-- A creation on the device that leaves the choice open ends after one redirect where the settings name another device,
    with the answer on that device: also when the table and the cache of a dispatcher decide, after any dispatches.
    Where the settings leave the choice open as well, no number of redirects is enough. -/
theorem redirected_once (s : Session) (earlier : List (List Operand)) (c : Creation) :
    let d := (Dispatcher.initial s true).of (earlier.map .dispatch)
    let configured := s.config.value .device
    (configured ≠ Table.autoDevice →
      (c.perform Session.auto s).1 = (c.perform (.text configured) s).1 ∧
      (∀ n, SameAnswer (c.dispatched (n + 1) Session.auto d).1 (c.perform (.text configured) s).1) ∧
      ∀ n, SameAnswer (c.dispatched n (.text configured) d).1 (c.perform (.text configured) s).1) ∧
    (configured = Table.autoDevice →
      (c.perform Session.auto s).1 = ((c.operator s).1 >>= fun _ => .error .endlessRedirect) ∧
      ∀ n, SameAnswer (c.dispatched n Session.auto d).1 ((c.operator s).1 >>= fun _ => .error .endlessRedirect)) := by
  intro d configured
  have hd : Dispatcher.Library s d := Dispatcher.library_of s earlier
  have hdispatched : ∀ n name, SameAnswer (c.dispatched n (.text name) d).1
      ((c.operator >>= fun op => Session.createWithin n op (.text name)) s).1 :=
    fun n name => (Dispatcher.mirrors_dispatched c n name s d hd).1
  constructor
  · intro hname
    have hauto : ∀ n, ((c.operator >>= fun op => Session.createWithin (n + 1) op Session.auto) s).1 =
        (c.perform (.text configured) s).1 := by
      intro n
      rw [perform_eq]
      refine c.fst_bind_operator fun op t hop halike => ?_
      have hconfigured : t.config.value .device = configured := (halike.settings .device).symm
      rw [Session.fst_createWithin_auto hop (hconfigured ▸ hname), hconfigured]
    have hnamed : ∀ n, ((c.operator >>= fun op => Session.createWithin n op (.text configured)) s).1 =
        (c.perform (.text configured) s).1 := by
      intro n
      rw [perform_eq]
      refine c.fst_bind_operator fun op t _ _ => ?_
      rw [Session.createWithin_named hname n Dispatch.redirectLimit]
      rfl
    refine ⟨?_, fun n => hauto n ▸ hdispatched (n + 1) Table.autoDevice, fun n => hnamed n ▸ hdispatched n configured⟩
    rw [perform_eq]
    exact hauto 0
  · intro hname
    have hendless : ∀ n, ((c.operator >>= fun op => Session.createWithin n op Session.auto) s).1 =
        ((c.operator s).1 >>= fun _ => .error .endlessRedirect) := by
      intro n
      have halike := c.confined_operator.keeps s
      rw [Action.bind_apply]
      rcases hop : c.operator s with ⟨e | op, t⟩
      · rfl
      · rw [hop] at halike
        exact Session.createWithin_endless (creates_of_operator hop) ((halike.settings .device).symm.trans hname) n
    refine ⟨?_, fun n => hendless n ▸ hdispatched n Table.autoDevice⟩
    rw [perform_eq]
    exact hendless Dispatch.redirectLimit

/-- A device that no backend has is refused by its name, and so is the device that leaves the choice open where the
    settings name it; that the same was dispatched before makes no difference. -/
theorem redirected_once_missing_backend :
    let s := Session.initial [("FLOWCTL_DEVICE", "missing")] false false
    let c : Creation := .constant (.int 1) (.text "int32")
    let failure : Failure := .undispatched [Table.placedType .constant "missing"] 0
    let earlier : List (List Operand) := [[.placed (.operator (.constant (.int 1) (.text "int32"))) Session.auto]]
    let d := (Dispatcher.initial s true).of (earlier.map .dispatch)
    s.config.value .device = "missing" ∧ (c.perform (.text "missing") s).1 = .error failure ∧
      failure.message? = some "no matching implementation for (DeviceOperator)" ∧
      (c.perform Session.auto s).1 = .error failure ∧
      SameAnswer (c.dispatched Dispatch.redirectLimit Session.auto d).1 (.error failure) := by
  intro s c failure earlier d
  have hdevice : s.config.value .device = "missing" := by cbv
  have hnamed : (c.perform (.text "missing") s).1 = .error failure := by
    dsimp only [c, s, failure]
    cbv
  have honce := (redirected_once s earlier c).1 (by rw [hdevice]; decide)
  rw [hdevice, hnamed] at honce
  exact ⟨hdevice, hnamed, by cbv, honce.1, honce.2.1 0⟩

/-- Settings that leave the choice open themselves send every redirect to the next one. -/
theorem auto_redirected_to_auto :
    let s := Session.initial [("FLOWCTL_DEVICE", "auto")] false false
    (Session.constant (.int 1) (.text "int32") Session.auto s).1 = .error .endlessRedirect ∧
      (Session.flag Session.auto s).1 = .error .endlessRedirect :=
  ⟨by cbv, by cbv⟩

end Creation

end Dataflow
