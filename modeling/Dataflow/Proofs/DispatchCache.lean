import Dataflow.Proofs.MadeTypes
import Mathlib.Data.List.Induction

/-! Dispatches with and without the cache. Registering an implementation empties the cache, and what a dispatch adds to
    it is a fresh lookup, so that every entry is one at any time. As long as the types of the operands are definite, a
    cached implementation is the one that a fresh lookup would select. -/

namespace Dataflow

open TypeExpr TypeStore

namespace Dispatcher

/-- What is done with a dispatcher. -/
inductive Event where
  | register (c : Declaration)
  | dispatch (operands : List Operand)

def after (d : Dispatcher) : Event → Dispatcher
  | .register c => (register c d).2
  | .dispatch os => (dispatch os d).2

/-- After events one after another, some of which may fail. -/
def of (d : Dispatcher) (es : List Event) : Dispatcher := es.foldl after d

theorem of_concat (d : Dispatcher) (es : List Event) (e : Event) : of d (es ++ [e]) = (of d es).after e := by
  rw [of, List.foldl_append]
  rfl

/-- An event whose types the cache can stand for: of operands definite ones that are keys, and of a condition whatever
    it does not tell apart. -/
def Event.Plain : Event → Prop
  | .register c => ∀ p ∈ c.predicate, p.Even
  | .dispatch os => AllClear (os.map Operand.type)

/-- The means of a dispatch without the cache. -/
def uncached : Dispatch.Means Dispatcher := { means with select := lookup }

def dispatchUncached (operands : List Operand) : Action Dispatcher Answer := do
  let os ← onTypes (operands.mapM adopt)
  Dispatch.run uncached Dispatch.redirectLimit os

/-- The implementation that a fresh lookup selects for operands. -/
def lookupFor (operands : List Operand) : Action Dispatcher Implementation := do
  let os ← onTypes (operands.mapM adopt)
  lookup (os.map Operand.type)

/-! ### Coherent caches -/

/-- A dispatcher whose cache holds fresh lookups. -/
structure Coherent (d : Dispatcher) : Prop where
  types : d.types.Coherent
  table : d.table.Even
  cache : ∀ e ∈ d.cache, AllClear e.1 ∧ d.table.lookup e.1 = .ok e.2

/-- A dispatcher without what it has cached. -/
def forget (d : Dispatcher) : Dispatcher := { d with cache := [] }

variable {d : Dispatcher} {ts : List TypeExpr}

theorem even_builtin (devices : List Device) : (Table.builtin devices).Even := by
  intro e he p hp
  rw [Table.predicate_of_builtin he] at hp
  cases hp

theorem coherent_initial (s : Session) (base : Bool) : (initial s base).Coherent where
  types := coherent_empty
  table := by
    unfold initial
    cases base with
    | true => exact even_builtin _
    | false => exact fun e he => by cases he
  cache := fun e he => by cases he

theorem Coherent.lookup_of_cached (hd : d.Coherent) (hts : AllClear ts) {f : Implementation}
    (hf : d.cached? ts = some f) : d.table.lookup ts = .ok f := by
  obtain ⟨e, he, rfl⟩ := Option.map_eq_some_iff.mp hf
  have hsame := List.find?_some he
  obtain ⟨hclear, hlookup⟩ := hd.cache e (List.mem_of_find?_eq_some he)
  exact (Table.lookup_alike hd.table (allAlike_of_sameAll hsame hclear.2 hts.2 hts.1)).mp hlookup

theorem select_error (hd : d.Coherent) (hts : AllClear ts) {e : Failure} (he : d.table.lookup ts = .error e) :
    select ts d = (.error e, d) := by
  rw [select, Action.bind_ok (Action.get_apply d)]
  cases hcached : d.cached? ts with
  | some f =>
    rw [hd.lookup_of_cached hts hcached] at he
    cases he
  | none => exact Action.bind_error (congrArg (·, d) he)

theorem select_ok (hd : d.Coherent) (hts : AllClear ts) {f : Implementation} (hf : d.table.lookup ts = .ok f) :
    ∃ cache, select ts d = (.ok f, { d with cache }) ∧ ({ d with cache } : Dispatcher).Coherent := by
  rw [select, Action.bind_ok (Action.get_apply d)]
  cases hcached : d.cached? ts with
  | some g =>
    obtain rfl : g = f := Except.ok.inj ((hd.lookup_of_cached hts hcached).symm.trans hf)
    exact ⟨d.cache, rfl, hd⟩
  | none =>
    refine ⟨d.cache ++ [(ts, f)], Action.bind_ok (congrArg (·, d) hf), hd.types, hd.table, fun e he => ?_⟩
    rcases List.mem_append.mp he with he | he
    · exact hd.cache e he
    · obtain rfl := List.mem_singleton.mp he
      exact ⟨hts, hf⟩

/-! ### Actions on a dispatcher with its cache and without -/

section Follows

variable {α β : Type} {P : α → Prop} {Q : β → Prop}

/-- An action that, on a coherent dispatcher, does what another one does without the cache, keeps the dispatcher
    coherent and gives only what has a property. -/
def Follows (P : α → Prop) (a b : Action Dispatcher α) : Prop :=
  ∀ d d' : Dispatcher, d.Coherent → d.forget = d'.forget →
    (a d).1 = (b d').1 ∧ (a d).2.forget = (b d').2.forget ∧ (a d).2.Coherent ∧ ∀ x, (a d).1 = .ok x → P x

namespace Follows

theorem pure {x : α} (hx : P x) : Follows P (pure x : Action Dispatcher α) (Pure.pure x) := fun _ _ hd h =>
  ⟨rfl, h, hd, fun _ hy => Except.ok.inj hy ▸ hx⟩

theorem throw (e : Failure) : Follows P (throw e : Action Dispatcher α) (MonadExcept.throw e) := fun _ _ hd h =>
  ⟨rfl, h, hd, nofun⟩

theorem lift (o : Outcome α) : Follows (fun _ => True) (liftM o : Action Dispatcher α) (liftM o) := fun _ _ hd h =>
  ⟨rfl, h, hd, fun _ _ => trivial⟩

theorem bind {a a' : Action Dispatcher α} {f f' : α → Action Dispatcher β} (ha : Follows P a a')
    (hf : ∀ x, P x → Follows Q (f x) (f' x)) : Follows Q (a >>= f) (a' >>= f') := by
  intro d d' hd h
  obtain ⟨hanswer, hforget, hcoherent, hx⟩ := ha d d' hd h
  rw [Action.bind_apply, Action.bind_apply]
  generalize a d = p at hanswer hforget hcoherent hx ⊢
  generalize a' d' = p' at hanswer hforget ⊢
  obtain ⟨o, t⟩ := p
  obtain ⟨o', t'⟩ := p'
  obtain rfl : o = o' := hanswer
  cases o with
  | error e => exact ⟨rfl, hforget, hcoherent, nofun⟩
  | ok x => exact hf x (hx x rfl) t t' hcoherent hforget

theorem onSession (a : Action Session α) : Follows (fun _ => True) (onSession a) (onSession a) := by
  intro d d' hd h
  have hsession : d.session = d'.session := show d.forget.session = d'.forget.session from congrArg session h
  refine ⟨?_, ?_, ⟨hd.types, hd.table, hd.cache⟩, fun _ _ => trivial⟩
  · show (a d.session).1 = (a d'.session).1
    rw [hsession]
  · show ({ d.forget with session := (a d.session).2 } : Dispatcher) =
      { d'.forget with session := (a d'.session).2 }
    rw [hsession, h]

theorem onTypes {a : Action TypeStore α} (ha : Gives P a) : Follows P (onTypes a) (Dispatcher.onTypes a) := by
  intro d d' hd h
  have htypes : d.types = d'.types := show d.forget.types = d'.forget.types from congrArg types h
  obtain ⟨hcoherent, hx⟩ := ha d.types hd.types
  refine ⟨?_, ?_, ⟨hcoherent, hd.table, hd.cache⟩, hx⟩
  · show (a d.types).1 = (a d'.types).1
    rw [htypes]
  · show ({ d.forget with types := (a d.types).2 } : Dispatcher) = { d'.forget with types := (a d'.types).2 }
    rw [htypes, h]

end Follows

theorem Coherent.onTypes (hd : d.Coherent) {a : Action TypeStore α} (ha : Gives P a) :
    (∃ e t, onTypes a d = (.error e, t) ∧ t.Coherent) ∨ ∃ x t, onTypes a d = (.ok x, t) ∧ t.Coherent ∧ P x := by
  obtain ⟨-, -, hcoherent, hx⟩ := Follows.onTypes ha d d hd rfl
  rcases hanswer : Dispatcher.onTypes a d with ⟨e | x, t⟩
  · rw [hanswer] at hcoherent
    exact Or.inl ⟨e, t, rfl, hcoherent⟩
  · rw [hanswer] at hcoherent hx
    exact Or.inr ⟨x, t, rfl, hcoherent, hx x rfl⟩

theorem follows_select (hts : AllClear ts) :
    Follows (fun _ => True) (select ts) (do (← get).table.lookup ts) := by
  intro d d' hd h
  have htable : d.table = d'.table := show d.forget.table = d'.forget.table from congrArg table h
  rw [Action.bind_ok (Action.get_apply d'), Action.lift_apply, ← htable]
  cases hlookup : d.table.lookup ts with
  | error e =>
    rw [select_error hd hts hlookup]
    exact ⟨rfl, h, hd, nofun⟩
  | ok f =>
    obtain ⟨cache, hselect, hcoherent⟩ := select_ok hd hts hlookup
    rw [hselect]
    exact ⟨rfl, h, hcoherent, fun _ _ => trivial⟩

theorem follows_selectMade (hts : AllClear ts) : Follows (fun _ => True) (selectMade ts) (lookup ts) := by
  unfold selectMade
  rw [hts.2]
  exact (Follows.onTypes (gives_types ts)).bind fun _ hus => follows_select (hus hts)

end Follows

/-! ### Dispatches -/

/-- The library's own objects, with a device that is known by name. -/
inductive IsOwn : Operand → Prop
  | tensor (x : Tensor) : IsOwn (.tensor x)
  | operator (op : Operator) : IsOwn (.operator op)
  | placed {inner : Operand} (h : IsOwn inner) (name : String) : IsOwn (.placed inner (.text name))

theorem clear_placed {inner : Operand} (h : inner.type.Clear) (name : String) :
    (Operand.placed inner (.text name)).type.Clear := by
  have hname : (Operand.deviceType (.text name)).Clear := clear_literalOf rfl rfl
  exact clear_apply.mpr (allClear_cons.mpr ⟨h, allClear_cons.mpr ⟨hname, rfl, rfl⟩⟩)

theorem IsOwn.clear {o : Operand} (h : IsOwn o) : o.type.Clear := by
  induction h with
  | tensor x => exact ⟨rfl, rfl⟩
  | operator op => exact ⟨rfl, rfl⟩
  | placed _ name ih => exact clear_placed ih name

theorem allClear_redirected {inner : Operand} {device : Value} {rest : List Operand}
    (h : AllClear ((Operand.placed inner device :: rest).map Operand.type)) (name : String) :
    AllClear ((Operand.placed inner (.text name) :: rest).map Operand.type) := by
  obtain ⟨hplaced, hrest⟩ := allClear_cons.mp h
  obtain ⟨hinner, -⟩ := allClear_cons.mp (clear_apply.mp hplaced)
  exact allClear_cons.mpr ⟨clear_placed hinner name, hrest⟩

theorem follows_run_of {redirects : Nat}
    (hnested : ∀ n, redirects = n + 1 → ∀ os : List Operand, AllClear (os.map Operand.type) →
      Follows (fun _ => True) (Dispatch.run means n os) (Dispatch.run uncached n os))
    {os : List Operand} (hos : AllClear (os.map Operand.type)) :
    Follows (fun _ => True) (Dispatch.run means redirects os) (Dispatch.run uncached redirects os) := by
  rw [Dispatch.run, Dispatch.run]
  refine (follows_selectMade hos).bind fun implementation _ => ?_
  cases os with
  | nil => exact Follows.throw _
  | cons o rest =>
    cases implementation with
    | kernel device kind =>
      exact (Follows.lift _).bind fun xs _ => (Follows.onSession _).bind fun _ _ => Follows.pure trivial
    | named n => exact Follows.pure trivial
    | redirect =>
      cases o with
      | placed inner device =>
        refine (Follows.onSession (Session.setting .device)).bind fun name _ => ?_
        cases redirects with
        | zero => exact Follows.throw _
        | succ n => exact hnested n rfl _ (allClear_redirected hos name)
      | tensor x => exact Follows.throw _
      | operator op => exact Follows.throw _
      | standIn t => exact Follows.throw _

/-- A dispatch of definite operands does what it does without the cache, and so does the one that it redirects to. -/
theorem follows_run (redirects : Nat) {os : List Operand} (hos : AllClear (os.map Operand.type)) :
    Follows (fun _ => True) (Dispatch.run means redirects os) (Dispatch.run uncached redirects os) := by
  induction redirects generalizing os with
  | zero => exact follows_run_of (fun n hn => absurd hn (Nat.succ_ne_zero n).symm) hos
  | succ n ih =>
    refine follows_run_of (fun m hm os' hos' => ?_) hos
    obtain rfl := Nat.succ.inj hm
    exact ih hos'

theorem gives_adopt (o : Operand) : Gives (fun o' => o.type.Clear → o'.type.Clear) (adopt o) := by
  induction o with
  | tensor x => exact Gives.pure id
  | operator op => exact Gives.pure id
  | standIn t => exact (gives_type t).bind fun u hu => Gives.pure hu
  | placed inner device ih =>
    refine ih.bind fun o ho => Gives.pure fun hclear => ?_
    obtain ⟨hinner, hdevice⟩ := allClear_cons.mp (clear_apply.mp hclear)
    exact clear_apply.mpr (allClear_cons.mpr ⟨ho hinner, hdevice⟩)

theorem gives_adopt_all (os : List Operand) :
    Gives (fun os' => AllClear (os.map Operand.type) → AllClear (os'.map Operand.type)) (os.mapM adopt) := by
  induction os with
  | nil => exact Gives.pure id
  | cons o os ih =>
    rw [List.mapM_cons]
    refine (gives_adopt o).bind fun o' ho => ih.bind fun os' hos => Gives.pure fun hclear => ?_
    obtain ⟨h, hs⟩ := allClear_cons.mp hclear
    exact allClear_cons.mpr ⟨ho h, hos hs⟩

theorem follows_dispatch {os : List Operand} (hos : AllClear (os.map Operand.type)) :
    Follows (fun _ => True) (dispatch os) (dispatchUncached os) :=
  (Follows.onTypes (gives_adopt_all os)).bind fun _ hos' => follows_run _ (hos' hos)

theorem selectMade_error (hd : d.Coherent) (hts : AllClear ts) {e : Failure} {d' : Dispatcher}
    (he : lookup ts d = (.error e, d')) : selectMade ts d = (.error e, d') := by
  have hselect : selectMade ts d = (do let us ← onTypes (TypeStore.types ts); select us) d := by
    unfold selectMade
    rw [hts.2]
    rfl
  rw [hselect]
  rcases hd.onTypes (gives_types ts) with ⟨e', t, hmade, -⟩ | ⟨us, t, hmade, hcoherent, hus⟩
  · rw [lookup, Action.bind_error hmade] at he
    rw [Action.bind_error hmade]
    exact he
  · rw [lookup, Action.bind_ok hmade] at he
    rw [Action.bind_ok hmade]
    obtain ⟨hlookup, rfl⟩ := Prod.mk.inj he
    exact select_error hcoherent (hus hts) hlookup

/-- Where the lookup fails, the dispatch fails with it and nothing is cached. -/
theorem dispatch_error (hd : d.Coherent) {os : List Operand} (hos : AllClear (os.map Operand.type)) {e : Failure}
    {d' : Dispatcher} (he : lookupFor os d = (.error e, d')) : dispatch os d = (.error e, d') := by
  rcases hd.onTypes (gives_adopt_all os) with ⟨e', t, hmade, -⟩ | ⟨os', t, hmade, hcoherent, hos'⟩
  · rw [lookupFor, Action.bind_error hmade] at he
    obtain ⟨herror, rfl⟩ := Prod.mk.inj he
    obtain rfl := Except.error.inj herror
    exact Action.bind_error hmade
  · rw [lookupFor, Action.bind_ok hmade] at he
    rw [dispatch, Action.bind_ok hmade, Dispatch.redirectLimit, Dispatch.run]
    exact Action.bind_error (selectMade_error hcoherent (hos' hos) he)

/-! ### Registrations -/

theorem gives_annotations (ts : List (Option TypeExpr)) : Gives (fun _ => True) (annotations ts) := by
  induction ts with
  | nil => exact Gives.pure trivial
  | cons t ts ih =>
    cases t with
    | none => exact ih.bind fun _ _ => Gives.pure trivial
    | some t => exact (gives_type t).bind fun _ _ => ih.bind fun _ _ => Gives.pure trivial

theorem gives_condition {p : Predicate} (hp : p.Even) : Gives Predicate.Even (condition p) := by
  cases p with
  | constant b => exact Gives.pure hp
  | test condition => exact Gives.pure hp
  | argumentIs k t => exact (gives_type t).bind fun u _ => Gives.pure (Predicate.even_argumentIs k u)

theorem gives_entry {c : Declaration} (hc : ∀ p ∈ c.predicate, p.Even) :
    Gives (fun e => ∀ p ∈ e.predicate, p.Even) (entry c) := by
  have hsignature : Gives (fun _ => True) (Signature.ofMade c.args c.rest c.byName) := by
    refine (gives_annotations c.args).bind fun _ _ => ?_
    cases c.rest with
    | none => exact Gives.lift fun _ _ => trivial
    | some t =>
      have hrest : Gives (fun _ => True) (some <$> TypeStore.type t) :=
        (gives_type t).bind fun _ _ => Gives.pure trivial
      exact hrest.bind fun _ _ => Gives.lift fun _ _ => trivial
  refine hsignature.bind fun signature _ => ?_
  cases hp : c.predicate with
  | none => exact Gives.pure fun p hp => nomatch hp
  | some p =>
    have hsome : Gives (fun o : Option Predicate => ∀ p ∈ o, p.Even) (some <$> condition p) :=
      (gives_condition (hc p hp)).bind fun p' hp' => Gives.pure fun q hq => Option.some.inj hq ▸ hp'
    exact Gives.bind (Q := fun e : Entry => ∀ p ∈ e.predicate, p.Even) hsome fun o ho => Gives.pure ho

theorem Coherent.add (hd : d.Coherent) {e : Entry} (he : ∀ p ∈ e.predicate, p.Even) : (add e d).2.Coherent := by
  have hrecord (text : String) : onSession (Session.record .dispatch (.ok text)) d =
      (.ok (), { d with session := d.session.recorded .dispatch text }) := by
    show ((Session.record .dispatch (.ok text) d.session).1,
      { d with session := (Session.record .dispatch (.ok text) d.session).2 }) = _
    rw [Session.record_ok]
  rw [Dispatcher.add, Action.bind_ok (hrecord _)]
  refine ⟨hd.types, fun f hf => ?_, nofun⟩
  rcases List.mem_append.mp hf with hf | hf
  · exact hd.table f hf
  · rw [List.mem_singleton.mp hf]
    exact he

theorem Coherent.register (hd : d.Coherent) {c : Declaration} (hc : ∀ p ∈ c.predicate, p.Even) :
    (register c d).2.Coherent := by
  rw [Dispatcher.register]
  rcases hd.onTypes (gives_entry hc) with ⟨e, t, hmade, hcoherent⟩ | ⟨e, t, hmade, hcoherent, he⟩
  · rw [Action.bind_error hmade]
    exact hcoherent
  · rw [Action.bind_ok hmade, Action.bind_apply]
    have hadd := hcoherent.add he
    rcases hanswer : Dispatcher.add e t with ⟨o | ⟨⟩, u⟩ <;> rw [hanswer] at hadd <;> exact hadd

/-! ### Runs -/

theorem Coherent.after (hd : d.Coherent) {e : Event} (he : e.Plain) : (d.after e).Coherent := by
  cases e with
  | register c => exact hd.register he
  | dispatch os =>
    obtain ⟨-, -, hcoherent, -⟩ := follows_dispatch he d d hd rfl
    exact hcoherent

theorem coherent_of {es : List Event} (hd : d.Coherent) (hes : ∀ e ∈ es, e.Plain) : (d.of es).Coherent := by
  induction es using List.reverseRecOn with
  | nil => exact hd
  | append_singleton es e ih =>
    rw [of_concat]
    refine (ih fun f hf => hes f (List.mem_append_left _ hf)).after (hes e ?_)
    exact List.mem_append_right _ List.mem_cons_self

/-- After any registrations and dispatches, every cached implementation is the one that a fresh lookup selects. A
    dispatch then fails where the lookup does, and caches nothing there; and it does what it would do if it looked up
    every implementation afresh, for itself and for the dispatch that it redirects to. -/
theorem cache_transparent (s : Session) (base : Bool) {es : List Event} (hes : ∀ e ∈ es, e.Plain) :
    let d := (initial s base).of es
    (∀ e ∈ d.cache, d.table.lookup e.1 = .ok e.2) ∧
      ∀ os : List Operand, AllClear (os.map Operand.type) →
        (∀ e d', lookupFor os d = (.error e, d') → dispatch os d = (.error e, d')) ∧
          (dispatch os d).1 = (dispatchUncached os d).1 ∧
          (dispatch os d).2.forget = (dispatchUncached os d).2.forget := by
  intro d
  have hd : d.Coherent := coherent_of (coherent_initial s base) hes
  refine ⟨fun e he => (hd.cache e he).2, fun os hos => ⟨fun e d' he => dispatch_error hd hos he, ?_⟩⟩
  obtain ⟨hanswer, hforget, -, -⟩ := follows_dispatch hos d d hd rfl
  exact ⟨hanswer, hforget⟩

/-- A second dispatch of the same type takes what the first one has cached. -/
theorem cache_transparent_again :
    let s := Session.initial [] false false
    let f : Declaration := ⟨"f", [some (.named .object)], none, false, none, 0⟩
    let os : List Operand := [.standIn (.named .bool)]
    let es : List Event := [.register f, .dispatch os]
    let d := (initial s false).of es
    (∀ e ∈ es, e.Plain) ∧ AllClear (os.map Operand.type) ∧ d.cache = [([.named .bool], .named "f")] ∧
      d.table.lookup [.named .bool] = .ok (.named "f") ∧ (dispatch os d).1 = .ok (.name "f") := by
  intro s f os es d
  have hos : AllClear (os.map Operand.type) := ⟨rfl, rfl⟩
  have hes : ∀ e ∈ es, e.Plain := by
    intro e he
    rcases List.mem_cons.mp he with rfl | he
    · exact fun p hp => nomatch hp
    · rw [List.mem_singleton.mp he]
      exact hos
  obtain ⟨hcache, hdispatch⟩ := cache_transparent s false hes
  let d₁ := (initial s false).of [.register f]
  have hadopt : onTypes (os.mapM adopt) d₁ = (.ok os, d₁) := rfl
  have hfirst : dispatch os d₁ = (.ok (.name "f"), { d₁ with cache := [([.named .bool], .named "f")] }) := by
    rw [dispatch, Action.bind_ok hadopt, Dispatch.redirectLimit, Dispatch.run]
    rfl
  have hd : d = { d₁ with cache := [([.named .bool], .named "f")] } := congrArg Prod.snd hfirst
  have hcached : d.cache = [([.named .bool], .named "f")] := congrArg cache hd
  have hlookup : d.table.lookup [.named .bool] = .ok (.named "f") :=
    hcache ([.named .bool], .named "f") (hcached ▸ List.mem_cons_self)
  have hagain : onTypes (os.mapM adopt) d = (.ok os, d) := by
    rw [hd]
    rfl
  have huncached : (dispatchUncached os d).1 = .ok (.name "f") := by
    have hselect : uncached.select (os.map Operand.type) d = (.ok (.named "f"), d) := by
      show (d.table.lookup [.named .bool], { d with types := d.types }) = _
      rw [hlookup]
    rw [dispatchUncached, Action.bind_ok hagain, Dispatch.redirectLimit, Dispatch.run, Action.bind_ok hselect]
    rfl
  exact ⟨hes, hos, hcached, hlookup, (hdispatch os hos).2.1.trans huncached⟩

section Single

variable {t u : TypeExpr} {s : TypeStore}

theorem types_single (h : TypeStore.type t d.types = (.ok u, s)) :
    onTypes (TypeStore.types [t]) d = (.ok [u], { d with types := s }) := by
  have htypes : TypeStore.types [t] d.types = (.ok [u], s) := Action.bind_ok h
  exact congrArg (fun p => (p.1, { d with types := p.2 })) htypes

theorem adopt_single (h : TypeStore.type t d.types = (.ok u, s)) :
    onTypes ([Operand.standIn t].mapM adopt) d = (.ok [.standIn u], { d with types := s }) := by
  have hadopt : adopt (.standIn t) d.types = (.ok (.standIn u), s) := Action.bind_ok h
  have hall : [Operand.standIn t].mapM adopt d.types = (.ok [.standIn u], s) := by
    rw [List.mapM_cons, Action.bind_ok hadopt]
    rfl
  exact congrArg (fun p => (p.1, { d with types := p.2 })) hall

end Single

/-- Of the two spellings of a union only one is an object to a lookup, and what is cached for it stands for the other as
    well; and what has a type of values that are no keys is not dispatched, though a lookup selects for it. -/
theorem cache_stands_for_other_spelling :
    let s := Session.initial [] false false
    let f : Declaration := ⟨"f", [some (.named .object)], none, false, none, 0⟩
    let spelled : List Operand := [.standIn (.alternatives [.named .int, .named .text])]
    let union : List Operand := [.standIn (.union [.named .int, .named .text])]
    let list : List Operand := [.standIn (.literal [.list [.int 1]])]
    let d₁ := (initial s false).of [.register f]
    let d₂ := (initial s false).of [.register f, .dispatch spelled]
    (dispatch union d₂).1 = .ok (.name "f") ∧ (lookupFor union d₂).1 = .error .wrongType ∧
      (dispatch list d₁).1 = .error .wrongType ∧ (lookupFor list d₁).1 = .ok (.named "f") := by
  intro s f spelled union list d₁ d₂
  let ts : List TypeExpr := [.named .int, .named .text]
  let store : TypeStore := { TypeStore.empty with unions := ⟨[((.union, ts), .union ts)]⟩ }
  have hflattened (spelling : List TypeExpr → TypeExpr) : flattened spelling ts = spelling ts := by
    simp [flattened, distinct, members, same, ts]
  have hsame : sameAll ts ts = true := by simp [sameAll, same, ts]
  have hspelled : TypeStore.type (.alternatives ts) .empty = (.ok (.alternatives ts), .empty) := by
    show (Except.ok (flattened .alternatives ts), _) = _
    rw [hflattened]
  have hunion : TypeStore.type (.union ts) .empty = (.ok (.union ts), store) := by
    show (Except.ok (flattened .union ts),
      { TypeStore.empty with unions := ⟨[((.union, ts), flattened .union ts)]⟩ }) = _
    rw [hflattened]
  have hunionAgain : TypeStore.type (.union ts) store = (.ok (.union ts), store) := by
    have hfind : (store.recent .union).find? (fun k => k.1 = .union && sameAll k.2 ts) = some (.union ts) := by
      simp [recent, Recent.find?, store, hsame]
    refine (remembered_found hfind).trans ?_
    simp [recent, Recent.touch, withRecent, store, hsame]
  -- The spelling that is an object is dispatched and cached.
  let cached : Dispatcher := { d₁ with cache := [([.alternatives ts], .named "f")] }
  have hd₂ : d₂ = cached := by
    have hselect : selectMade [.alternatives ts] d₁ = (.ok (.named "f"), cached) :=
      Action.bind_ok (types_single (d := d₁) hspelled)
    have hdispatch : dispatch spelled d₁ = (.ok (.name "f"), cached) := by
      rw [dispatch, Action.bind_ok (adopt_single (d := d₁) hspelled), Dispatch.redirectLimit, Dispatch.run]
      exact Action.bind_ok hselect
    exact congrArg Prod.snd hdispatch
  -- Both spellings are one key.
  let made : Dispatcher := { cached with types := store }
  have hadopt : onTypes (union.mapM adopt) cached = (.ok union, made) := adopt_single (d := cached) hunion
  have htypes : onTypes (TypeStore.types [.union ts]) made = (.ok [.union ts], made) :=
    types_single (d := made) hunionAgain
  have hcached : made.cached? [.union ts] = some (.named "f") := by
    simp [cached?, made, cached, sameAll, same, within, anySame, ts]
  have hselect : selectMade [.union ts] made = (.ok (.named "f"), made) := by
    refine Action.bind_ok htypes |>.trans ?_
    rw [select, Action.bind_ok (Action.get_apply made)]
    simp only [hcached]
    rfl
  have hunionDispatch : (dispatch union cached).1 = .ok (.name "f") := by
    rw [dispatch, Action.bind_ok hadopt, Dispatch.redirectLimit, Dispatch.run]
    exact congrArg Prod.fst (Action.bind_ok hselect)
  have hunionLookup : (lookupFor union cached).1 = .error .wrongType := by
    rw [lookupFor, Action.bind_ok hadopt]
    exact congrArg Prod.fst (Action.bind_ok htypes)
  refine ⟨hd₂ ▸ hunionDispatch, hd₂ ▸ hunionLookup, ?_, ?_⟩
  · rw [dispatch, Action.bind_ok (adopt_single (d := d₁) rfl), Dispatch.redirectLimit, Dispatch.run]
    rfl
  · rfl

end Dispatcher

end Dataflow
