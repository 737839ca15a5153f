import Dataflow.Proofs.Effects
import Dataflow.Proofs.FreshCache
import Dataflow.Proofs.Joining

/-! Types of operators that are placed on a device. The type that is made of one is found for like the one that was
    written. -/

namespace Dataflow

open TypeExpr

/-! ### Made types -/

namespace TypeStore

variable {α β : Type} {P : α → Prop} {Q : β → Prop}

/-- From a coherent store, the action ends in one and answers with something that has a property. -/
def Makes (P : α → Prop) (a : Action TypeStore α) : Prop :=
  ∀ s : TypeStore, s.Coherent → ∃ x t, a s = (.ok x, t) ∧ t.Coherent ∧ P x

namespace Makes

theorem pure {x : α} (hx : P x) : Makes P (pure x : Action TypeStore α) := fun s hs => ⟨x, s, rfl, hs, hx⟩

theorem bind {a : Action TypeStore α} {f : α → Action TypeStore β} (ha : Makes P a) (hf : ∀ x, P x → Makes Q (f x)) :
    Makes Q (a >>= f) := by
  intro s hs
  obtain ⟨x, t, has, ht, hx⟩ := ha s hs
  rw [Action.bind_ok has]
  exact hf x hx t ht

theorem of_gives {a : Action TypeStore α} (ha : Gives P a) (hok : ∀ s, ∃ x t, a s = (.ok x, t)) : Makes P a := by
  intro s hs
  obtain ⟨x, t, has⟩ := hok s
  obtain ⟨ht, hx⟩ := ha s hs
  rw [has] at ht hx
  exact ⟨x, t, has, ht, hx x rfl⟩

end Makes

section Remembered

variable {κ : Type} {part : TypeStore → Recent κ TypeExpr} {set : Recent κ TypeExpr → TypeStore → TypeStore}

theorem remembered_ok (isKey : κ → Bool) (k : κ) (u : TypeExpr) (s : TypeStore) :
    ∃ x t, remembered part set isKey k (.ok u) s = (.ok x, t) := by
  cases hfind : (part s).find? isKey with
  | some t => exact ⟨_, _, remembered_found hfind⟩
  | none => exact ⟨_, _, remembered_new hfind⟩

end Remembered

theorem eq_of_sameLiterals_text {name : String} {vs : List Value} (h : sameLiterals [.text name] vs = true) :
    vs = [.text name] := by
  cases vs with
  | nil => cases h
  | cons v vs =>
    rw [sameLiterals, Bool.and_eq_true] at h
    cases vs with
    | cons w vs => cases h.2
    | nil => cases v <;> simp_all [sameLiteral, Value.sameKey, Value.sameObject, Value.same, Value.number?]

theorem makes_literal_text (name : String) : Makes (· = .literal [.text name]) (literal [.text name]) := by
  have hremembered : literal [.text name] =
      remembered literals withLiterals (sameLiterals [.text name]) [.text name] (.ok (.literal [.text name])) := rfl
  rw [hremembered]
  refine .of_gives ?_ fun s => remembered_ok _ _ _ s
  refine gives_remembered (fun s hs => hs.literal) (fun s hs r hr => ⟨hs.generic, hr⟩) (fun t ht => ?_)
    (fun ws t ht hws => ?_) fun t ht => (Except.ok.inj ht).symm
  · exact ⟨(Except.ok.inj ht).symm, rfl⟩
  · obtain rfl := eq_of_sameLiterals_text hws
    exact ht.1

/-- What is made of the type of a placed operator is equal to it. -/
theorem makes_placed (c : Class) (name : String) :
    Makes (fun t => t.same (Table.placedType c name) = true) (type (Table.placedType c name)) := by
  let params : List TypeExpr := [.named c, .literal [.text name]]
  have hdevice : Makes (· = [.literal [.text name]]) (types [.literal [.text name]]) := by
    refine (makes_literal_text name).bind fun u hu => ?_
    subst hu
    exact Makes.pure rfl
  have htypes : Makes (· = params) (types params) := by
    refine hdevice.bind fun us hus => ?_
    subst hus
    exact Makes.pure rfl
  have happly : apply .placed params = make (.generic .placed) params (.ok (.apply .placed params)) := rfl
  refine htypes.bind fun ts hts => ?_
  subst hts
  rw [happly]
  refine .of_gives (gives_make (fun t ht => ?_) fun ps t ht hps => ?_) fun s => remembered_ok _ _ _ s
  · obtain rfl := Except.ok.inj ht
    have hself : sameAll params params = true := sameAll_iff.mpr (List.forall₂_same.mpr fun t _ => same_self t)
    refine ⟨?_, fun d hd => by rw [← Maker.generic.inj hd]⟩
    rw [Table.placedType, same, Bool.and_eq_true]
    exact ⟨decide_eq_true rfl, hself⟩
  · obtain ⟨rfl, -⟩ := ht .placed rfl
    rw [Table.placedType, same, Bool.and_eq_true]
    exact ⟨decide_eq_true rfl, hps⟩

end TypeStore

/-! ### Types that are equal to that of a placed operator -/

namespace TypeExpr

variable {c : Class} {name : String} {t u : TypeExpr}

theorem alike_placed (h : t.same (Table.placedType c name) = true) : Alike t (Table.placedType c name) :=
  alike_of_same h (isKey_of_same h) rfl rfl

theorem lookAlike_placed (h : t.same (Table.placedType c name) = true) : LookAlike [t] [Table.placedType c name] :=
  .cons (alike_placed h).looksLike .nil

/-- What is equal to a type that is made for a placed operator looks like it. -/
theorem lookAlike_of_same_placed (ht : t.same (Table.placedType c name) = true) (h : u.same t = true) :
    LookAlike [u] [t] := by
  have hclear : t.Clear := (alike_placed ht).clear
  have halike : Alike u t := alike_of_same h ((isKey_of_same h).trans hclear.2) hclear.2 hclear.1
  exact .cons halike.looksLike .nil

theorem name_placed (h : t.same (Table.placedType c name) = true) : t.name = (Table.placedType c name).name := by
  cases alike_placed h
  rfl

end TypeExpr

/-! ### Answers that say the same -/

/-- The same outcome, or failures that name the same types: the message of a lookup gives the names alone. -/
def SameAnswer {α : Type} (o o' : Outcome α) : Prop :=
  o = o' ∨ ∃ ts us n, names ts = names us ∧ o = .error (.undispatched ts n) ∧ o' = .error (.undispatched us n)

namespace SameAnswer

variable {α : Type}

theorem refl (o : Outcome α) : SameAnswer o o := Or.inl rfl

/-- Failures that say the same have one message. -/
theorem message {e e' : Failure} (h : SameAnswer (.error e : Outcome α) (.error e')) : e.message? = e'.message? := by
  rcases h with h | ⟨ts, us, n, hnames, he, he'⟩
  · rw [Except.error.inj h]
  · cases he
    cases he'
    cases n <;> simp only [Failure.message?, hnames]

end SameAnswer

namespace Table

theorem lookup_sameAnswer {table : Table} {ts us : List TypeExpr} (htable : table.Undecided ts us)
    (h : LookAlike ts us) (hnames : names ts = names us) : SameAnswer (table.lookup ts) (table.lookup us) := by
  rw [lookup, lookup, accepting_lookAlike htable h]
  cases accepting us table with
  | error e => exact .refl _
  | ok es =>
    rw [Outcome.ok_bind, Outcome.ok_bind]
    split
    · exact .refl _
    · exact Or.inr ⟨ts, us, _, hnames, rfl, rfl⟩

end Table

end Dataflow
