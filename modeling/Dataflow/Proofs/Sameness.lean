import Dataflow.Typing.Store

/-! Values and types that are the same without being equal: numbers of different kinds, the two zeros, and the literal
    types of such values. What a key goes by when it is compared is written down as its mark, so that being the same key
    is having the same mark. -/

namespace Dataflow

/-! ### Keys -/

/-- What a key goes by in comparisons. A number goes by its place, an end of the line or a point on it, and what equals
    nothing else goes by itself. -/
inductive Mark where
  | nothing
  | number (place : Bool ⊕ Dyadic)
  | text (s : String)
  | bytes (bs : List UInt8)
  | list (items : List Mark)
  | tuple (items : List Mark)
  | itself (v : Value)

namespace Floating

/-- The place of a number; not-a-number has none. -/
def place? : Floating → Option (Bool ⊕ Dyadic)
  | .nan => none
  | .infinite s => some (.inl s)
  | .negativeZero => some (.inr .zero)
  | .finite d => some (.inr d)

theorem place?_ofInt (n : Int) : (ofInt n).place? = some (.inr (.ofInt n)) := rfl

theorem eq_iff {x y : Floating} : x.eq y = true ↔ ∃ p, x.place? = some p ∧ y.place? = some p := by
  cases x <;> cases y <;> simp [eq, lt, value?, place?]
  case infinite.infinite s t => cases s <;> cases t <;> simp
  all_goals grind

/-- A number equals itself unless it is nowhere. -/
theorem eq_self_iff {x : Floating} : x.eq x = true ↔ x.place? ≠ none := by
  rw [eq_iff, Option.ne_none_iff_exists']
  simp

end Floating

namespace Value

/-- The mark of a value that is a number. -/
def numberMark (v : Value) (x : Floating) : Mark :=
  match x.place? with
  | some p => .number p
  | none => .itself v

mutual

def mark : Value → Mark
  | .nothing => .nothing
  | .text s => .text s
  | .bytes bs => .bytes bs
  | .list vs => .list (marks vs)
  | .tuple vs => .tuple (marks vs)
  | .tensor t => .itself (.tensor t)
  | .flag b => numberMark (.flag b) (.ofInt (if b then 1 else 0))
  | .int n => numberMark (.int n) (.ofInt n)
  | .real x => numberMark (.real x) x
  | .scalar d e => numberMark (.scalar d e) e.toFloating

def marks : List Value → List Mark
  | [] => []
  | v :: vs => mark v :: marks vs

end

/-- Two numbers have one mark if they are equal, or if they have no place and are one and the same. -/
theorem numberMark_eq_iff {a b : Value} {x y : Floating} :
    numberMark a x = numberMark b y ↔ x.eq y = true ∨ x.place? = none ∧ y.place? = none ∧ a = b := by
  rw [Floating.eq_iff, numberMark, numberMark]
  cases x.place? <;> cases y.place? <;> simp [eq_comm]

/-- A number and what is no number have marks of different kinds, as have any two of the others. -/
theorem sameKey_iff_of_not_sequences {a b : Value} (hlist : ∀ vs ws, a = .list vs → b ≠ .list ws)
    (htuple : ∀ vs ws, a = .tuple vs → b ≠ .tuple ws) : a.sameKey b = true ↔ a.mark = b.mark := by
  cases a <;> cases b <;>
    simp only [sameKey, same, sameObject, mark, number?, numberMark_eq_iff, Bool.or_eq_true, Bool.or_false,
      Bool.false_or, Bool.false_eq_true]
  case list.list vs ws => exact absurd rfl (hlist vs ws rfl)
  case tuple.tuple vs ws => exact absurd rfl (htuple vs ws rfl)
  case real.real | scalar.scalar => grind [Floating.eq_self_iff]
  all_goals grind [numberMark, Floating.eq_iff, Floating.place?_ofInt]

mutual

theorem sameKey_iff : ∀ a b : Value, a.sameKey b = true ↔ a.mark = b.mark
  | .list as, b => by
    cases b with
    | list bs =>
      rw [sameKey, mark, mark, Mark.list.injEq]
      exact sameKeys_iff as bs
    | _ => exact sameKey_iff_of_not_sequences nofun nofun
  | .tuple as, b => by
    cases b with
    | tuple bs =>
      rw [sameKey, mark, mark, Mark.tuple.injEq]
      exact sameKeys_iff as bs
    | _ => exact sameKey_iff_of_not_sequences nofun nofun
  | .nothing, _ | .flag _, _ | .int _, _ | .real _, _ | .text _, _ | .bytes _, _ | .scalar _ _, _ | .tensor _, _ =>
    sameKey_iff_of_not_sequences nofun nofun

theorem sameKeys_iff : ∀ as bs : List Value, sameKeys as bs = true ↔ marks as = marks bs
  | [], [] => by simp [sameKeys]
  | [], b :: bs => by simp [sameKeys, marks]
  | a :: as, [] => by simp [sameKeys, marks]
  | a :: as, b :: bs => by
    rw [sameKeys, Bool.and_eq_true, sameKey_iff a b, sameKeys_iff as bs, marks, marks, List.cons.injEq]

end

end Value

/-! ### Literal values -/

namespace TypeExpr

/-- The kind of a literal value: the element type of a scalar, or else the class. -/
def kind : Value → DType ⊕ Option Class
  | .scalar d _ => .inl d
  | v => .inr (Class.ofValue? v)

theorem sameKind_iff {a b : Value} : sameKind a b = true ↔ kind a = kind b := by
  cases a <;> cases b <;> simp [sameKind, kind]

theorem ofValue?_eq {a b : Value} (h : kind a = kind b) : Class.ofValue? a = Class.ofValue? b := by
  cases a with
  | scalar d x =>
    cases b with
    | scalar e y =>
      obtain rfl := Sum.inl.inj h
      cases d <;> rfl
    | _ => cases h
  | _ =>
    cases b with
    | scalar e y => cases h
    | _ => exact Sum.inr.inj h

theorem sameLiteral_iff {a b : Value} : sameLiteral a b = true ↔ a.mark = b.mark ∧ kind a = kind b := by
  rw [sameLiteral, Bool.and_eq_true, sameKind_iff, Value.sameKey_iff]

variable {a b c : Value} {us vs ws : List Value}

theorem sameLiteral_self (a : Value) : sameLiteral a a = true := sameLiteral_iff.mpr ⟨rfl, rfl⟩

theorem sameLiteral_symm (h : sameLiteral a b = true) : sameLiteral b a = true := by
  obtain ⟨hmark, hkind⟩ := sameLiteral_iff.mp h
  exact sameLiteral_iff.mpr ⟨hmark.symm, hkind.symm⟩

theorem sameLiteral_trans (h : sameLiteral a b = true) (h' : sameLiteral b c = true) : sameLiteral a c = true := by
  obtain ⟨hmark, hkind⟩ := sameLiteral_iff.mp h
  obtain ⟨hmark', hkind'⟩ := sameLiteral_iff.mp h'
  exact sameLiteral_iff.mpr ⟨hmark.trans hmark', hkind.trans hkind'⟩

/-- Literal types with the same members. -/
abbrev Members (vs ws : List Value) : Prop := sameMembers sameLiteral vs ws = true

theorem members_iff : Members vs ws ↔
    (∀ v ∈ vs, ∃ w ∈ ws, sameLiteral v w = true) ∧ ∀ w ∈ ws, ∃ v ∈ vs, sameLiteral w v = true := by
  simp [Members, sameMembers]

theorem Members.self (vs : List Value) : Members vs vs :=
  members_iff.mpr ⟨fun v hv => ⟨v, hv, sameLiteral_self v⟩, fun v hv => ⟨v, hv, sameLiteral_self v⟩⟩

theorem Members.symm (h : Members vs ws) : Members ws vs := members_iff.mpr (members_iff.mp h).symm

theorem Members.trans (h : Members us vs) (h' : Members vs ws) : Members us ws := by
  obtain ⟨huv, hvu⟩ := members_iff.mp h
  obtain ⟨hvw, hwv⟩ := members_iff.mp h'
  refine members_iff.mpr ⟨fun u hu => ?_, fun w hw => ?_⟩
  · obtain ⟨v, hv, hsame⟩ := huv u hu
    obtain ⟨w, hw, hsame'⟩ := hvw v hv
    exact ⟨w, hw, sameLiteral_trans hsame hsame'⟩
  · obtain ⟨v, hv, hsame⟩ := hwv w hw
    obtain ⟨u, hu, hsame'⟩ := hvu v hv
    exact ⟨u, hu, sameLiteral_trans hsame hsame'⟩

/-- Literal types with the same members compare alike with every other. -/
theorem Members.sameMembers_eq (h : Members vs ws) (us : List Value) :
    sameMembers sameLiteral vs us = sameMembers sameLiteral ws us :=
  Bool.eq_iff_iff.mpr ⟨h.symm.trans, h.trans⟩

end TypeExpr

end Dataflow
