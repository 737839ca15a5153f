import Dataflow.Proofs.Lookup
import Dataflow.Proofs.ToldApart

/-! More specific types. Without unions, and with literal types of one value each, a pattern matches a type exactly if the
    type is equal to it or more specific: a value of its class, a subclass, or the same generic class with arguments that
    are more specific one by one. This is an order up to equality, and signatures respect it. -/

namespace Dataflow

namespace Class

variable {c d e : Class}

theorem mem_ancestors_trans : ∀ {c : Class}, d ∈ c.ancestors → e ∈ d.ancestors → e ∈ c.ancestors
  | .derived n b, hd, he => by
    rw [ancestors] at hd ⊢
    rcases List.mem_cons.mp hd with rfl | hd
    · exact List.mem_cons_of_mem _ he
    · exact List.mem_cons_of_mem _ (mem_ancestors_trans hd he)
  | .object, hd, _ => by cases hd
  | .int, hd, he | .bool, hd, he | .text, hd, he | .real, hd, he | .tuple, hd, he | .nothing, hd, he
  | .dispatchable, hd, he | .operator, hd, he | .constant, hd, he | .empty, hd, he | .index, hd, he | .split, hd, he
  | .tie, hd, he | .stack, hd, he | .placed, hd, he | .array, hd, he | .tensor, hd, he | .hostTensor, hd, he
  | .torchTensor, hd, he | .tupleOf, hd, he | .unannotated, hd, he | .declared _, hd, he => by
    simp only [ancestors, List.mem_cons, List.not_mem_nil, or_false] at hd
    rcases hd with rfl | rfl | rfl | rfl <;> simp_all [ancestors]

theorem isSubclass_trans (h : c.isSubclass d = true) (h' : d.isSubclass e = true) : c.isSubclass e = true := by
  simp only [isSubclass, Bool.or_eq_true, decide_eq_true_eq, List.contains_iff_mem] at h h' ⊢
  rcases h with rfl | h
  · exact h'
  · rcases h' with rfl | h'
    · exact Or.inr h
    · exact Or.inr (mem_ancestors_trans h h')

end Class

namespace TypeExpr

/-! ### The types in question -/

/-- Types made of classes, of literal types of one value that can be a key, and of generic classes. A generic class stands
    alone or is applied to the number of arguments that belongs to it. -/
inductive Regular (arity : Class → Nat) : TypeExpr → Prop
  | named (c : Class) : Regular arity (.named c)
  | literal (v : Value) (hv : v.isKey = true) : Regular arity (.literal [v])
  | apply (c : Class) (ts : List TypeExpr) (hlength : ts = [] ∨ ts.length = arity c.origin)
      (hts : ∀ t ∈ ts, Regular arity t) : Regular arity (.apply c ts)

mutual

/-- The first type is equal to the second one or more specific. -/
inductive Refines : TypeExpr → TypeExpr → Prop
  | value {v w : Value} (h : sameLiteral w v = true) : Refines (.literal [v]) (.literal [w])
  | member {v : Value} {p : TypeExpr} {c : Class} (hp : p.origin = .ofClass c) (h : holdsLiteral (.ofClass c) v = true) :
      Refines (.literal [v]) p
  | subclass {a p : TypeExpr} {c d : Class} (ha : a.origin = .ofClass d) (hp : p.origin = .ofClass c)
      (hbare : p.arguments = []) (h : d.isSubclass c = true) : Refines a p
  | applied {a p : TypeExpr} {c : Class} (ha : a.origin = .ofClass c) (hp : p.origin = .ofClass c)
      (hne : p.arguments ≠ []) (h : AllRefine a.arguments p.arguments) : Refines a p

inductive AllRefine : List TypeExpr → List TypeExpr → Prop
  | nil : AllRefine [] []
  | cons {a p : TypeExpr} {as ps : List TypeExpr} (h : Refines a p) (hs : AllRefine as ps) :
      AllRefine (a :: as) (p :: ps)

end

variable {arity : Class → Nat} {a p q t : TypeExpr} {as ps qs ts : List TypeExpr}

theorem AllRefine.length_eq : ∀ {as ps : List TypeExpr}, AllRefine as ps → as.length = ps.length
  | _, _, .nil => rfl
  | _, _, .cons _ hs => congrArg (· + 1) hs.length_eq

/-! ### An order up to equality -/

theorem holdsLiteral_mono {v : Value} {c d : Class} (h : holdsLiteral (.ofClass d) v = true)
    (hcd : d.isSubclass c = true) : holdsLiteral (.ofClass c) v = true := by
  unfold holdsLiteral at h ⊢
  cases hv : Class.ofValue? v with
  | some e =>
    rw [hv] at h
    exact Class.isSubclass_trans h hcd
  | none =>
    rw [hv] at h
    obtain rfl : d = .object := of_decide_eq_true h
    exact decide_eq_true (Class.eq_of_isSubclass (Class.isSubclass_object c) hcd)

theorem not_refines_literal {w : Value} (ha : a.Ordinary) : ¬Refines a (.literal [w]) := by
  intro h
  cases h with
  | value => exact not_ordinary_literal ha
  | member hp | subclass _ hp | applied _ hp => cases hp

mutual

theorem Refines.trans : ∀ {a q p : TypeExpr}, Refines a q → Refines q p → Refines a p
  | _, _, _, h, .value hpq => by
    cases h with
    | value h => exact .value (sameLiteral_trans hpq h)
    | member hq | subclass _ hq | applied _ hq => cases hq
  | _, _, _, h, .member hp hpq => by
    cases h with
    | value h =>
      have hkind := ofValue?_eq (sameLiteral_iff.mp h).2
      exact .member hp (holdsLiteral_eq hkind _ ▸ hpq)
    | member hq | subclass _ hq | applied _ hq => cases hq
  | _, _, _, h, .subclass hq hp hbare hpq => by
    cases h with
    | value h => cases hq
    | member hq' h =>
      cases hq.symm.trans hq'
      exact .member hp (holdsLiteral_mono h hpq)
    | subclass ha hq' _ h =>
      cases hq.symm.trans hq'
      exact .subclass ha hp hbare (Class.isSubclass_trans h hpq)
    | applied ha hq' _ _ =>
      cases hq.symm.trans hq'
      exact .subclass ha hp hbare hpq
  | _, _, _, h, .applied hq hp hne hpq => by
    cases h with
    | value h => cases hq
    | member hq' h =>
      cases hq.symm.trans hq'
      exact .member hp h
    | subclass ha hq' hbare h =>
      rw [hbare] at hpq
      exact absurd (List.eq_nil_of_length_eq_zero hpq.length_eq.symm) hne
    | applied ha hq' _ h =>
      cases hq.symm.trans hq'
      exact .applied ha hp hne (h.trans hpq)

theorem AllRefine.trans : ∀ {as qs ps : List TypeExpr}, AllRefine as qs → AllRefine qs ps → AllRefine as ps
  | _, _, _, .nil, .nil => .nil
  | _, _, _, .cons h hs, .cons h' hs' => .cons (h.trans h') (hs.trans hs')

end

/-- A pattern matches a type exactly if the type refines it, and says so. -/
def Answers (p a : TypeExpr) : Prop :=
  Refines a p ∧ matchPattern p a = .ok (some p) ∨ ¬Refines a p ∧ matchPattern p a = .ok none

theorem answers_of_iff {b : Bool} (hrefines : Refines a p ↔ b = true)
    (hmatch : matchPattern p a = .ok (if b then some p else none)) : Answers p a := by
  cases b with
  | true => exact Or.inl ⟨hrefines.mpr rfl, hmatch⟩
  | false => exact Or.inr ⟨fun h => Bool.false_ne_true (hrefines.mp h), hmatch⟩

theorem Regular.origin (h : Regular arity t) : (∃ v, t = .literal [v]) ∨ ∃ c, t.origin = .ofClass c := by
  cases h with
  | named c => exact Or.inr ⟨_, rfl⟩
  | literal v hv => exact Or.inl ⟨v, rfl⟩
  | apply c ts hlength hts => exact Or.inr ⟨_, rfl⟩

theorem ordinary_of_class {c : Class} (h : t.origin = .ofClass c) : t.Ordinary := by
  simp [Ordinary, h]

theorem answers_literal {v : Value} (hv : v.isKey = true) (ha : Regular arity a) : Answers (.literal [v]) a := by
  rcases ha.origin with ⟨w, rfl⟩ | ⟨c, hc⟩
  · have hw : w.isKey = true := by
      cases ha with
      | literal _ hw => exact hw
    have hkeys : ([v] ++ [w]).all Value.isKey = true := by simp [hv, hw]
    have hsame : sameMembers sameLiteral [v] [w] = sameLiteral v w := by
      refine Bool.eq_iff_iff.mpr ?_
      simp only [sameMembers, List.all_cons, List.all_nil, List.any_cons, List.any_nil, Bool.or_false, Bool.and_true,
        Bool.and_eq_true]
      exact ⟨fun h => h.1, fun h => ⟨h, sameLiteral_symm h⟩⟩
    refine answers_of_iff (b := sameLiteral v w) ⟨fun h => ?_, .value⟩ ?_
    · cases h with
      | value h => exact h
      | member hp | subclass _ hp | applied _ hp => cases hp
    · rw [matchPattern, equalLiterals, if_pos hkeys, hsame]
      rfl
  · have hordinary := ordinary_of_class hc
    refine Or.inr ⟨not_refines_literal hordinary, ?_⟩
    cases a with
    | literal vs => exact absurd hordinary not_ordinary_literal
    | _ => rfl

/-- A pattern of a class matches the values of the class. -/
theorem answers_member {c : Class} (hp : p.origin = .ofClass c) (v : Value) : Answers p (.literal [v]) := by
  refine answers_of_iff (b := holdsLiteral (.ofClass c) v) ⟨fun h => ?_, .member hp⟩ ?_
  · cases h with
    | value => cases hp
    | member hp' h =>
      cases hp.symm.trans hp'
      exact h
    | subclass ha | applied ha => cases ha
  · rw [matchPattern_of_ordinary (ordinary_of_class hp), matchHead, hp]
    cases holdsLiteral (.ofClass c) v <;> rfl

theorem matchHead_class {c d : Class} (hp : p.origin = .ofClass c) (ha : a.origin = .ofClass d) :
    matchHead p a = .ok (if d.isSubclass c then
      if p.arguments.isEmpty then some false else if d ≠ c ∨ a.arguments.isEmpty then none else some true
      else none) := by
  have hsub : isSubOrigin (.ofClass d) (.ofClass c) = .ok (d.isSubclass c) := rfl
  have hclass : Origin.ofClass d ≠ .ofClass c ↔ d ≠ c := not_congr ⟨Origin.ofClass.inj, congrArg _⟩
  rw [matchHead_of_ordinary _ (ordinary_of_class ha), hp, ha, hsub, Outcome.ok_bind]
  simp only [hclass]
  cases d.isSubclass c with
  | false => rfl
  | true =>
    by_cases hbare : p.arguments.isEmpty = true
    · simp only [hbare]
      rfl
    by_cases hother : d ≠ c ∨ a.arguments.isEmpty = true
    · simp only [hbare, if_pos hother]
      rfl
    · simp only [hbare, if_neg hother]
      rfl

/-- Patterns match arguments one by one exactly if these refine them. -/
def AnswersAll (ps as : List TypeExpr) : Prop :=
  AllRefine as ps ∧ matchArguments ps as = .ok true ∨ ¬AllRefine as ps ∧ matchArguments ps as = .ok false

theorem answersAll_of_length (hlength : ps.length = as.length) (h : ∀ p ∈ ps, ∀ a ∈ as, Answers p a) :
    AnswersAll ps as := by
  induction ps generalizing as with
  | nil =>
    obtain rfl := List.eq_nil_of_length_eq_zero hlength.symm
    exact Or.inl ⟨.nil, rfl⟩
  | cons p ps ih =>
    obtain ⟨a, as, rfl⟩ := List.exists_cons_of_length_eq_add_one hlength.symm
    have hrest := ih (Nat.succ.inj hlength) fun q hq b hb =>
      h q (List.mem_cons_of_mem _ hq) b (List.mem_cons_of_mem _ hb)
    rcases h p List.mem_cons_self a List.mem_cons_self with ⟨hrefines, hmatch⟩ | ⟨hrefines, hmatch⟩
    · rw [AnswersAll, matchArguments, hmatch]
      rcases hrest with ⟨hall, hrest⟩ | ⟨hall, hrest⟩
      · exact Or.inl ⟨.cons hrefines hall, hrest⟩
      · refine Or.inr ⟨fun hcons => ?_, hrest⟩
        cases hcons with
        | cons _ hs => exact hall hs
    · rw [AnswersAll, matchArguments, hmatch]
      refine Or.inr ⟨fun hcons => ?_, rfl⟩
      cases hcons with
      | cons hp _ => exact hrefines hp

/-- Between classes a pattern goes by the subclasses, or, where it has arguments, by the arguments. -/
theorem answers_class {c d : Class} (hp : p.origin = .ofClass c) (ha : a.origin = .ofClass d)
    (harguments : d = c → p.arguments ≠ [] → a.arguments ≠ [] → AnswersAll p.arguments a.arguments) : Answers p a := by
  have hpattern := matchPattern_of_ordinary (ordinary_of_class hp) a
  rw [matchHead_class hp ha, Outcome.ok_bind] at hpattern
  have hsubclass (h : Refines a p) : d.isSubclass c = true := by
    cases h with
    | value | member => cases ha
    | subclass ha' hp' _ h =>
      cases ha.symm.trans ha'
      cases hp.symm.trans hp'
      exact h
    | applied ha' hp' =>
      cases ha.symm.trans ha'
      cases hp.symm.trans hp'
      exact Class.isSubclass_self _
  have happlied (hne : p.arguments ≠ []) (h : Refines a p) : d = c ∧ AllRefine a.arguments p.arguments := by
    cases h with
    | value | member => cases ha
    | subclass _ _ hbare => exact absurd hbare hne
    | applied ha' hp' _ h =>
      cases ha.symm.trans ha'
      cases hp.symm.trans hp'
      exact ⟨rfl, h⟩
  by_cases hsub : d.isSubclass c = true
  · rw [if_pos hsub] at hpattern
    by_cases hbare : p.arguments = []
    · rw [if_pos (List.isEmpty_iff.mpr hbare)] at hpattern
      exact Or.inl ⟨.subclass ha hp hbare hsub, hpattern⟩
    · rw [if_neg fun h => hbare (List.isEmpty_iff.mp h)] at hpattern
      by_cases hother : d ≠ c ∨ a.arguments.isEmpty = true
      · rw [if_pos hother] at hpattern
        refine Or.inr ⟨fun h => ?_, hpattern⟩
        obtain ⟨rfl, hall⟩ := happlied hbare h
        have hempty := List.isEmpty_iff.mp (hother.resolve_left fun hne => hne rfl)
        rw [hempty] at hall
        exact hbare (List.eq_nil_of_length_eq_zero hall.length_eq.symm)
      · rw [if_neg hother] at hpattern
        obtain ⟨hclass, hne⟩ := not_or.mp hother
        obtain rfl := not_not.mp hclass
        rcases harguments rfl hbare fun h => hne (List.isEmpty_iff.mpr h) with ⟨hall, hmatch⟩ | ⟨hall, hmatch⟩
        · exact Or.inl ⟨.applied ha hp hbare hall, by rw [hpattern, hmatch]; rfl⟩
        · exact Or.inr ⟨fun h => hall (happlied hbare h).2, by rw [hpattern, hmatch]; rfl⟩
  · rw [if_neg hsub] at hpattern
    exact Or.inr ⟨fun h => hsub (hsubclass h), hpattern⟩

theorem Regular.arguments (h : Regular arity t) {c : Class} (hc : t.origin = .ofClass c) (hne : t.arguments ≠ []) :
    t.arguments.length = arity c ∧ ∀ x ∈ t.arguments, Regular arity x := by
  cases h with
  | named => exact absurd rfl hne
  | literal => cases hc
  | apply d ts hlength hts =>
    cases hc
    exact ⟨hlength.resolve_left hne, hts⟩

/-- On regular types a pattern matches exactly what refines it, and nothing is a fault. -/
theorem Regular.answers (hp : Regular arity p) (ha : Regular arity a) : Answers p a := by
  induction hp generalizing a with
  | literal v hv => exact answers_literal hv ha
  | named c =>
    rcases ha.origin with ⟨v, rfl⟩ | ⟨d, hd⟩
    · exact answers_member rfl v
    · exact answers_class rfl hd fun _ hne => absurd rfl hne
  | apply c ps hlength hps ih =>
    rcases ha.origin with ⟨v, rfl⟩ | ⟨d, hd⟩
    · exact answers_member rfl v
    · refine answers_class rfl hd fun hclass hne hne' => ?_
      obtain ⟨hargs, has⟩ := ha.arguments hd hne'
      have hps : ps.length = arity c.origin := hlength.resolve_left hne
      exact answersAll_of_length (hps.trans (hclass ▸ hargs.symm)) fun q hq b hb => ih q hq (has b hb)

/-- The pattern matches the type. -/
def Matches (p a : TypeExpr) : Prop := ∃ m, matchPattern p a = .ok (some m)

theorem Regular.refines_iff (hp : Regular arity p) (ha : Regular arity a) : Refines a p ↔ Matches p a := by
  rcases hp.answers ha with ⟨hrefines, hmatch⟩ | ⟨hrefines, hmatch⟩
  · exact iff_of_true hrefines ⟨p, hmatch⟩
  · refine iff_of_false hrefines ?_
    rintro ⟨m, hm⟩
    rw [hmatch] at hm
    cases hm

end TypeExpr

/-! ### Signatures -/

namespace Signature

open TypeExpr

variable {arity : Class → Nat} {ts us : List TypeExpr}

/-- A signature of regular patterns, of which a parameter can have several. -/
structure Regular (arity : Class → Nat) (s : Signature) : Prop where
  args : ∀ ps ∈ s.args, ∀ p ∈ ps, p.Regular arity
  rest : ∀ ps ∈ s.rest, ∀ p ∈ ps, p.Regular arity

/-- A regular type that refines another one. -/
def Narrows (arity : Class → Nat) (t u : TypeExpr) : Prop := t.Regular arity ∧ u.Regular arity ∧ Refines u t

theorem Narrows.fits {ps : List TypeExpr} {t u : TypeExpr} (h : Narrows arity t u)
    (hps : ∀ p ∈ ps, p.Regular arity) (hfits : Fits ps t) : Fits ps u := by
  obtain ⟨ht, hu, hrefines⟩ := h
  obtain ⟨p, hp, hmatch⟩ := hfits
  have hnarrower : Refines u p := hrefines.trans (((hps p hp).refines_iff ht).mpr hmatch)
  exact ⟨p, hp, ((hps p hp).refines_iff hu).mp hnarrower⟩

theorem forall₂_fits {pss : List (List TypeExpr)} (hpss : ∀ ps ∈ pss, ∀ p ∈ ps, p.Regular arity)
    (h : List.Forall₂ (Narrows arity) ts us) (hfits : List.Forall₂ Fits pss ts) : List.Forall₂ Fits pss us := by
  induction h generalizing pss with
  | nil => exact hfits
  | cons htu _ ih =>
    obtain ⟨ps, pss, hps, hrest, rfl⟩ := List.forall₂_cons_right_iff.mp hfits
    obtain ⟨hregular, hpss⟩ := List.forall_mem_cons.mp hpss
    exact .cons (htu.fits hregular hps) (ih hpss hrest)

theorem forall_of_narrows {P : TypeExpr → Prop} (h : List.Forall₂ (Narrows arity) ts us)
    (hP : ∀ t u, Narrows arity t u → P t → P u) (hts : ∀ t ∈ ts, P t) : ∀ u ∈ us, P u := by
  induction h with
  | nil => exact hts
  | cons htu _ ih =>
    obtain ⟨ht, hts⟩ := List.forall_mem_cons.mp hts
    exact List.forall_mem_cons.mpr ⟨hP _ _ htu ht, ih hts⟩

/-- A signature that takes some types takes all that refine them one by one. -/
theorem Regular.takes {s : Signature} (hs : s.Regular arity) (h : List.Forall₂ (Narrows arity) ts us)
    (htakes : s.Takes ts) : s.Takes us where
  positional := forall₂_fits hs.args (List.forall₂_take s.args.length h) htakes.positional
  further := by
    refine forall_of_narrows (List.forall₂_drop s.args.length h) ?_ htakes.further
    rintro t u htu ⟨ps, hps, hfits⟩
    exact ⟨ps, hps, htu.fits (hs.rest ps hps) hfits⟩

end Signature

/-! ### The order of matching -/

namespace TypeExpr

variable (arity : Class → Nat)

end TypeExpr

end Dataflow
