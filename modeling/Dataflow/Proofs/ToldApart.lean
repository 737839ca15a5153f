import Dataflow.Proofs.Spellings

/-! Types that do not look alike are told apart by a pattern: literal types by themselves or by the class of the first
    value, a union by its faults, and any other types by what they are instances of or, one by one, by their arguments. -/

namespace Dataflow

/-! ### Classes -/

namespace Class

variable {c d : Class}

theorem isSubclass_self (c : Class) : c.isSubclass c = true := by simp [isSubclass]

theorem isSubclass_object (c : Class) : c.isSubclass .object = true := by
  induction c with
  | derived n b ih =>
    rw [isSubclass, Bool.or_eq_true, decide_eq_true_eq] at ih
    simp only [isSubclass, ancestors, List.contains_cons, Bool.or_eq_true, decide_eq_true_eq, beq_iff_eq]
    exact Or.inr (ih.imp_left Eq.symm)
  | _ => rfl

/-- A class has more ancestors than any of them. -/
theorem length_ancestors_lt {d : Class} : ∀ {c : Class}, d ∈ c.ancestors → d.ancestors.length < c.ancestors.length
  | .derived n b, h => by
    rw [ancestors, List.length_cons, Nat.lt_succ_iff]
    rcases List.mem_cons.mp h with rfl | h
    · exact Nat.le_refl _
    · exact Nat.le_of_lt (length_ancestors_lt h)
  | .object, h => by cases h
  | .int, h | .bool, h | .text, h | .real, h | .tuple, h | .nothing, h | .dispatchable, h | .operator, h
  | .constant, h | .empty, h | .index, h | .split, h | .tie, h | .stack, h | .placed, h | .array, h | .tensor, h
  | .hostTensor, h | .torchTensor, h | .tupleOf, h | .unannotated, h | .declared _, h => by
    simp only [ancestors, List.mem_cons, List.not_mem_nil, or_false] at h
    rcases h with rfl | rfl | rfl | rfl <;> simp [ancestors]

theorem eq_of_isSubclass (h : c.isSubclass d = true) (h' : d.isSubclass c = true) : c = d := by
  simp only [isSubclass, Bool.or_eq_true, decide_eq_true_eq, List.contains_iff_mem] at h h'
  rcases h with rfl | h
  · rfl
  rcases h' with rfl | h'
  · rfl
  exact absurd (length_ancestors_lt h) (Nat.not_lt_of_gt (length_ancestors_lt h'))

theorem origin_of_device (b : Device) : b.toClass.origin = b.toClass ∧ b.toClass ≠ .object := by
  cases b <;> exact ⟨rfl, nofun⟩

theorem origin_of_ofValue? {v : Value} (h : ofValue? v = some c) : c.origin = c ∧ c ≠ .object := by
  unfold ofValue? at h
  split at h <;> cases h <;> first | exact ⟨rfl, nofun⟩ | exact origin_of_device _

end Class

namespace TypeExpr

variable {t u : TypeExpr} {ts us : List TypeExpr}

/-- The arguments of a key are keys. -/
theorem isKey_arguments (h : t.isKey = true) : ∀ x ∈ t.arguments, x.isKey = true := by
  cases t with
  | named c | literal vs | union ts => nofun
  | apply c ts | alternatives ts =>
    rw [TypeExpr.isKey] at h
    exact areKeys_iff.mp h

/-- The pattern fails on one of the types, and on one alone. -/
def Tells (p t u : TypeExpr) : Prop := ¬(matchPattern p t = .ok none ↔ matchPattern p u = .ok none)

def TellArguments (ps ts us : List TypeExpr) : Prop :=
  ¬(matchArguments ps ts = .ok false ↔ matchArguments ps us = .ok false)

theorem Tells.symm {p : TypeExpr} (h : Tells p t u) : Tells p u t := fun hiff => h hiff.symm

theorem TellArguments.symm {ps : List TypeExpr} (h : TellArguments ps ts us) : TellArguments ps us ts :=
  fun hiff => h hiff.symm

theorem tells_of_failing {p : TypeExpr} (ht : matchPattern p t = .ok none) (hu : matchPattern p u ≠ .ok none) :
    Tells p t u := fun h => hu (h.mp ht)

/-! Patterns for a single type: one that fails on it, and one that it matches. -/

theorem equalLiterals_nil {v : Value} {vs : List Value} (h : (TypeExpr.literal (v :: vs)).isKey = true) :
    equalLiterals [] (v :: vs) = .ok false := by
  rw [TypeExpr.isKey] at h
  rw [equalLiterals, List.nil_append, if_pos h]
  rfl

theorem exists_failing (h : t.isKey = true) : ∃ p, matchPattern p t = .ok none := by
  cases t with
  | literal vs =>
    cases vs with
    | nil => exact ⟨.literal [.nothing], rfl⟩
    | cons v vs =>
      refine ⟨.literal [], ?_⟩
      rw [matchPattern, equalLiterals_nil h]
      rfl
  | _ => exact ⟨.literal [], rfl⟩

theorem exists_failing_of_ordinary (ht : t.Ordinary) : ∃ p : TypeExpr, p.Ordinary ∧ matchPattern p t = .ok none := by
  cases t with
  | literal vs => exact absurd rfl ht
  | union ts => exact absurd rfl ht
  | named c => exact ⟨.alternatives [], nofun, rfl⟩
  | apply c ts => exact ⟨.alternatives [], nofun, rfl⟩
  | alternatives ts => exact ⟨.named .int, nofun, rfl⟩

theorem isSubOrigin_object (ht : t.Ordinary) : isSubOrigin t.origin (.ofClass .object) = .ok true := by
  cases t with
  | literal vs => exact absurd rfl ht
  | union ts => exact absurd rfl ht
  | named c => exact congrArg Except.ok (Class.isSubclass_object _)
  | apply c ts => exact congrArg Except.ok (Class.isSubclass_object _)
  | alternatives ts => rfl

theorem holdsLiteral_object (v : Value) : holdsLiteral (.ofClass .object) v = true := by
  unfold holdsLiteral
  cases Class.ofValue? v with
  | none => rfl
  | some c => exact Class.isSubclass_object c

theorem matchPattern_object_of_ordinary (ht : t.Ordinary) :
    matchPattern (.named .object) t = .ok (some (.named .object)) := by
  have hsub : isSubOrigin t.origin (TypeExpr.named .object).origin = .ok true := isSubOrigin_object ht
  rw [matchPattern, matchHead_of_ordinary _ ht, hsub]
  rfl

theorem matchPattern_object_of_literal (v : Value) (vs : List Value) :
    matchPattern (.named .object) (.literal (v :: vs)) = .ok (some (.named .object)) := by
  have hholds : holdsLiteral (TypeExpr.named .object).origin v = true := holdsLiteral_object v
  rw [matchPattern, matchHead, hholds]
  rfl

/-- The pattern of every object fails on nothing. What it cannot be matched with is a fault. -/
theorem matchPattern_object (t : TypeExpr) : matchPattern (.named .object) t ≠ .ok none := by
  by_cases ht : t.Ordinary
  · rw [matchPattern_object_of_ordinary ht]
    nofun
  · cases t with
    | literal vs =>
      cases vs with
      | nil => nofun
      | cons v vs =>
        rw [matchPattern_object_of_literal]
        nofun
    | union ts => nofun
    | _ => exact absurd nofun ht

theorem matchArguments_objects (ts : List TypeExpr) :
    matchArguments (ts.map fun _ => .named .object) ts ≠ .ok false := by
  induction ts with
  | nil => nofun
  | cons t ts ih =>
    rw [List.map_cons, matchArguments]
    cases hmatch : matchPattern (.named .object) t with
    | error e => nofun
    | ok o =>
      cases o with
      | none => exact absurd hmatch (matchPattern_object t)
      | some m => exact ih

theorem matchPattern_self {vs : List Value} (h : (TypeExpr.literal vs).isKey = true) :
    matchPattern (.literal vs) (.literal vs) = .ok (some (.literal vs)) := by
  have hsame : sameMembers sameLiteral vs vs = true := Members.self vs
  rw [TypeExpr.isKey] at h
  rw [matchPattern, equalLiterals, List.all_append, h, hsame]
  rfl

theorem exists_matching (ht : t.isKey = true) (hunion : t.isUnion = false) : ∃ p m, matchPattern p t = .ok (some m) := by
  by_cases hordinary : t.Ordinary
  · exact ⟨_, _, matchPattern_object_of_ordinary hordinary⟩
  · cases t with
    | literal vs => exact ⟨_, _, matchPattern_self ht⟩
    | union ts => cases hunion
    | _ => exact absurd nofun hordinary

/-! Arguments are told apart by the first ones that are. -/

theorem exists_tellArguments_nil (hu : u.isKey = true) (us : List TypeExpr) : ∃ ps, TellArguments ps [] (u :: us) := by
  obtain ⟨p, hp⟩ := exists_failing hu
  have hfails : matchArguments [p] (u :: us) = .ok false := by
    rw [matchArguments, hp]
    rfl
  exact ⟨[p], fun hiff => nomatch hiff.mpr hfails⟩

theorem tellArguments_of_failing {p : TypeExpr} (ht : matchPattern p t = .ok none) (hu : matchPattern p u ≠ .ok none)
    (ts us : List TypeExpr) : TellArguments (p :: us.map fun _ => .named .object) (t :: ts) (u :: us) := by
  intro hiff
  rw [matchArguments, matchArguments, ht] at hiff
  have hfails := hiff.mp rfl
  cases hmatch : matchPattern p u with
  | error e =>
    rw [hmatch] at hfails
    cases hfails
  | ok o =>
    cases o with
    | none => exact hu hmatch
    | some m =>
      rw [hmatch] at hfails
      exact matchArguments_objects us hfails

theorem TellArguments.cons {p m n : TypeExpr} {ps : List TypeExpr} (h : TellArguments ps ts us)
    (ht : matchPattern p t = .ok (some m)) (hu : matchPattern p u = .ok (some n)) :
    TellArguments (p :: ps) (t :: ts) (u :: us) := by
  rw [TellArguments, matchArguments, matchArguments, ht, hu]
  exact h

theorem exists_tellArguments (ih : ∀ t ∈ ts, ∀ u, u.isKey = true → t.looksLike u = false → ∃ p, Tells p t u)
    (hts : ∀ t ∈ ts, t.isKey = true) (hus : ∀ u ∈ us, u.isKey = true) (h : allLookLike ts us = false) :
    ∃ ps, TellArguments ps ts us := by
  induction ts generalizing us with
  | nil =>
    cases us with
    | nil => cases h
    | cons u us => exact exists_tellArguments_nil (hus u List.mem_cons_self) us
  | cons t ts ihs =>
    cases us with
    | nil =>
      obtain ⟨ps, hps⟩ := exists_tellArguments_nil (hts t List.mem_cons_self) ts
      exact ⟨ps, hps.symm⟩
    | cons u us =>
      rw [List.forall_mem_cons] at ih hts hus
      cases hlooks : t.looksLike u with
      | false =>
        obtain ⟨p, hp⟩ := ih.1 u hus.1 hlooks
        by_cases ht : matchPattern p t = .ok none
        · have hu : matchPattern p u ≠ .ok none := fun hu => hp (iff_of_true ht hu)
          exact ⟨_, tellArguments_of_failing ht hu ts us⟩
        · have hu : matchPattern p u = .ok none := not_not.mp fun hu => hp (iff_of_false ht hu)
          exact ⟨_, (tellArguments_of_failing hu ht us ts).symm⟩
      | true =>
        rw [allLookLike, hlooks, Bool.true_and, Bool.or_eq_false_iff] at h
        obtain ⟨p, m, hm⟩ := exists_matching hts.1 h.1
        obtain ⟨ps, hps⟩ := ihs ih.2 hts.2 hus.2 h.2
        exact ⟨p :: ps, hps.cons hm (matchPattern_eq p hlooks ▸ hm)⟩

/-! Types are told apart by what they are instances of, or else by their arguments. -/

/-- A type of the same class, or of alternatives, with other arguments. -/
def withArguments (t : TypeExpr) (ps : List TypeExpr) : TypeExpr :=
  match t with
  | .named c | .apply c _ => .apply c ps
  | .alternatives _ => .alternatives ps
  | t => t

section WithArguments

variable {ps : List TypeExpr}

theorem withArguments_spec (ht : t.Ordinary) (ps : List TypeExpr) :
    (t.withArguments ps).origin = t.origin ∧ (t.withArguments ps).arguments = ps := by
  cases t with
  | literal vs => exact absurd rfl ht
  | union ts => exact absurd rfl ht
  | _ => exact ⟨rfl, rfl⟩

theorem isSubOrigin_self (ht : t.Ordinary) : isSubOrigin t.origin t.origin = .ok true := by
  cases t with
  | literal vs => exact absurd rfl ht
  | union ts => exact absurd rfl ht
  | named c => exact congrArg Except.ok (Class.isSubclass_self _)
  | apply c ts => exact congrArg Except.ok (Class.isSubclass_self _)
  | alternatives ts => rfl

theorem isSubOrigin_total (ht : t.Ordinary) (hu : u.Ordinary) : ∃ b, isSubOrigin t.origin u.origin = .ok b := by
  unfold Ordinary at ht hu
  generalize t.origin = o at *
  generalize u.origin = o' at *
  cases o <;> cases o' <;> first | exact ⟨_, rfl⟩ | exact absurd rfl ht | exact absurd rfl hu

theorem origin_eq_of_isSubOrigin (h : isSubOrigin t.origin u.origin = .ok true)
    (h' : isSubOrigin u.origin t.origin = .ok true) : t.origin = u.origin := by
  generalize t.origin = o at *
  generalize u.origin = o' at *
  cases o <;> cases o' <;> simp only [isSubOrigin, Except.ok.injEq, reduceCtorEq, decide_eq_true_eq] at h h'
  case ofClass.ofClass c d => rw [Class.eq_of_isSubclass h h']
  all_goals rfl

/-- A pattern of another origin, without arguments, fails. -/
theorem tells_of_other_origin (ht : t.Ordinary) (hu : u.Ordinary) (h : isSubOrigin t.origin u.origin = .ok false) :
    Tells (u.withArguments []) t u := by
  obtain ⟨horigin, harguments⟩ := withArguments_spec hu []
  have hp : (u.withArguments []).Ordinary := by rwa [Ordinary, horigin]
  have hfails : matchPattern (u.withArguments []) t = .ok none := by
    rw [matchPattern_of_ordinary hp, matchHead_of_ordinary _ ht, horigin, h]
    rfl
  refine tells_of_failing hfails ?_
  rw [matchPattern_of_ordinary hp, matchHead_of_ordinary _ hu, horigin, isSubOrigin_self hu, harguments]
  intro hnone
  cases hnone

/-- A pattern of the same origin goes by its arguments, where there are any. -/
theorem matchPattern_withArguments (ht : t.Ordinary) (hu : u.Ordinary) (horigin : t.origin = u.origin) (hps : ps ≠ []) :
    matchPattern (u.withArguments ps) t = .ok none ↔ t.arguments = [] ∨ matchArguments ps t.arguments = .ok false := by
  obtain ⟨horigin', harguments⟩ := withArguments_spec hu ps
  have hp : (u.withArguments ps).Ordinary := by rwa [Ordinary, horigin']
  rw [matchPattern_of_ordinary hp, matchHead_of_ordinary _ ht, horigin', horigin, isSubOrigin_self hu, harguments]
  cases ps with
  | nil => exact absurd rfl hps
  | cons p ps =>
    cases t.arguments with
    | nil => simp
    | cons x xs =>
      cases hmatch : matchArguments (p :: ps) (x :: xs) with
      | error e => simp
      | ok b => cases b <;> simp

/-- Only one of the types has arguments. -/
theorem tells_of_no_arguments (ht : t.Ordinary) (hu : u.Ordinary) (horigin : t.origin = u.origin)
    (hnone : t.arguments = []) (hsome : u.arguments ≠ []) :
    Tells (u.withArguments (u.arguments.map fun _ => .named .object)) t u := by
  have hps : (u.arguments.map fun _ => TypeExpr.named .object) ≠ [] := mt List.map_eq_nil_iff.mp hsome
  have hfails := (matchPattern_withArguments ht hu horigin hps).mpr (Or.inl hnone)
  refine tells_of_failing hfails fun h => ?_
  rcases (matchPattern_withArguments hu hu rfl hps).mp h with h | h
  · exact hsome h
  · exact matchArguments_objects _ h

theorem exists_tells_of_arguments (ht : t.Ordinary) (hu : u.Ordinary) (horigin : t.origin = u.origin)
    (htell : ∃ ps, TellArguments ps t.arguments u.arguments) : ∃ p, Tells p t u := by
  obtain ⟨ps, hps⟩ := htell
  by_cases htnone : t.arguments = []
  · by_cases hunone : u.arguments = []
    · rw [htnone, hunone] at hps
      exact absurd Iff.rfl hps
    · exact ⟨_, tells_of_no_arguments ht hu horigin htnone hunone⟩
  by_cases hunone : u.arguments = []
  · exact ⟨_, (tells_of_no_arguments hu ht horigin.symm hunone htnone).symm⟩
  have hne : ps ≠ [] := by
    rintro rfl
    obtain ⟨x, xs, hxs⟩ := List.exists_cons_of_ne_nil htnone
    obtain ⟨y, ys, hys⟩ := List.exists_cons_of_ne_nil hunone
    rw [hxs, hys] at hps
    exact hps Iff.rfl
  refine ⟨u.withArguments ps, ?_⟩
  rw [Tells, matchPattern_withArguments ht hu horigin hne, matchPattern_withArguments hu hu rfl hne,
    or_iff_right htnone, or_iff_right hunone]
  exact hps

end WithArguments

theorem exists_tells_of_ordinary (ht : t.isKey = true) (hu : u.isKey = true) (htordinary : t.Ordinary)
    (huordinary : u.Ordinary) (ih : ∀ x ∈ t.arguments, ∀ y, y.isKey = true → x.looksLike y = false → ∃ p, Tells p x y)
    (h : t.looksLike u = false) : ∃ p, Tells p t u := by
  by_cases horigin : t.origin = u.origin
  · refine exists_tells_of_arguments htordinary huordinary horigin ?_
    refine exists_tellArguments ih (isKey_arguments ht) (isKey_arguments hu) (Bool.eq_false_iff.mpr fun hall => ?_)
    rw [(looksLike_of_ordinary htordinary).mpr ⟨horigin.symm, hall⟩] at h
    cases h
  · obtain ⟨b, hb⟩ := isSubOrigin_total htordinary huordinary
    obtain ⟨b', hb'⟩ := isSubOrigin_total huordinary htordinary
    cases b with
    | false => exact ⟨_, tells_of_other_origin htordinary huordinary hb⟩
    | true =>
      cases b' with
      | false => exact ⟨_, (tells_of_other_origin huordinary htordinary hb').symm⟩
      | true => exact absurd (origin_eq_of_isSubOrigin hb hb') horigin

/-- A literal type matches itself, and no other kind of type does. -/
theorem tells_of_literal {vs : List Value} (ht : (TypeExpr.literal vs).isKey = true) (hu : ∀ ws, u ≠ .literal ws) :
    Tells (.literal vs) (.literal vs) u := by
  have hfails : matchPattern (.literal vs) u = .ok none := by
    cases u with
    | literal ws => exact absurd rfl (hu ws)
    | _ => rfl
  refine (tells_of_failing hfails ?_).symm
  rw [matchPattern_self ht]
  nofun

theorem exists_holdsLiteral {v w : Value} (h : Class.ofValue? v ≠ Class.ofValue? w) :
    ∃ c : Class, holdsLiteral (.ofClass c.origin) v ≠ holdsLiteral (.ofClass c.origin) w := by
  have hnone : ∀ {v w : Value} {d : Class}, Class.ofValue? v = none → Class.ofValue? w = some d →
      holdsLiteral (.ofClass d.origin) v ≠ holdsLiteral (.ofClass d.origin) w := by
    intro v w d hv hw
    obtain ⟨horigin, hobject⟩ := Class.origin_of_ofValue? hw
    simp [holdsLiteral, hv, hw, horigin, hobject, Class.isSubclass_self]
  cases hv : Class.ofValue? v with
  | none =>
    cases hw : Class.ofValue? w with
    | none => exact absurd (hv.trans hw.symm) h
    | some d => exact ⟨d, hnone hv hw⟩
  | some c =>
    cases hw : Class.ofValue? w with
    | none => exact ⟨c, (hnone hw hv).symm⟩
    | some d =>
      have hc := (Class.origin_of_ofValue? hv).1
      have hd := (Class.origin_of_ofValue? hw).1
      have hne : c ≠ d := fun hcd => h (by rw [hv, hw, hcd])
      by_cases hsub : c.isSubclass d = true
      · refine ⟨c, ?_⟩
        simp only [holdsLiteral, hv, hw, hc, Class.isSubclass_self]
        exact fun hsub' => hne (Class.eq_of_isSubclass hsub hsub'.symm)
      · refine ⟨d, ?_⟩
        simp only [holdsLiteral, hv, hw, hd, Class.isSubclass_self]
        exact hsub

theorem matchPattern_of_literal (c : Class) (v : Value) (vs : List Value) :
    matchPattern (.named c) (.literal (v :: vs)) = .ok none ↔ holdsLiteral (.ofClass c.origin) v = false := by
  have hhead : matchHead (.named c) (.literal (v :: vs)) =
      .ok (if holdsLiteral (.ofClass c.origin) v then some false else none) := rfl
  rw [matchPattern, hhead]
  cases holdsLiteral (.ofClass c.origin) v <;> simp

/-- Literal types with other members are told apart by one of them, and those with another class of the first member by
    a class. -/
theorem exists_tells_of_literals {vs ws : List Value} (ht : (TypeExpr.literal vs).isKey = true)
    (hu : (TypeExpr.literal ws).isKey = true) (h : (TypeExpr.literal vs).looksLike (.literal ws) = false) :
    ∃ p, Tells p (.literal vs) (.literal ws) := by
  rw [looksLike, Bool.and_eq_false_imp, decide_eq_false_iff_not] at h
  by_cases hmembers : Members vs ws
  · cases vs with
    | nil =>
      cases ws with
      | nil => exact absurd rfl (h hmembers)
      | cons w ws => exact absurd hmembers not_members_nil
    | cons v vs =>
      cases ws with
      | nil => exact absurd hmembers.symm not_members_nil
      | cons w ws =>
        have hclass : Class.ofValue? v ≠ Class.ofValue? w := fun heq => h hmembers (congrArg some heq)
        obtain ⟨c, hc⟩ := exists_holdsLiteral hclass
        refine ⟨.named c, ?_⟩
        rw [Tells, matchPattern_of_literal, matchPattern_of_literal]
        grind
  · have hfails : matchPattern (.literal vs) (.literal ws) = .ok none := by
      rw [TypeExpr.isKey] at ht hu
      rw [matchPattern, equalLiterals, List.all_append, ht, hu, Bool.eq_false_iff.mpr hmembers]
      rfl
    refine ⟨_, (tells_of_failing hfails ?_).symm⟩
    rw [matchPattern_self ht]
    intro hnone
    cases hnone

/-- A pattern that fails is told a union by its fault. -/
theorem exists_tells_of_union (ts : List TypeExpr) (hu : u.Ordinary) : ∃ p, Tells p (.union ts) u := by
  obtain ⟨p, hp, hfails⟩ := exists_failing_of_ordinary hu
  refine ⟨p, (tells_of_failing hfails ?_).symm⟩
  rw [matchPattern_of_ordinary hp, matchHead_union]
  nofun

/-- Keys that do not look alike are told apart by a pattern. -/
theorem exists_tells (ht : t.isKey = true) (hu : u.isKey = true) (h : t.looksLike u = false) : ∃ p, Tells p t u := by
  have hordinary : ∀ {t : TypeExpr}, t.Ordinary → t.isKey = true →
      (∀ x ∈ t.arguments, ∀ y, y.isKey = true → x.looksLike y = false → ∃ p, Tells p x y) →
      ∀ u : TypeExpr, u.isKey = true → t.looksLike u = false → ∃ p, Tells p t u := by
    intro t htordinary ht ih u hu h
    cases u with
    | literal ws =>
      exact ⟨_, (tells_of_literal hu fun vs hvs => not_ordinary_literal (hvs ▸ htordinary)).symm⟩
    | union us =>
      obtain ⟨p, hp⟩ := exists_tells_of_union us htordinary
      exact ⟨p, hp.symm⟩
    | named c => exact exists_tells_of_ordinary ht hu htordinary (ordinary_named c) ih h
    | apply c us => exact exists_tells_of_ordinary ht hu htordinary (ordinary_apply c us) ih h
    | alternatives us => exact exists_tells_of_ordinary ht hu htordinary (ordinary_alternatives us) ih h
  induction t using induction_on_parts generalizing u with
  | named c => exact hordinary (ordinary_named c) ht (fun x hx => nomatch hx) u hu h
  | literal vs =>
    cases u with
    | literal ws => exact exists_tells_of_literals ht hu h
    | _ => exact ⟨_, tells_of_literal ht nofun⟩
  | apply c ts ih =>
    exact hordinary (ordinary_apply c ts) ht (fun x hx y hy hxy => ih x hx (isKey_arguments ht x hx) hy hxy) u hu h
  | union ts =>
    cases u with
    | literal ws =>
      have hunion : ∀ vs, TypeExpr.union ts ≠ .literal vs := nofun
      exact ⟨_, (tells_of_literal hu hunion).symm⟩
    | union us => cases h
    | _ => exact exists_tells_of_union ts nofun
  | alternatives ts ih =>
    exact hordinary (ordinary_alternatives ts) ht (fun x hx y hy hxy => ih x hx (isKey_arguments ht x hx) hy hxy) u hu h

/-- Patterns tell keys apart just where these do not look alike. -/
theorem looksLike_iff (ht : t.isKey = true) (hu : u.isKey = true) :
    t.looksLike u = true ↔ ∀ p, matchPattern p t = matchPattern p u := by
  refine ⟨fun h p => matchPattern_eq p h, fun h => ?_⟩
  by_contra hlooks
  obtain ⟨p, hp⟩ := exists_tells ht hu (Bool.eq_false_iff.mpr hlooks)
  exact hp (by rw [h p])

end TypeExpr

end Dataflow
