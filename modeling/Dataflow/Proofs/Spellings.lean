import Dataflow.Dispatch.Table
import Dataflow.Proofs.TypeEquality

/-! What a pattern sees of a type. Types that are equal can be written in several ways, and the matcher goes by what is
    written: the members of a literal type and the class of the first one, the arguments in their order, and of a union
    nothing but that it is one. Types that look alike in this sense match the same patterns, and a lookup does not tell
    them apart. -/

namespace Dataflow

namespace TypeExpr

variable {t u : TypeExpr} {ts us : List TypeExpr}

/-! ### Looking alike -/

def isUnion : TypeExpr → Bool
  | .union _ => true
  | _ => false

mutual

/-- What the matcher goes by is the same: of literal types the members and the class of the first one, of unions nothing,
    and of other types what they are instances of and the arguments. -/
def looksLike : TypeExpr → TypeExpr → Bool
  | .literal vs, .literal ws =>
    sameMembers sameLiteral vs ws && vs.head?.map Class.ofValue? = ws.head?.map Class.ofValue?
  | .literal _, _ => false
  | .union _, u => u.isUnion
  | .named c, u => u.origin = .ofClass c.origin && u.arguments.isEmpty
  | .apply c ts, u => u.origin = .ofClass c.origin && allLookLike ts u.arguments
  | .alternatives ts, u => u.origin = .ofAlternatives && allLookLike ts u.arguments

/-- Arguments that look alike one by one, up to the first union: no pattern matches it, and none sees what comes after
    it. -/
def allLookLike : List TypeExpr → List TypeExpr → Bool
  | [], [] => true
  | t :: ts, u :: us => looksLike t u && (t.isUnion || allLookLike ts us)
  | _, _ => false

end

/-- A type that is neither a literal type nor a union. -/
def Ordinary (t : TypeExpr) : Prop := t.origin ≠ .special

theorem ordinary_named (c : Class) : (named c).Ordinary := nofun

theorem ordinary_apply (c : Class) (ts : List TypeExpr) : (apply c ts).Ordinary := nofun

theorem ordinary_alternatives (ts : List TypeExpr) : (alternatives ts).Ordinary := nofun

theorem not_ordinary_literal {vs : List Value} : ¬(literal vs).Ordinary := fun h => h rfl

theorem looksLike_of_ordinary (ht : t.Ordinary) :
    t.looksLike u = true ↔ u.origin = t.origin ∧ allLookLike t.arguments u.arguments = true := by
  cases t with
  | named c =>
    have hnone : ∀ us : List TypeExpr, us.isEmpty = allLookLike [] us := fun us => by cases us <;> rfl
    rw [looksLike, Bool.and_eq_true, decide_eq_true_eq, hnone]
    rfl
  | apply c ts =>
    rw [looksLike, Bool.and_eq_true, decide_eq_true_eq]
    rfl
  | alternatives ts =>
    rw [looksLike, Bool.and_eq_true, decide_eq_true_eq]
    rfl
  | literal vs => exact absurd rfl ht
  | union ts => exact absurd rfl ht

theorem isEmpty_of_allLookLike (h : allLookLike ts us = true) : ts.isEmpty = us.isEmpty := by
  cases ts <;> cases us <;> first | rfl | simp [allLookLike] at h

/-- Of types that look alike, the arguments do. -/
theorem allLookLike_arguments (h : t.looksLike u = true) : allLookLike t.arguments u.arguments = true := by
  by_cases ht : t.Ordinary
  · exact ((looksLike_of_ordinary ht).mp h).2
  · cases t with
    | literal vs => cases u <;> first | rfl | simp [looksLike] at h
    | union ts => cases u <;> first | rfl | simp [looksLike, isUnion] at h
    | _ => exact absurd nofun ht

/-! ### What looks alike matches alike -/

theorem equalLiterals_eq {vs ws : List Value} (h : Members vs ws) (us : List Value) :
    equalLiterals vs us = equalLiterals ws us := by
  rw [equalLiterals, equalLiterals, List.all_append, List.all_append, all_isKey_of_members h, h.sameMembers_eq us]

theorem equalLiterals_comm (vs ws : List Value) : equalLiterals vs ws = equalLiterals ws vs := by
  have hmembers : sameMembers sameLiteral vs ws = sameMembers sameLiteral ws vs := Bool.and_comm _ _
  rw [equalLiterals, equalLiterals, List.all_append, List.all_append, Bool.and_comm, hmembers]

theorem matchHead_of_ordinary (pattern : TypeExpr) (ht : t.Ordinary) :
    matchHead pattern t = do
      if !(← isSubOrigin t.origin pattern.origin) then return none
      if pattern.arguments.isEmpty then return some false
      if t.origin ≠ pattern.origin ∨ t.arguments.isEmpty then return none
      return some true := by
  cases t with
  | literal vs => exact absurd rfl ht
  | _ => rfl

theorem matchHead_union (pattern : TypeExpr) (ts : List TypeExpr) : matchHead pattern (.union ts) = .error .wrongType := by
  rfl

theorem holdsLiteral_eq {v w : Value} (h : Class.ofValue? v = Class.ofValue? w) (o : Origin) :
    holdsLiteral o v = holdsLiteral o w := by
  unfold holdsLiteral
  rw [h]

theorem matchHead_eq (pattern : TypeExpr) (h : t.looksLike u = true) : matchHead pattern t = matchHead pattern u := by
  by_cases ht : t.Ordinary
  · obtain ⟨horigin, harguments⟩ := (looksLike_of_ordinary ht).mp h
    have hu : u.Ordinary := by rwa [Ordinary, horigin]
    rw [matchHead_of_ordinary pattern ht, matchHead_of_ordinary pattern hu, horigin, isEmpty_of_allLookLike harguments]
  · cases t with
    | literal vs =>
      cases u with
      | literal ws =>
        simp only [looksLike, Bool.and_eq_true, decide_eq_true_eq] at h
        cases vs <;> cases ws <;> simp only [List.head?_nil, List.head?_cons, Option.map_none, Option.map_some,
          reduceCtorEq, Option.some.injEq, and_false] at h
        · rfl
        · rw [matchHead, matchHead, holdsLiteral_eq h.2]
      | _ => simp [looksLike] at h
    | union ts => cases u <;> first | rfl | simp [looksLike, isUnion] at h
    | _ => exact absurd nofun ht

/-- A pattern without arguments has none to be matched. -/
theorem matchHead_of_no_arguments {p : TypeExpr} (hp : p.arguments.isEmpty = true) (t : TypeExpr) :
    matchHead p t ≠ .ok (some true) := by
  intro h
  unfold matchHead at h
  split at h
  · cases h
  · split at h <;> cases h
  · obtain ⟨b, -, h⟩ := Outcome.bind_eq_ok.mp h
    cases b <;> simp [hp] at h

theorem matchPattern_of_ordinary {p : TypeExpr} (hp : p.Ordinary) (t : TypeExpr) :
    matchPattern p t = do
      match ← matchHead p t with
      | none => return none
      | some false => return some p
      | some true => return if ← matchArguments p.arguments t.arguments then some p else none := by
  cases p with
  | literal vs => exact absurd rfl hp
  | union ps => exact absurd rfl hp
  | named c =>
    have hnone : matchHead (.named c) t ≠ .ok (some true) := matchHead_of_no_arguments rfl t
    rw [matchPattern]
    cases hhead : matchHead (.named c) t with
    | error e => rfl
    | ok o =>
      rcases o with _ | _ | _
      · rfl
      · rfl
      · exact absurd hhead hnone
  | apply c ps => rw [matchPattern]; rfl
  | alternatives ps => rw [matchPattern]; rfl

/-- No pattern matches a union. -/
theorem matchPattern_union (p : TypeExpr) (ts : List TypeExpr) : ∀ m, matchPattern p (.union ts) ≠ .ok (some m) := by
  induction p using induction_on_parts with
  | literal vs => nofun
  | union ps ih =>
    rw [matchPattern]
    induction ps with
    | nil => nofun
    | cons p ps ihs =>
      intro m h
      rw [matchFirst] at h
      obtain ⟨o, ho, h⟩ := Outcome.bind_eq_ok.mp h
      cases o with
      | none => exact ihs (fun q hq => ih q (List.mem_cons_of_mem _ hq)) m h
      | some m' => exact ih p List.mem_cons_self m' ho
  | _ => 
    intro m h
    rw [matchPattern, matchHead_union] at h
    cases h

theorem isUnion_iff : t.isUnion = true ↔ ∃ ts, t = .union ts := by
  cases t <;> simp [isUnion]

mutual

/-- A pattern does not tell types apart that look alike. -/
theorem matchPattern_eq : ∀ (pattern : TypeExpr) {t u : TypeExpr}, t.looksLike u = true →
    matchPattern pattern t = matchPattern pattern u
  | .literal vs, t, u, h => by
    cases t with
    | literal ws =>
      cases u with
      | literal us =>
        rw [looksLike, Bool.and_eq_true] at h
        rw [matchPattern, matchPattern, equalLiterals_comm vs ws, equalLiterals_eq h.1, equalLiterals_comm us vs]
      | _ => simp [looksLike] at h
    | _ => cases u <;> first | rfl | simp [looksLike, isUnion, origin] at h
  | .union ms, _, _, h => by
    rw [matchPattern, matchPattern, matchFirst_eq ms h]
  | .named c, _, _, h => by
    rw [matchPattern, matchPattern, matchHead_eq _ h]
  | .apply c ps, _, _, h => by
    rw [matchPattern, matchPattern, matchHead_eq _ h, matchArguments_eq ps (allLookLike_arguments h)]
  | .alternatives ps, _, _, h => by
    rw [matchPattern, matchPattern, matchHead_eq _ h, matchArguments_eq ps (allLookLike_arguments h)]

theorem matchFirst_eq : ∀ (patterns : List TypeExpr) {t u : TypeExpr}, t.looksLike u = true →
    matchFirst patterns t = matchFirst patterns u
  | [], _, _, _ => rfl
  | p :: ps, _, _, h => by
    rw [matchFirst, matchFirst, matchPattern_eq p h, matchFirst_eq ps h]

theorem matchArguments_eq : ∀ (patterns : List TypeExpr) {ts us : List TypeExpr}, allLookLike ts us = true →
    matchArguments patterns ts = matchArguments patterns us
  | _, [], [], _ => rfl
  | _, [], _ :: _, h | _, _ :: _, [], h => by simp [allLookLike] at h
  | [], _ :: _, _ :: _, _ => rfl
  | p :: ps, t :: ts, u :: us, h => by
    rw [allLookLike, Bool.and_eq_true, Bool.or_eq_true] at h
    rw [matchArguments, matchArguments, matchPattern_eq p h.1]
    rcases h.2 with hunion | hrest
    · -- A union is matched by no pattern, so that what comes after it is not looked at.
      obtain ⟨ms, rfl⟩ := isUnion_iff.mp hunion
      obtain ⟨ns, rfl⟩ := isUnion_iff.mp h.1
      cases hmatch : matchPattern p (.union ns) with
      | error e => rfl
      | ok o =>
        cases o with
        | none => rfl
        | some m => exact absurd hmatch (matchPattern_union p ns m)
    · rw [matchArguments_eq ps hrest]

end

end TypeExpr

/-! ### Lookups -/

/-- Argument types that look alike one by one. -/
abbrev LookAlike (ts us : List TypeExpr) : Prop := List.Forall₂ (fun t u => t.looksLike u = true) ts us

variable {ts us : List TypeExpr}

namespace Signature

theorem matchEach_eq (patterns : List (List TypeExpr)) (h : LookAlike ts us) :
    matchEach patterns ts = matchEach patterns us := by
  induction patterns generalizing ts us with
  | nil => rw [matchEach, matchEach] <;> nofun
  | cons ps pss ih =>
    cases h with
    | nil => rfl
    | cons h hs => rw [matchEach, matchEach, TypeExpr.matchFirst_eq ps h, ih hs]

theorem matchTypes_eq (s : Signature) (h : LookAlike ts us) : s.matchTypes ts = s.matchTypes us := by
  simp only [matchTypes, h.length_eq, matchEach_eq _ h]

end Signature

namespace Table

/-- Conditions that answer the same for two lists of types. -/
def Undecided (table : Table) (ts us : List TypeExpr) : Prop := ∀ e ∈ table, ∀ p ∈ e.predicate, p.holds ts = p.holds us

/-- The library sets no conditions. -/
theorem predicate_of_builtin {devices : List Device} {e : Entry} (he : e ∈ builtin devices) : e.predicate = none := by
  rcases List.mem_cons.mp he with rfl | he
  · rfl
  · obtain ⟨device, -, he⟩ := List.mem_flatMap.mp he
    obtain ⟨kind, -, rfl⟩ := List.mem_map.mp he
    rfl

theorem undecided_builtin (devices : List Device) (ts us : List TypeExpr) : (builtin devices).Undecided ts us := by
  intro e he p hp
  rw [predicate_of_builtin he] at hp
  cases hp

theorem accepting_lookAlike {table : Table} (htable : table.Undecided ts us) (h : LookAlike ts us) :
    accepting ts table = accepting us table := by
  induction table with
  | nil => rfl
  | cons e es ih =>
    have haccepts : e.accepts ts = e.accepts us := by
      rw [Entry.accepts, Entry.accepts, e.signature.matchTypes_eq h]
      cases hp : e.predicate with
      | none => rfl
      | some p =>
        have hholds := htable e List.mem_cons_self p hp
        simp only [hholds]
    rw [accepting, accepting, haccepts, ih fun d hd => htable d (List.mem_cons_of_mem _ hd)]

/-- The implementation for some types is the one for all that look alike. -/
theorem lookup_lookAlike {table : Table} (htable : table.Undecided ts us) (h : LookAlike ts us) {f : Implementation} :
    table.lookup ts = .ok f ↔ table.lookup us = .ok f := by
  rw [lookup, lookup, accepting_lookAlike htable h]
  cases accepting us table with
  | error e => rfl
  | ok es =>
    rw [Outcome.ok_bind, Outcome.ok_bind]
    split
    · rfl
    · exact ⟨nofun, nofun⟩

end Table

end Dataflow
