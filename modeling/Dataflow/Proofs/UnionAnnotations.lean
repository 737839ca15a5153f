import Dataflow.Proofs.JoinedTypes
import Dataflow.Proofs.Lookup

/-! Parameters that are annotated by several types. As a union these are patterns of their own, of which the first that
    matches is reported. Joined to alternatives they are one pattern, which nothing but a union matches; only where one
    of the types cannot be a part of alternatives do both annotations mean the same. -/

namespace Dataflow

namespace TypeExpr

variable {m t : TypeExpr} {ms : List TypeExpr}

/-! ### The first member that matches -/

/-- Of several patterns, the first that matches a type. -/
def FirstMatch (ms : List TypeExpr) (t m : TypeExpr) : Prop :=
  ∃ before after, ms = before ++ m :: after ∧ (∀ p ∈ before, matchPattern p t = .ok none) ∧
    matchPattern m t = .ok (some m)

theorem matchFirst_of_firstMatch (h : FirstMatch ms t m) : matchFirst ms t = .ok (some m) := by
  obtain ⟨before, after, rfl, hbefore, hm⟩ := h
  induction before with
  | nil =>
    rw [List.nil_append, matchFirst, hm]
    rfl
  | cons p ps ih =>
    rw [List.cons_append, matchFirst, hbefore p List.mem_cons_self, Outcome.ok_bind]
    exact ih fun q hq => hbefore q (List.mem_cons_of_mem _ hq)

/-- What is no union reports itself. -/
theorem eq_of_matchPattern {p : TypeExpr} (hp : p.set? = none) (h : matchPattern p t = .ok (some m)) : m = p := by
  by_cases hordinary : p.Ordinary
  · rw [matchPattern_of_ordinary hordinary] at h
    obtain ⟨o, -, h⟩ := Outcome.bind_eq_ok.mp h
    rcases o with _ | _ | _
    · cases h
    · exact (Option.some.inj (Except.ok.inj h)).symm
    · obtain ⟨b, -, h⟩ := Outcome.bind_eq_ok.mp h
      cases b with
      | false => cases h
      | true => exact (Option.some.inj (Except.ok.inj h)).symm
  · cases p with
    | literal vs =>
      cases t with
      | literal ws =>
        rw [matchPattern] at h
        obtain ⟨b, -, h⟩ := Outcome.bind_eq_ok.mp h
        cases b with
        | false => cases h
        | true => exact (Option.some.inj (Except.ok.inj h)).symm
      | _ => cases h
    | union ps => cases hp
    | _ => exact absurd nofun hordinary

theorem exists_firstMatch (hms : ∀ m ∈ ms, m.set? = none) (hends : ∀ m ∈ ms, ∃ o, matchPattern m t = .ok o)
    (h : Fits ms t) : ∃ m, FirstMatch ms t m := by
  induction ms with
  | nil =>
    obtain ⟨m, hm, -⟩ := h
    cases hm
  | cons p ps ih =>
    obtain ⟨o, ho⟩ := hends p List.mem_cons_self
    cases o with
    | some m =>
      obtain rfl := eq_of_matchPattern (hms p List.mem_cons_self) ho
      exact ⟨m, [], ps, rfl, nofun, ho⟩
    | none =>
      have hfits : Fits ps t := by
        obtain ⟨m, hm, n, hn⟩ := h
        rcases List.mem_cons.mp hm with rfl | hm
        · cases ho.symm.trans hn
        · exact ⟨m, hm, n, hn⟩
      obtain ⟨m, before, after, rfl, hbefore, hm⟩ := ih (fun q hq => hms q (List.mem_cons_of_mem _ hq))
        (fun q hq => hends q (List.mem_cons_of_mem _ hq)) hfits
      exact ⟨m, p :: before, after, rfl, List.forall_mem_cons.mpr ⟨ho, hbefore⟩, hm⟩

theorem matchFirst_of_not_fits (hends : ∀ m ∈ ms, ∃ o, matchPattern m t = .ok o) (h : ¬Fits ms t) :
    matchFirst ms t = .ok none := by
  induction ms with
  | nil => rfl
  | cons p ps ih =>
    obtain ⟨o, ho⟩ := hends p List.mem_cons_self
    cases o with
    | some m => exact absurd ⟨p, List.mem_cons_self, m, ho⟩ h
    | none =>
      rw [matchFirst, ho, Outcome.ok_bind]
      exact ih (fun q hq => hends q (List.mem_cons_of_mem _ hq)) fun ⟨m, hm, hfit⟩ =>
        h ⟨m, List.mem_cons_of_mem _ hm, hfit⟩

/-- Only what is a union itself is matched by alternatives. -/
theorem matchPattern_alternatives (ht : t.set? = none) (hne : t ≠ .literal []) :
    matchPattern (.alternatives ms) t = .ok none := by
  have hhead : matchHead (.alternatives ms) t = .ok none := by
    cases t with
    | literal vs =>
      cases vs with
      | nil => exact absurd rfl hne
      | cons v vs => rfl
    | named c => rfl
    | apply c ts => rfl
    | union ts => cases ht
    | alternatives ts => cases ht
  rw [matchPattern, hhead]
  rfl

/-- A class breaks off at a literal type of no values. -/
theorem ne_literal_nil (hm : m.set? = none) (hplain : m.isPlain = true) (h : ∃ o, matchPattern m t = .ok o) :
    t ≠ .literal [] := by
  rintro rfl
  obtain ⟨o, ho⟩ := h
  cases m with
  | named c => cases ho
  | apply c ts => cases ho
  | literal vs => cases hplain
  | union ts => cases hm
  | alternatives ts => cases hm

end TypeExpr

open TypeExpr

/-! ### Matching one parameter among others -/

namespace Signature

variable {pss qss : List (List TypeExpr)} {ts us r : List TypeExpr} {rest : Option (List TypeExpr)}

/-- A signature can take a number of types. -/
def arity (s : Signature) (n : Nat) : Bool := s.args.length ≤ n && (s.rest.isSome || n = s.args.length)

theorem matchTypes_of_arity (s : Signature) (ts : List TypeExpr) : s.matchTypes ts =
    if s.arity ts.length then matchEach (s.args ++ List.replicate (ts.length - s.args.length) (s.rest.getD [])) ts
    else .ok none := by
  simp only [matchTypes, arity, Bool.and_eq_true, Bool.or_eq_true, decide_eq_true_eq]
  by_cases hfew : ts.length < s.args.length
  · rw [if_pos hfew, if_neg fun h => Nat.not_lt.mpr h.1 hfew]
  · have hmany := Nat.not_lt.mp hfew
    rw [if_neg hfew]
    cases s.rest with
    | some ps => exact (if_pos ⟨hmany, Or.inl rfl⟩).symm
    | none =>
      show (if ts.length - s.args.length = 0 then matchEach s.args ts else .ok none) = _
      by_cases hextra : ts.length = s.args.length
      · rw [if_pos (by omega), if_pos ⟨hmany, Or.inr hextra⟩, hextra, Nat.sub_self, List.replicate_zero,
          List.append_nil]
      · rw [if_neg (by omega), if_neg fun h => h.2.elim Bool.false_ne_true hextra]

/-- The parameter for further arguments is a positional one for each of them. -/
theorem matchTypes_rest {ps : List TypeExpr} (h : pss.length ≤ ts.length) : matchTypes ⟨pss, some ps⟩ ts =
    matchTypes ⟨pss ++ List.replicate (ts.length - pss.length) ps, none⟩ ts := by
  have hlength : (pss ++ List.replicate (ts.length - pss.length) ps).length = ts.length := by
    rw [List.length_append, List.length_replicate, Nat.add_sub_cancel' h]
  have hmany : arity ⟨pss, some ps⟩ ts.length = true := by simp [arity, h]
  have hexact : arity ⟨pss ++ List.replicate (ts.length - pss.length) ps, none⟩ ts.length = true := by
    simp [arity, hlength]
  rw [matchTypes_of_arity, if_pos hmany, matchTypes_of_arity, if_pos hexact, hlength, Nat.sub_self,
    List.replicate_zero, List.append_nil]
  rfl

theorem matchEach_append (hlength : pss.length = ts.length) : matchEach (pss ++ qss) (ts ++ us) = (do
    match ← matchEach pss ts with
    | none => return none
    | some ms => return (← matchEach qss us).map (ms ++ ·)) := by
  induction pss generalizing ts with
  | nil =>
    obtain rfl : ts = [] := List.eq_nil_of_length_eq_zero hlength.symm
    show matchEach qss us = (do return (← matchEach qss us).map ([] ++ ·))
    rcases matchEach qss us with e | _ | ns <;> rfl
  | cons ps pss ih =>
    cases ts with
    | nil => cases hlength
    | cons t ts =>
      rw [List.cons_append, List.cons_append, matchEach, matchEach, ih (Nat.succ.inj hlength)]
      rcases matchFirst ps t with e | _ | m
      · rfl
      · rfl
      · rcases matchEach pss ts with e | _ | ms
        · rfl
        · rfl
        · rcases matchEach qss us with e | _ | ns <;> rfl

/-- The first parameters are matched before the others, if the number of types is right. -/
theorem matchTypes_append (hlength : pss.length = ts.length) : matchTypes ⟨pss ++ qss, rest⟩ (ts ++ us) =
    if arity ⟨qss, rest⟩ us.length then (do
      match ← matchEach pss ts with
      | none => return none
      | some ms => return (← matchTypes ⟨qss, rest⟩ us).map (ms ++ ·))
    else .ok none := by
  have harity : arity ⟨pss ++ qss, rest⟩ (ts ++ us).length = arity ⟨qss, rest⟩ us.length := by
    simp [arity, hlength]
  have hextra : (ts ++ us).length - (pss ++ qss).length = us.length - qss.length := by
    simp only [List.length_append]
    omega
  rw [matchTypes_of_arity, matchTypes_of_arity, harity, hextra]
  cases arity ⟨qss, rest⟩ us.length with
  | true => rw [if_pos rfl, if_pos rfl, if_pos rfl, List.append_assoc, matchEach_append hlength]
  | false => rfl

theorem length_of_matchEach (h : matchEach pss ts = .ok (some r)) (hlength : pss.length = ts.length) :
    r.length = ts.length := by
  induction pss generalizing ts r with
  | nil =>
    obtain rfl : ts = [] := List.eq_nil_of_length_eq_zero hlength.symm
    obtain rfl : [] = r := Option.some.inj (Except.ok.inj h)
    rfl
  | cons ps pss ih =>
    cases ts with
    | nil => cases hlength
    | cons t ts =>
      rw [matchEach] at h
      obtain ⟨o, -, h⟩ := Outcome.bind_eq_ok.mp h
      cases o with
      | none => cases h
      | some m =>
        obtain ⟨o, ho, h⟩ := Outcome.bind_eq_ok.mp h
        obtain ⟨ms, rfl, rfl⟩ := Option.map_eq_some_iff.mp (Except.ok.inj h)
        rw [List.length_cons, ih ho (Nat.succ.inj hlength), List.length_cons]

theorem length_of_matchTypes {s : Signature} (h : s.matchTypes ts = .ok (some r)) : r.length = ts.length := by
  rw [matchTypes_of_arity] at h
  split at h
  · rename_i harity
    have hmany := of_decide_eq_true (Bool.and_eq_true_iff.mp harity).1
    refine length_of_matchEach h ?_
    rw [List.length_append, List.length_replicate, Nat.add_sub_cancel' hmany]
  · cases h

theorem exists_of_matchTypes_append (hlength : pss.length = ts.length)
    (h : matchTypes ⟨pss ++ qss, rest⟩ (ts ++ us) = .ok (some r)) :
    ∃ ms, matchEach pss ts = .ok (some ms) ∧ ∃ ns, matchTypes ⟨qss, rest⟩ us = .ok (some ns) ∧ ms ++ ns = r := by
  rw [matchTypes_append hlength] at h
  split at h
  · obtain ⟨o, ho, h⟩ := Outcome.bind_eq_ok.mp h
    cases o with
    | none => cases h
    | some ms =>
      obtain ⟨o, hns, h⟩ := Outcome.bind_eq_ok.mp h
      obtain ⟨ns, rfl, hr⟩ := Option.map_eq_some_iff.mp (Except.ok.inj h)
      exact ⟨ms, ho, ns, hns, hr⟩
  · cases h

/-- The match of types with a function, by the annotations of its parameters. -/
def matchAnnotated (args : List (Option TypeExpr)) (rest : Option TypeExpr) (types : List TypeExpr) :
    Outcome (Option (List TypeExpr)) := do
  (← ofAnnotations args rest false).matchTypes types

end Signature

open Signature

/-- A function with a parameter that is yet to be annotated: a positional one, or the one for any number of further
    arguments. -/
inductive Opening where
  | positional (before after : List (Option TypeExpr)) (rest : Option TypeExpr)
  | further (args : List (Option TypeExpr))

namespace Opening

/-- The match of types after the parameter is annotated. -/
def matched : Opening → TypeExpr → List TypeExpr → Outcome (Option (List TypeExpr))
  | .positional before after rest, t, types => matchAnnotated (before ++ some t :: after) rest types
  | .further args, t, types => matchAnnotated args (some t) types

/-- The match of types after the parameter gave way to positional ones, one for each of some annotations. -/
def spread : Opening → List TypeExpr → List TypeExpr → Outcome (Option (List TypeExpr))
  | .positional before after rest, ts, types => matchAnnotated (before ++ ts.map some ++ after) rest types
  | .further args, ts, types => matchAnnotated (args ++ ts.map some) none types

/-- Of a list that goes by the arguments, what is for the parameter. -/
def own : Opening → List TypeExpr → List TypeExpr
  | .positional before _ _, ts => (ts.drop before.length).take 1
  | .further args, ts => ts.drop args.length

/-- The patterns of parameters, which may have no annotation. -/
def patternsOf (args : List (Option TypeExpr)) : List (List TypeExpr) :=
  args.map fun a => patterns (a.getD (.named .unannotated))

def before : Opening → List (List TypeExpr)
  | .positional before _ _ => patternsOf before
  | .further args => patternsOf args

def after : Opening → List (List TypeExpr)
  | .positional _ after _ => patternsOf after
  | .further _ => []

def rest : Opening → Option (List TypeExpr)
  | .positional _ _ rest => rest.map patterns
  | .further _ => none

variable {g : Opening} {t : TypeExpr} {ts us types r : List TypeExpr}

theorem patternsOf_append (as bs : List (Option TypeExpr)) : patternsOf (as ++ bs) = patternsOf as ++ patternsOf bs :=
  List.map_append

theorem patternsOf_some (ts : List TypeExpr) : patternsOf (ts.map some) = ts.map patterns := by
  rw [patternsOf, List.map_map]
  rfl

theorem length_patternsOf (as : List (Option TypeExpr)) : (patternsOf as).length = as.length := List.length_map _

theorem spread_eq (g : Opening) (ts types : List TypeExpr) :
    g.spread ts types = matchTypes ⟨g.before ++ (ts.map patterns ++ g.after), g.rest⟩ types := by
  cases g with
  | positional before after rest =>
    show matchTypes ⟨patternsOf (before ++ ts.map some ++ after), _⟩ types = _
    rw [patternsOf_append, patternsOf_append, patternsOf_some, List.append_assoc]
    rfl
  | further args =>
    show matchTypes ⟨patternsOf (args ++ ts.map some), none⟩ types = _
    rw [patternsOf_append, patternsOf_some, after, List.append_nil]
    rfl

/-- The arguments for the parameter stand between those for the others. -/
theorem exists_own (h : g.own types ≠ []) : ∃ pre post, types = pre ++ (g.own types ++ post) ∧
    g.before.length = pre.length ∧ ∀ ms ns rs : List TypeExpr, ms.length = pre.length →
      ns.length = (g.own types).length → rs.length = post.length → g.own (ms ++ (ns ++ rs)) = ns := by
  cases g with
  | positional before after rest =>
    have hreached : before.length < types.length := by
      by_contra hfew
      exact h (by rw [own, List.drop_eq_nil_of_le (Nat.not_lt.mp hfew), List.take_nil])
    refine ⟨types.take before.length, (types.drop before.length).drop 1, ?_, ?_, fun ms ns rs hms hns _ => ?_⟩
    · rw [own, List.take_append_drop, List.take_append_drop]
    · rw [Opening.before, length_patternsOf, List.length_take, Nat.min_eq_left hreached.le]
    · rw [List.length_take, Nat.min_eq_left hreached.le] at hms
      have hone : ns.length = 1 := by
        rw [hns, own, List.length_take, List.length_drop]
        omega
      rw [own, List.drop_left' hms, List.take_left' hone]
  | further args =>
    have hreached : args.length < types.length := by
      by_contra hfew
      exact h (List.drop_eq_nil_of_le (Nat.not_lt.mp hfew))
    refine ⟨types.take args.length, [], ?_, ?_, fun ms ns rs hms _ hrs => ?_⟩
    · rw [own, List.append_nil, List.take_append_drop]
    · rw [before, length_patternsOf, List.length_take, Nat.min_eq_left hreached.le]
    · rw [List.length_take, Nat.min_eq_left hreached.le] at hms
      rw [own, List.drop_left' hms, List.eq_nil_of_length_eq_zero hrs, List.append_nil]

theorem exists_split (h : g.own types ≠ []) : ∃ pre post, g.before.length = pre.length ∧
    (∀ vs, g.spread vs types =
      matchTypes ⟨g.before ++ (vs.map patterns ++ g.after), g.rest⟩ (pre ++ (g.own types ++ post))) ∧
    ∀ ms ns rs : List TypeExpr, ms.length = pre.length → ns.length = (g.own types).length → rs.length = post.length →
      g.own (ms ++ (ns ++ rs)) = ns := by
  obtain ⟨pre, post, hsplit, hpre, hown⟩ := exists_own h
  refine ⟨pre, post, hpre, fun vs => ?_, hown⟩
  rw [← hsplit, spread_eq]

/-- Of what replaces the parameter, nothing counts but how it matches the arguments. -/
theorem spread_congr (h : g.own types ≠ []) (hts : ts.length = (g.own types).length)
    (hus : us.length = (g.own types).length)
    (hmatch : matchEach (ts.map patterns) (g.own types) = matchEach (us.map patterns) (g.own types)) :
    g.spread ts types = g.spread us types := by
  obtain ⟨pre, post, hpre, hspread, -⟩ := exists_split h
  have harity : arity ⟨ts.map patterns ++ g.after, g.rest⟩ = arity ⟨us.map patterns ++ g.after, g.rest⟩ := by
    simp [funext_iff, arity, hts, hus]
  rw [hspread, hspread, matchTypes_append hpre, matchTypes_append hpre, harity,
    matchTypes_append (by rw [List.length_map, hts]), matchTypes_append (by rw [List.length_map, hus]), hmatch]

/-- What a match reports for the arguments of the parameter. -/
theorem own_of_spread (h : g.own types ≠ []) (hts : ts.length = (g.own types).length)
    (hr : g.spread ts types = .ok (some r)) : matchEach (ts.map patterns) (g.own types) = .ok (some (g.own r)) := by
  obtain ⟨pre, post, hpre, hspread, hown⟩ := exists_split h
  have hlength : (ts.map patterns).length = (g.own types).length := by rw [List.length_map, hts]
  obtain ⟨ms, hms, r', hr', rfl⟩ := exists_of_matchTypes_append hpre ((hspread ts).symm.trans hr)
  obtain ⟨ns, hns, rs, hrs, rfl⟩ := exists_of_matchTypes_append hlength hr'
  rw [hns, hown ms ns rs (length_of_matchEach hms hpre) (length_of_matchEach hns hlength) (length_of_matchTypes hrs)]

theorem matched_eq (h : g.own types ≠ []) (t : TypeExpr) :
    g.matched t types = g.spread (List.replicate (g.own types).length t) types := by
  cases g with
  | positional before after rest =>
    have hone : (own (.positional before after rest) types).length = 1 := by
      have hpos := List.length_pos_iff.mpr h
      have hle : (own (.positional before after rest) types).length ≤ 1 := List.length_take_le _ _
      omega
    rw [hone]
    show _ = matchAnnotated (before ++ [some t] ++ after) rest types
    rw [List.append_assoc]
    rfl
  | further args =>
    have hextra : (own (.further args) types).length = types.length - args.length := List.length_drop
    have hpos := List.length_pos_iff.mpr h
    have hreached : (patternsOf args).length ≤ types.length := by
      rw [length_patternsOf]
      omega
    show matchTypes ⟨patternsOf args, some (patterns t)⟩ types = matchTypes ⟨patternsOf (args ++ _), none⟩ types
    rw [matchTypes_rest hreached, length_patternsOf, hextra, patternsOf_append, patternsOf_some, List.map_replicate]

/-- How an annotation matches the arguments for the parameter. -/
def ownMatch (g : Opening) (t : TypeExpr) (types : List TypeExpr) : Outcome (Option (List TypeExpr)) :=
  matchEach (List.replicate (g.own types).length (patterns t)) (g.own types)

theorem matched_congr {t u : TypeExpr} (h : g.own types ≠ []) (hmatch : g.ownMatch t types = g.ownMatch u types) :
    g.matched t types = g.matched u types := by
  rw [matched_eq h, matched_eq h]
  refine spread_congr h List.length_replicate List.length_replicate ?_
  rw [List.map_replicate, List.map_replicate]
  exact hmatch

theorem ownMatch_of_matched (h : g.own types ≠ []) (hr : g.matched t types = .ok (some r)) :
    g.ownMatch t types = .ok (some (g.own r)) := by
  rw [matched_eq h] at hr
  have hown := own_of_spread h List.length_replicate hr
  rwa [List.map_replicate] at hown

/-- Without arguments for the parameter, its annotation does not matter. -/
theorem matched_of_own_nil (h : g.own types = []) (t u : TypeExpr) : g.matched t types = g.matched u types := by
  cases g with
  | positional before after rest =>
    have hfew : types.length ≤ before.length := by
      by_contra hreached
      have hlength := congrArg List.length h
      rw [own, List.length_take, List.length_drop, List.length_nil] at hlength
      omega
    have hnone (t : TypeExpr) : matched (.positional before after rest) t types = .ok none := by
      show matchTypes ⟨patternsOf (before ++ some t :: after), rest.map patterns⟩ types = _
      rw [matchTypes_of_arity, if_neg]
      simp only [arity, length_patternsOf, List.length_append, List.length_cons, Bool.and_eq_true, decide_eq_true_eq]
      omega
    rw [hnone, hnone]
  | further args =>
    have hfew : types.length - args.length = 0 := Nat.sub_eq_zero_of_le (List.drop_eq_nil_iff.mp h)
    have hargs (t : TypeExpr) : matched (.further args) t types =
        if arity ⟨patternsOf args, some []⟩ types.length then matchEach (patternsOf args) types else .ok none := by
      show matchTypes ⟨patternsOf args, some (patterns t)⟩ types = _
      rw [matchTypes_of_arity, length_patternsOf, hfew, List.replicate_zero, List.append_nil]
      rfl
    rw [hargs, hargs]

/-! ### Arguments by their first matches -/

variable {ms firsts : List TypeExpr}

theorem matchEach_replicate_first (h : List.Forall₂ (FirstMatch ms) ts firsts) :
    matchEach (List.replicate ts.length ms) ts = .ok (some firsts) := by
  induction h with
  | nil => rfl
  | cons hfirst _ ih =>
    rw [List.length_cons, List.replicate_succ, matchEach, matchFirst_of_firstMatch hfirst, Outcome.ok_bind, ih]
    rfl

theorem matchEach_firsts (hms : ∀ m ∈ ms, m.set? = none) (h : List.Forall₂ (FirstMatch ms) ts firsts) :
    matchEach (firsts.map patterns) ts = .ok (some firsts) := by
  induction h with
  | nil => rfl
  | @cons t m _ _ hfirst _ ih =>
    obtain ⟨before, after, rfl, -, hm⟩ := hfirst
    have hpatterns : patterns m = [m] := patterns_of_single (hms m (by simp))
    rw [List.map_cons, hpatterns, matchEach, matchFirst_single, hm, Outcome.ok_bind, ih]
    rfl

theorem matchEach_of_not_fits (hms : ∀ m ∈ ms, m.set? = none)
    (hends : ∀ t ∈ ts, ∀ m ∈ ms, ∃ o, matchPattern m t = .ok o) (h : ∃ t ∈ ts, ¬Fits ms t) :
    matchEach (List.replicate ts.length ms) ts = .ok none := by
  induction ts with
  | nil =>
    obtain ⟨t, ht, -⟩ := h
    cases ht
  | cons t ts ih =>
    have hhead := hends t List.mem_cons_self
    by_cases hfits : Fits ms t
    · have hrest : ∃ u ∈ ts, ¬Fits ms u := by
        obtain ⟨u, hu, hnot⟩ := h
        rcases List.mem_cons.mp hu with rfl | hu
        · exact absurd hfits hnot
        · exact ⟨u, hu, hnot⟩
      obtain ⟨m, hm⟩ := exists_firstMatch hms hhead hfits
      rw [List.length_cons, List.replicate_succ, matchEach, matchFirst_of_firstMatch hm, Outcome.ok_bind,
        ih (fun u hu => hends u (List.mem_cons_of_mem _ hu)) hrest]
      rfl
    · exact matchEach_of_first (matchFirst_of_not_fits hhead hfits)

/-- Alternatives match none of several arguments that are no unions. -/
theorem matchEach_alternatives (hts : ∀ t ∈ ts, t.set? = none ∧ t ≠ .literal []) (hne : ts ≠ []) :
    matchEach (List.replicate ts.length [.alternatives ms]) ts = .ok none := by
  obtain ⟨t, ts, rfl⟩ := List.exists_cons_of_ne_nil hne
  obtain ⟨hset, hliteral⟩ := hts t List.mem_cons_self
  refine matchEach_of_first ?_
  rw [matchFirst_single, matchPattern_alternatives hset hliteral]

theorem exists_firsts (hms : ∀ m ∈ ms, m.set? = none) (hends : ∀ t ∈ ts, ∀ m ∈ ms, ∃ o, matchPattern m t = .ok o)
    (h : ∀ t ∈ ts, Fits ms t) : ∃ firsts, List.Forall₂ (FirstMatch ms) ts firsts := by
  induction ts with
  | nil => exact ⟨[], .nil⟩
  | cons t ts ih =>
    obtain ⟨m, hm⟩ := exists_firstMatch hms (hends t List.mem_cons_self) (h t List.mem_cons_self)
    obtain ⟨firsts, hfirsts⟩ := ih (fun u hu => hends u (List.mem_cons_of_mem _ hu)) fun u hu =>
      h u (List.mem_cons_of_mem _ hu)
    exact ⟨m :: firsts, .cons hm hfirsts⟩

/-- What several types mean as the annotation of a parameter, as a union and joined one after the other. -/
structure Reading (g : Opening) (ms types : List TypeExpr) : Prop where
  /-- If every argument for the parameter matches one of the types, the parameter is like one for each argument that is
      annotated by the first type that matches it, and these types are reported. -/
  first : g.own types ≠ [] → (∀ t ∈ g.own types, Fits ms t) → ∃ firsts,
    List.Forall₂ (FirstMatch ms) (g.own types) firsts ∧
      g.matched (flattened .union ms) types = g.spread firsts types ∧
      ∀ r, g.matched (flattened .union ms) types = .ok (some r) → g.own r = firsts
  /-- An argument that matches none of the types is not taken. -/
  missed : (∃ t ∈ g.own types, ¬Fits ms t) → ∀ r, g.matched (flattened .union ms) types ≠ .ok (some r)
  /-- The types joined mean the same where they are no alternatives, and where no argument matches one of them. -/
  agree : (ms.length = 1 ∨ ms.all isPlain = false ∨ g.own types = [] ∨ ∃ t ∈ g.own types, ¬Fits ms t) →
    g.matched (joined ms) types = g.matched (flattened .union ms) types
  /-- Alternatives take no argument at all. -/
  never : 1 < ms.length → ms.all isPlain = true → g.own types ≠ [] → ∀ r, g.matched (joined ms) types ≠ .ok (some r)

section Members

variable (hms : Separate ms) (hown : ∀ t ∈ g.own types, t.set? = none ∧ ∀ m ∈ ms, ∃ o, matchPattern m t = .ok o)
include hms

theorem ownMatch_first (h : List.Forall₂ (FirstMatch ms) (g.own types) firsts) :
    g.ownMatch (flattened .union ms) types = .ok (some firsts) := by
  rw [ownMatch, hms.patterns_flattened, matchEach_replicate_first h]

include hown

theorem ownMatch_missed (h : ∃ t ∈ g.own types, ¬Fits ms t) : g.ownMatch (flattened .union ms) types = .ok none := by
  rw [ownMatch, hms.patterns_flattened, matchEach_of_not_fits hms.single (fun t ht => (hown t ht).2) h]

theorem ownMatch_alternatives (hplain : ms.all isPlain = true) (hne : g.own types ≠ []) :
    g.ownMatch (.alternatives ms) types = .ok none := by
  refine matchEach_alternatives (fun t ht => ⟨(hown t ht).1, ?_⟩) hne
  obtain ⟨m, hm⟩ := List.exists_mem_of_ne_nil ms hms.nonempty
  exact ne_literal_nil (hms.single m hm) (List.all_eq_true.mp hplain m hm) ((hown t ht).2 m hm)

theorem matched_first (hne : g.own types ≠ []) (hfits : ∀ t ∈ g.own types, Fits ms t) : ∃ firsts,
    List.Forall₂ (FirstMatch ms) (g.own types) firsts ∧
      g.matched (flattened .union ms) types = g.spread firsts types ∧
      ∀ r, g.matched (flattened .union ms) types = .ok (some r) → g.own r = firsts := by
  obtain ⟨firsts, hfirsts⟩ := exists_firsts hms.single (fun t ht => (hown t ht).2) hfits
  have hunion := ownMatch_first hms hfirsts
  refine ⟨firsts, hfirsts, ?_, fun r hr => ?_⟩
  · rw [matched_eq hne]
    refine spread_congr hne List.length_replicate hfirsts.length_eq.symm ?_
    rw [List.map_replicate, matchEach_firsts hms.single hfirsts]
    exact hunion
  · exact (Option.some.inj (Except.ok.inj (hunion.symm.trans (ownMatch_of_matched hne hr)))).symm

theorem reading : Reading g ms types where
  first := matched_first hms hown
  missed h r hr := by
    have hne : g.own types ≠ [] := h.elim fun t ht => List.ne_nil_of_mem ht.1
    have hmatch := ownMatch_of_matched hne hr
    rw [ownMatch_missed hms hown h] at hmatch
    cases hmatch
  agree h := by
    by_cases hplural : 1 < ms.length ∧ ms.all isPlain = true
    · have hjoined : joined ms = .alternatives ms := by rw [hms.joined_eq, if_pos hplural]
      rcases h with hone | hplain | hnone | hmissed
      · exact absurd hone hplural.1.ne'
      · cases hplain.symm.trans hplural.2
      · exact matched_of_own_nil hnone _ _
      · have hne : g.own types ≠ [] := hmissed.elim fun t ht => List.ne_nil_of_mem ht.1
        refine matched_congr hne ?_
        rw [hjoined, ownMatch_alternatives hms hown hplural.2 hne, ownMatch_missed hms hown hmissed]
    · rw [hms.joined_eq, if_neg hplural]
  never hlength hplain hne r hr := by
    have hmatch := ownMatch_of_matched hne hr
    rw [hms.joined_eq, if_pos ⟨hlength, hplain⟩, ownMatch_alternatives hms hown hplain hne] at hmatch
    cases hmatch

/-- Both annotations are made as they are written, if nothing equal is remembered. The union takes an argument by the
    first of its members that matches it. The types joined mean the same where they are a union as well; where all of
    them can be parts of alternatives, nothing is taken. -/
theorem annotated_union :
    (∀ s : TypeStore, ¬s.Remembers ms → (TypeStore.union ms s).1 = .ok (flattened .union ms)) ∧
      (∀ s : TypeStore, s.Forgets ms → (TypeStore.alternatives ms s).1 = .ok (joined ms)) ∧ Reading g ms types := by
  refine ⟨fun s hs => ?_, fun s hs => ?_, reading hms hown⟩
  · obtain ⟨s', hs', -⟩ := TypeStore.union_new hms.keys hms.nonempty hs
    rw [hs']
  · obtain ⟨s', hs', -⟩ := TypeStore.alternatives_new hms hs
    rw [hs']

end Members

/-- Further arguments by a union of a class and one above it: the first member takes what both would. As alternatives
    they take none of the arguments. -/
theorem annotated_union_further :
    let ms : List TypeExpr := [.named .bool, .named .int]
    let g : Opening := .further [some (.named .text)]
    let types : List TypeExpr := [.named .text, .named .bool, .literal [.int 1]]
    Separate ms ∧ (∀ t ∈ g.own types, t.set? = none ∧ ∀ m ∈ ms, ∃ o, matchPattern m t = .ok o) ∧
      g.matched (flattened .union ms) types = .ok (some [.named .text, .named .bool, .named .int]) ∧
      g.own [.named .text, .named .bool, .named .int] = [.named .bool, .named .int] ∧
      ∀ r, g.matched (joined ms) types ≠ .ok (some r) := by
  intro ms g types
  have hms : Separate ms :=
    ⟨List.cons_ne_nil _ _, by simp [ms, same], by simp [ms, set?], rfl⟩
  have hown : ∀ t ∈ g.own types, t.set? = none ∧ ∀ m ∈ ms, ∃ o, matchPattern m t = .ok o := by
    intro t ht
    rcases List.mem_pair.mp ht with rfl | rfl
    · exact ⟨rfl, by simp [ms, matchPattern_named]⟩
    · exact ⟨rfl, by simp [ms, matchPattern, matchHead]⟩
  have hreading := (annotated_union hms hown).2.2
  have hunion : flattened .union ms = .union ms := by simp [flattened, members, TypeExpr.distinct, same, ms]
  refine ⟨hms, hown, ?_, rfl, hreading.never (Nat.lt_succ_self 1) rfl (List.cons_ne_nil _ _)⟩
  rw [hunion]
  rfl

/-- A function of either of two classes takes an object of the first, unless the two are joined to alternatives. -/
theorem alternatives_never_matched :
    let matched (t : TypeExpr) : Action TypeStore (Option (List TypeExpr)) := do
      let s ← Signature.ofMade [some t] none false
      s.matchMade [.named .int]
    (matched (.union [.named .int, .named .text]) .empty).1 = .ok (some [.named .int]) ∧
      (matched (.alternatives [.named .int, .named .text]) .empty).1 = .ok none := by
  have hflattened (spelling : List TypeExpr → TypeExpr) :
      flattened spelling [.named .int, .named .text] = spelling [.named .int, .named .text] := by
    simp [flattened, members, TypeExpr.distinct, same]
  constructor
  · show matchTypes ⟨[patterns (flattened .union [.named .int, .named .text])], none⟩ [.named .int] = _
    rw [hflattened]
    rfl
  · show matchTypes ⟨[patterns (flattened .alternatives [.named .int, .named .text])], none⟩ [.named .int] = _
    rw [hflattened]
    rfl

end Opening

end Dataflow
