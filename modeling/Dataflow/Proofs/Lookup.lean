import Dataflow.Proofs.Joining
import Mathlib.Data.List.Forall2
import Mathlib.Data.List.MinMax

/-! What a lookup finds, in terms of the entries alone. An entry qualifies by its signature and its predicate, and
    leads if no entry that qualifies has a higher priority. The lookup answers with the only entry that leads, and
    otherwise says how many there are. The order of the table has no part in this. -/

namespace Dataflow

/-- One of the patterns matches the type. -/
def TypeExpr.Fits (ps : List TypeExpr) (t : TypeExpr) : Prop := ∃ p ∈ ps, ∃ m, matchPattern p t = .ok (some m)

/-- A signature takes as many types as it has parameters, each by the patterns of its own parameter, and further
    types only by the patterns that it has for these. -/
structure Signature.Takes (s : Signature) (types : List TypeExpr) : Prop where
  positional : List.Forall₂ TypeExpr.Fits s.args (types.take s.args.length)
  further : ∀ t ∈ types.drop s.args.length, ∃ ps ∈ s.rest, TypeExpr.Fits ps t

/-- The signature of the entry takes the types, and its predicate holds of them. -/
def Entry.Qualifies (types : List TypeExpr) (e : Entry) : Prop :=
  e.signature.Takes types ∧ ∀ p ∈ e.predicate, p.holds types = .ok true

variable {types : List TypeExpr}

/-! ### What a match decides -/

namespace TypeExpr

variable {ps : List TypeExpr} {t : TypeExpr} {o : Option TypeExpr}

theorem fits_iff_of_matchFirst (h : matchFirst ps t = .ok o) : Fits ps t ↔ o.isSome := by
  induction ps with
  | nil =>
    obtain rfl : none = o := Except.ok.inj h
    simp [Fits]
  | cons p ps ih =>
    rw [matchFirst] at h
    obtain ⟨m, hm, h⟩ := Outcome.bind_eq_ok.mp h
    cases m with
    | some m =>
      obtain rfl : some m = o := Except.ok.inj h
      exact iff_of_true ⟨p, List.mem_cons_self, m, hm⟩ rfl
    | none =>
      rw [← ih h]
      constructor
      · rintro ⟨q, hq, m, hmatch⟩
        rcases List.mem_cons.mp hq with rfl | hq
        · rw [hm] at hmatch
          cases hmatch
        · exact ⟨q, hq, m, hmatch⟩
      · rintro ⟨q, hq, m, hmatch⟩
        exact ⟨q, List.mem_cons_of_mem _ hq, m, hmatch⟩

end TypeExpr

namespace Signature

open TypeExpr

theorem fits_iff_of_matchEach {pss : List (List TypeExpr)} {ts : List TypeExpr} {o : Option (List TypeExpr)}
    (h : matchEach pss ts = .ok o) (hlength : pss.length = ts.length) : List.Forall₂ Fits pss ts ↔ o.isSome := by
  induction pss generalizing ts o with
  | nil =>
    obtain rfl : ts = [] := List.eq_nil_of_length_eq_zero hlength.symm
    obtain rfl : some [] = o := Except.ok.inj h
    exact iff_of_true .nil rfl
  | cons ps pss ih =>
    cases ts with
    | nil => cases hlength
    | cons t ts =>
      rw [matchEach] at h
      obtain ⟨m, hm, h⟩ := Outcome.bind_eq_ok.mp h
      rw [List.forall₂_cons, fits_iff_of_matchFirst hm]
      cases m with
      | none =>
        obtain rfl : none = o := Except.ok.inj h
        simp
      | some m =>
        obtain ⟨ms, hms, h⟩ := Outcome.bind_eq_ok.mp h
        obtain rfl : ms.map (m :: ·) = o := Except.ok.inj h
        rw [ih hms (Nat.succ.inj hlength), Option.isSome_map]
        exact and_iff_right rfl

/-- The parameters of a signature, made as many as there are types. -/
theorem forall₂_append_replicate {as : List (List TypeExpr)} {ps ts : List TypeExpr}
    (h : as.length ≤ ts.length) :
    List.Forall₂ Fits (as ++ List.replicate (ts.length - as.length) ps) ts ↔
      List.Forall₂ Fits as (ts.take as.length) ∧ ∀ t ∈ ts.drop as.length, Fits ps t := by
  induction as generalizing ts with
  | nil =>
    induction ts with
    | nil => simp
    | cons t ts ih =>
      simp only [List.length_nil, Nat.sub_zero, List.nil_append, List.drop_zero, List.take_zero,
        List.forall₂_nil_left_iff, true_and] at ih ⊢
      rw [List.length_cons, List.replicate_succ, List.forall₂_cons, ih (Nat.zero_le _), List.forall_mem_cons]
  | cons a as ih =>
    cases ts with
    | nil => cases h
    | cons t ts =>
      rw [List.length_cons, List.length_cons, Nat.succ_sub_succ, List.cons_append, List.forall₂_cons,
        List.take_succ_cons, List.drop_succ_cons, List.forall₂_cons, ih (Nat.le_of_succ_le_succ h), and_assoc]

variable {s : Signature}

theorem takes_iff_of_fixed (hrest : s.rest = none) : s.Takes types ↔ List.Forall₂ Fits s.args types := by
  constructor
  · intro ⟨hpositional, hfurther⟩
    have hdrop : types.drop s.args.length = [] := by
      refine List.eq_nil_iff_forall_not_mem.mpr fun t ht => ?_
      obtain ⟨ps, hps, -⟩ := hfurther t ht
      rw [hrest] at hps
      cases hps
    rwa [List.take_of_length_le (List.drop_eq_nil_iff.mp hdrop)] at hpositional
  · intro hfits
    have hlength := hfits.length_eq
    constructor
    · rwa [hlength, List.take_length]
    · rw [hlength, List.drop_length]
      nofun

theorem takes_iff_of_rest {ps : List TypeExpr} (hrest : s.rest = some ps) (h : s.args.length ≤ types.length) :
    s.Takes types ↔
      List.Forall₂ Fits (s.args ++ List.replicate (types.length - s.args.length) ps) types := by
  have hfurther : (∀ t ∈ types.drop s.args.length, ∃ qs ∈ s.rest, Fits qs t) ↔
      ∀ t ∈ types.drop s.args.length, Fits ps t :=
    forall₂_congr fun t _ => by simp [hrest]
  rw [forall₂_append_replicate h, ← hfurther]
  exact ⟨fun ht => ⟨ht.positional, ht.further⟩, fun ⟨hpositional, hrest⟩ => ⟨hpositional, hrest⟩⟩

theorem takes_iff_of_matchTypes {o : Option (List TypeExpr)} (h : s.matchTypes types = .ok o) :
    s.Takes types ↔ o.isSome := by
  simp only [matchTypes] at h
  split at h
  · rename_i hfew
    obtain rfl : none = o := Except.ok.inj h
    refine iff_of_false (fun htakes => ?_) Bool.false_ne_true
    have hlength := htakes.positional.length_eq
    rw [List.length_take] at hlength
    omega
  rename_i hmany
  have hmany := Nat.not_lt.mp hmany
  split at h
  · rename_i hrest
    rw [takes_iff_of_fixed hrest]
    split at h
    · exact fits_iff_of_matchEach h (by omega)
    · rename_i hextra
      obtain rfl : none = o := Except.ok.inj h
      exact iff_of_false (fun hfits => hextra (by rw [hfits.length_eq, Nat.sub_self])) Bool.false_ne_true
  · rename_i ps hrest
    rw [takes_iff_of_rest hrest hmany]
    exact fits_iff_of_matchEach h (by rw [List.length_append, List.length_replicate, Nat.add_sub_cancel' hmany])

end Signature

theorem Entry.qualifies_iff_of_accepts {e : Entry} {b : Bool} (h : e.accepts types = .ok b) :
    e.Qualifies types ↔ b = true := by
  obtain ⟨o, ho, h⟩ := Outcome.bind_eq_ok.mp h
  rw [Qualifies, Signature.takes_iff_of_matchTypes ho]
  cases o with
  | none =>
    obtain rfl : false = b := Except.ok.inj h
    simp
  | some ms =>
    cases hp : e.predicate with
    | none =>
      rw [hp] at h
      obtain rfl : true = b := Except.ok.inj h
      simp
    | some p =>
      rw [hp] at h
      have hholds : p.holds types = .ok b := h
      simp [hholds]

/-! ### The entries that lead -/

namespace Table

variable {table : Table} {e : Entry} {f : Implementation}

/-- An entry that qualifies, with no other of a higher priority. -/
def Leads (table : Table) (types : List TypeExpr) (e : Entry) : Prop :=
  e.Qualifies types ∧ ∀ d ∈ table, d.Qualifies types → d.priority ≤ e.priority

open Classical in
/-- How many entries lead. -/
noncomputable def leaders (table : Table) (types : List TypeExpr) : Nat := table.countP (table.Leads types ·)

theorem accepting_top (h : ∀ e ∈ table, ∃ b, e.accepts types = .ok b) [DecidablePred (table.Leads types)] :
    ∃ es, accepting types table = .ok es ∧ top es = table.filter (table.Leads types ·) := by
  classical
  have haccepts : ∀ e ∈ table, e.accepts types = .ok (decide (e.Qualifies types)) := by
    intro e he
    obtain ⟨b, hb⟩ := h e he
    simp [hb, Entry.qualifies_iff_of_accepts hb]
  refine ⟨_, accepting_eq haccepts, ?_⟩
  rw [top, List.filter_filter]
  refine List.filter_congr fun e _ => Bool.eq_iff_iff.mpr ?_
  simp only [Bool.and_eq_true, List.all_eq_true, List.mem_filter, decide_eq_true_eq, and_imp]
  exact and_comm

/-- The table has one entry that leads: all others that qualify have a lower priority. -/
theorem filter_leads [DecidablePred (table.Leads types)] :
    table.filter (table.Leads types ·) = [e] ↔ ∃ before after, table = before ++ e :: after ∧
      e.Qualifies types ∧ ∀ d ∈ before ++ after, d.Qualifies types → d.priority < e.priority := by
  rw [List.filter_eq_cons_iff]
  refine exists_congr fun before => exists_congr fun after => and_congr_right fun htable => ?_
  have hmem (d : Entry) : d ∈ table ↔ d ∈ before ∨ d = e ∨ d ∈ after := by
    rw [htable, List.mem_append, List.mem_cons]
  rw [List.filter_eq_nil_iff]
  simp only [decide_eq_true_eq]
  constructor
  · rintro ⟨hbefore, ⟨he, hlead⟩, hafter⟩
    refine ⟨he, fun d hd hqualifies => ?_⟩
    have hle : d.priority ≤ e.priority := hlead d (by grind) hqualifies
    refine lt_of_le_of_ne hle fun heq => ?_
    have hleads : table.Leads types d := ⟨hqualifies, fun c hc hq => heq ▸ hlead c hc hq⟩
    rcases List.mem_append.mp hd with hd | hd
    · exact hbefore d hd hleads
    · exact hafter d hd hleads
  · rintro ⟨he, hlower⟩
    have hleads (d : Entry) (hd : d ∈ before ++ after) : ¬table.Leads types d := fun hlead =>
      absurd (hlead.2 e (by grind) he) (not_le.mpr (hlower d hd hlead.1))
    refine ⟨fun d hd => hleads d (List.mem_append_left _ hd), ⟨he, fun d hd hq => ?_⟩,
      fun d hd => hleads d (List.mem_append_right _ hd)⟩
    rcases (hmem d).mp hd with hd | rfl | hd
    · exact (hlower d (List.mem_append_left _ hd) hq).le
    · exact le_rfl
    · exact (hlower d (List.mem_append_right _ hd) hq).le

theorem exists_leads (he : e ∈ table) (hqualifies : e.Qualifies types) : ∃ d ∈ table, table.Leads types d := by
  classical
  cases hd : (table.filter (·.Qualifies types)).argmax (·.priority) with
  | none =>
    have hmem : e ∈ table.filter (·.Qualifies types) := List.mem_filter.mpr ⟨he, decide_eq_true hqualifies⟩
    rw [List.argmax_eq_none.mp hd] at hmem
    cases hmem
  | some d =>
    obtain ⟨hmem, hqualifies⟩ := List.mem_filter.mp (List.argmax_mem hd)
    exact ⟨d, hmem, of_decide_eq_true hqualifies, fun c hc hq =>
      List.le_of_mem_argmax (List.mem_filter.mpr ⟨hc, decide_eq_true hq⟩) hd⟩

theorem leaders_eq_zero : table.leaders types = 0 ↔ ∀ e ∈ table, ¬e.Qualifies types := by
  rw [leaders, List.countP_eq_zero]
  simp only [decide_eq_true_eq]
  constructor
  · intro hnone e he hqualifies
    obtain ⟨d, hd, hleads⟩ := exists_leads he hqualifies
    exact hnone d hd hleads
  · intro hnone e he hleads
    exact hnone e he hleads.1

theorem leads_perm {other : Table} (h : other.Perm table) : other.Leads types e ↔ table.Leads types e := by
  simp only [Leads, h.mem_iff]

/-! ### The lookup -/

theorem lookup_eq (h : ∀ e ∈ table, ∃ b, e.accepts types = .ok b) [DecidablePred (table.Leads types)] :
    table.lookup types = match table.filter (table.Leads types ·) with
      | [e] => .ok e.implementation
      | es => .error (.undispatched types es.length) := by
  obtain ⟨es, hes, htop⟩ := accepting_top h
  rw [lookup, hes, Outcome.ok_bind, htop]
  rfl

theorem lookup_eq_ok (h : ∀ e ∈ table, ∃ b, e.accepts types = .ok b) [DecidablePred (table.Leads types)] :
    table.lookup types = .ok f ↔ ∃ e, table.filter (table.Leads types ·) = [e] ∧ e.implementation = f := by
  rw [lookup_eq h]
  split
  · rename_i e heq
    rw [heq]
    simp
  · rename_i hne
    refine iff_of_false nofun ?_
    rintro ⟨e, he, -⟩
    exact hne e he

theorem lookup_eq_error (h : ∀ e ∈ table, ∃ b, e.accepts types = .ok b) {c : Failure} :
    table.lookup types = .error c ↔ table.leaders types ≠ 1 ∧ c = .undispatched types (table.leaders types) := by
  classical
  have hleaders : table.leaders types = (table.filter (table.Leads types ·)).length := by
    rw [leaders, List.countP_eq_length_filter]
  rw [lookup_eq h, hleaders]
  split
  · rename_i e heq
    simp [heq]
  · rename_i hne
    have hlength : (table.filter (table.Leads types ·)).length ≠ 1 := fun hone => by
      obtain ⟨e, he⟩ := List.length_eq_one_iff.mp hone
      exact hne e he
    rw [Except.error.injEq, eq_comm]
    exact (and_iff_right hlength).symm

/-- Tables with the same entries answer alike, whatever their order. -/
theorem lookup_perm {other : Table} (h : ∀ e ∈ table, ∃ b, e.accepts types = .ok b) (hperm : other.Perm table) :
    other.lookup types = table.lookup types := by
  classical
  have hother : ∀ e ∈ other, ∃ b, e.accepts types = .ok b := fun e he => h e (hperm.mem_iff.mp he)
  have hfilter : (other.filter (other.Leads types ·)).Perm (table.filter (table.Leads types ·)) := by
    simp only [leads_perm hperm]
    exact hperm.filter _
  rw [lookup_eq h, lookup_eq hother]
  split
  · rename_i e heq
    rw [heq, List.singleton_perm] at hfilter
    rw [← hfilter]
  · rename_i hne
    split
    · rename_i e heq
      rw [heq, List.perm_singleton] at hfilter
      exact absurd hfilter (hne e)
    · rw [hfilter.length_eq]

theorem message_of_lookup (h : ∀ e ∈ table, ∃ b, e.accepts types = .ok b) {c : Failure}
    (hc : table.lookup types = .error c) : c.message? = some (
      if table.leaders types = 0 then "no matching implementation for " ++ TypeExpr.names types
      else toString (table.leaders types) ++ " implementations match for " ++ TypeExpr.names types) := by
  obtain ⟨-, rfl⟩ := (lookup_eq_error h).mp hc
  cases table.leaders types <;> rfl

/-- A lookup that no match and no predicate breaks off finds the entry whose priority is above that of all others that
    qualify. Without such an entry it tells how many lead, none only where none qualifies. The order of the entries
    does not matter. -/
theorem lookup_selects_leader (h : ∀ e ∈ table, ∃ b, e.accepts types = .ok b) :
    (∀ f, table.lookup types = .ok f ↔ ∃ before e after, table = before ++ e :: after ∧ e.implementation = f ∧
        e.Qualifies types ∧ ∀ d ∈ before ++ after, d.Qualifies types → d.priority < e.priority) ∧
      (∀ c, table.lookup types = .error c ↔
        table.leaders types ≠ 1 ∧ c = .undispatched types (table.leaders types)) ∧
      (table.leaders types = 0 ↔ ∀ e ∈ table, ¬e.Qualifies types) ∧
      (∀ c, table.lookup types = .error c → c.message? = some (
        if table.leaders types = 0 then "no matching implementation for " ++ TypeExpr.names types
        else toString (table.leaders types) ++ " implementations match for " ++ TypeExpr.names types)) ∧
      ∀ other : Table, other.Perm table → other.lookup types = table.lookup types := by
  classical
  refine ⟨fun f => ?_, fun c => lookup_eq_error h, leaders_eq_zero, fun c => message_of_lookup h,
    fun other => lookup_perm h⟩
  rw [lookup_eq_ok h]
  simp only [filter_leads]
  constructor
  · rintro ⟨e, ⟨before, after, htable, he⟩, rfl⟩
    exact ⟨before, e, after, htable, rfl, he⟩
  · rintro ⟨before, e, after, htable, rfl, he⟩
    exact ⟨e, ⟨before, after, htable, he⟩, rfl⟩

/-- Both entries take a truth value, and both have a priority below zero: the higher one is found, whichever of them was
    added first. -/
theorem lookup_special_entry :
    let general : Entry := ⟨⟨[[.named .object]], some [.named .object]⟩, .named "general", none, -2⟩
    let special : Entry := ⟨⟨[[.named .int]], none⟩, .named "special", some (.constant true), -1⟩
    (∀ e ∈ [general, special], ∃ b, e.accepts [.named .bool] = .ok b) ∧
      Table.lookup [general, special] [.named .bool] = .ok (.named "special") ∧
      Table.lookup [special, general] [.named .bool] = Table.lookup [general, special] [.named .bool] := by
  intro general special
  have haccepts : ∀ e ∈ [general, special], ∃ b, e.accepts [.named .bool] = .ok b := by
    intro e he
    rcases List.mem_pair.mp he with rfl | rfl
    · exact ⟨true, rfl⟩
    · exact ⟨true, rfl⟩
  have hleader := lookup_selects_leader haccepts
  have hspecial : special.Qualifies [.named .bool] := (Entry.qualifies_iff_of_accepts rfl).mpr rfl
  refine ⟨haccepts, (hleader.1 _).mpr ⟨[general], special, [], rfl, rfl, hspecial, fun d hd _ => ?_⟩,
    hleader.2.2.2.2 _ (.swap _ _ _)⟩
  obtain rfl := List.mem_singleton.mp hd
  decide

/-! ### The lookup in one pass -/

/-- The entries that a pass over the table has accepted so far, and the highest priority among them. -/
structure Candidates where
  entries : Table
  highest : Option Int

namespace Candidates

def add (c : Candidates) (e : Entry) : Candidates where
  entries := c.entries ++ [e]
  highest := some (match c.highest with
    | none => e.priority
    | some p => if p < e.priority then e.priority else p)

def selected (c : Candidates) : Table := c.entries.filter fun e => some e.priority = c.highest

/-- One pass: every entry that accepts the types is a further candidate. -/
def scan (types : List TypeExpr) : Candidates → Table → Outcome Candidates
  | c, [] => .ok c
  | c, e :: es => do
    let taken ← e.accepts types
    scan types (if taken then c.add e else c) es

/-- The highest priority is that of a candidate, and none is above it. -/
structure Tracked (c : Candidates) : Prop where
  bound : ∀ e ∈ c.entries, ∃ p ∈ c.highest, e.priority ≤ p
  reached : ∀ p ∈ c.highest, ∃ e ∈ c.entries, e.priority = p

variable {c : Candidates}

theorem Tracked.add (h : c.Tracked) (e : Entry) : (c.add e).Tracked := by
  have hentries (d : Entry) : d ∈ (c.add e).entries ↔ d ∈ c.entries ∨ d = e := by
    rw [Candidates.add, List.mem_append, List.mem_singleton]
  cases hp : c.highest with
  | none =>
    have hhighest : (c.add e).highest = some e.priority := by simp only [Candidates.add, hp]
    refine ⟨fun d hd => ?_, fun p hq => ⟨e, (hentries e).mpr (Or.inr rfl), by grind⟩⟩
    rcases (hentries d).mp hd with hd | rfl
    · obtain ⟨p, hbound, -⟩ := h.bound d hd
      rw [hp] at hbound
      cases hbound
    · exact ⟨_, hhighest, Int.le_refl _⟩
  | some p =>
    obtain ⟨m, hm, hreach⟩ := h.reached p hp
    have hhighest : (c.add e).highest = some (if p < e.priority then e.priority else p) := by
      simp only [Candidates.add, hp]
    refine ⟨fun d hd => ⟨_, hhighest, ?_⟩, fun q hq => ?_⟩
    · rcases (hentries d).mp hd with hd | rfl
      · obtain ⟨q, hq, hle⟩ := h.bound d hd
        obtain rfl : p = q := Option.some.inj (hp.symm.trans hq)
        split <;> omega
      · split <;> omega
    · obtain rfl := Option.some.inj (hhighest.symm.trans hq)
      split
      · exact ⟨e, (hentries e).mpr (Or.inr rfl), rfl⟩
      · exact ⟨m, (hentries m).mpr (Or.inl hm), hreach⟩

theorem Tracked.foldl (h : c.Tracked) (es : Table) : (es.foldl Candidates.add c).Tracked := by
  induction es generalizing c with
  | nil => exact h
  | cons e es ih => exact ih (h.add e)

theorem entries_foldl (c : Candidates) (es : Table) : (es.foldl add c).entries = c.entries ++ es := by
  induction es generalizing c with
  | nil => exact (List.append_nil _).symm
  | cons e es ih => rw [List.foldl_cons, ih, add, List.append_assoc, List.singleton_append]

theorem Tracked.selected_eq (h : c.Tracked) : c.selected = top c.entries := by
  refine List.filter_congr fun e he => Bool.eq_iff_iff.mpr ?_
  rw [decide_eq_true_eq, List.all_eq_true]
  constructor
  · intro hhighest d hd
    obtain ⟨p, hp, hle⟩ := h.bound d hd
    obtain rfl : e.priority = p := Option.some.inj (hhighest.trans hp)
    exact decide_eq_true hle
  · intro hlead
    obtain ⟨p, hp, hle⟩ := h.bound e he
    obtain ⟨m, hm, hreach⟩ := h.reached p hp
    have hge : m.priority ≤ e.priority := of_decide_eq_true (hlead m hm)
    rw [hp, Int.le_antisymm hle (hreach ▸ hge)]

theorem scan_eq (c : Candidates) : scan types c table = accepting types table >>= fun es => .ok (es.foldl add c) := by
  induction table generalizing c with
  | nil => rfl
  | cons e es ih =>
    rw [scan, accepting]
    cases e.accepts types with
    | error f => rfl
    | ok taken =>
      rw [Outcome.ok_bind, Outcome.ok_bind, ih]
      cases accepting types es with
      | error f => rfl
      | ok rest => cases taken <;> rfl

end Candidates

/-- A lookup is one pass over the table that keeps the highest priority seen so far beside the candidates. -/
theorem lookup_eq_scan (table : Table) (types : List TypeExpr) :
    table.lookup types = Candidates.scan types ⟨[], none⟩ table >>= fun c => match c.selected with
      | [e] => .ok e.implementation
      | es => .error (.undispatched types es.length) := by
  have hstart : Candidates.Tracked ⟨[], none⟩ := ⟨nofun, nofun⟩
  rw [Candidates.scan_eq, lookup]
  cases accepting types table with
  | error f => rfl
  | ok es =>
    rw [Outcome.ok_bind, Outcome.ok_bind, Outcome.ok_bind, (hstart.foldl es).selected_eq, Candidates.entries_foldl]
    rfl

end Table

end Dataflow
