import Dataflow.Proofs.Grounded

/-! Loops inside one another. A sequence of moves that leaves every loop that it enters, and leaves or goes on with no
    other one, gives back the stack and the identifiers that it found. In between, its loops stand on top of that stack,
    each in the iteration that it was brought to, whatever was entered and left inside of it. -/

namespace Dataflow

/-! ### Open loops -/

/-- Loops that are open, the innermost first: the name of each with how often it went on since it was entered. -/
abbrev OpenLoops := List (String × Nat)

namespace Move

/-- The open loops after a move. Only the innermost one can be left or go on. -/
def onLoops : OpenLoops → Move → Option OpenLoops
  | ls, .enter name => some ((name, 0) :: ls)
  | (name, k) :: ls, .nextIteration => some ((name, k + 1) :: ls)
  | _ :: ls, .exit => some ls
  | _, _ => none

/-- The loops that moves have entered and not left, unless one of the moves is about any other loop. -/
def opened (ms : List Move) : Option OpenLoops := ms.foldlM onLoops []

/-- Every loop that is left or goes on was entered before, and every loop that is entered is left. -/
def WellNested (ms : List Move) : Prop := opened ms = some []

/-- No loop goes on more often than can be written. -/
def Countable (ms : List Move) : Prop :=
  ∀ before after ls, ms = before ++ after → opened before = some ls → ∀ l ∈ ls, l.2 < 10 ^ Text.longestNumeral

/-- The moves one after another, up to the first that fails. -/
def performAll (ms : List Move) : Action Run Unit := ms.forM perform

variable {ms ns : List Move} {m : Move} {ls : OpenLoops}

theorem opened_concat (ms : List Move) (m : Move) : opened (ms ++ [m]) = opened ms >>= fun ls => onLoops ls m := by
  rw [opened, List.foldlM_append]
  congr 1
  funext ls
  cases h : onLoops ls m <;> simp [List.foldlM_cons, h]

/-- What has open loops has had them all along. -/
theorem exists_opened_of_append (h : opened (ms ++ ns) = some ls) : ∃ outer, opened ms = some outer := by
  rw [opened, List.foldlM_append] at h
  obtain ⟨outer, houter, -⟩ := Option.bind_eq_some_iff.mp h
  exact ⟨outer, houter⟩

theorem Countable.of_append (h : Countable (ms ++ ns)) : Countable ms := fun before after ls heq =>
  h before (after ++ ns) ls (by rw [heq, List.append_assoc])

theorem Countable.last (h : Countable ms) (hms : opened ms = some ls) : ∀ l ∈ ls, l.2 < 10 ^ Text.longestNumeral :=
  h ms [] ls (List.append_nil ms).symm hms

/-- A loop that is open was entered before it went on. -/
theorem lt_length_of_opened (h : opened ms = some ls) : ∀ l ∈ ls, l.2 < ms.length := by
  induction ms using List.reverseRecOn generalizing ls with
  | nil =>
    cases h
    nofun
  | append_singleton ms m ih =>
    rw [opened_concat] at h
    obtain ⟨outer, houter, hm⟩ := Option.bind_eq_some_iff.mp h
    have hbefore : ∀ l ∈ outer, l.2 < (ms ++ [m]).length := fun l hl => by
      rw [List.length_append]
      exact Nat.lt_add_right 1 (ih houter l hl)
    cases m with
    | enter name =>
      cases hm
      exact List.forall_mem_cons.mpr ⟨by simp, hbefore⟩
    | nextIteration =>
      cases outer with
      | nil => cases hm
      | cons l outer =>
        cases hm
        refine List.forall_mem_cons.mpr ⟨?_, fun l hl => hbefore l (List.mem_cons_of_mem _ hl)⟩
        rw [List.length_append]
        exact Nat.succ_lt_succ (ih houter l List.mem_cons_self)
    | exit =>
      cases outer with
      | nil => cases hm
      | cons l outer =>
        cases hm
        exact fun l hl => hbefore l (List.mem_cons_of_mem _ hl)
    | restore frames => cases outer <;> cases hm
    | store node o => cases outer <;> cases hm

theorem countable_of_length (h : ms.length ≤ 10 ^ Text.longestNumeral) : Countable ms := by
  rintro before after ls rfl hls l hl
  rw [List.length_append] at h
  exact Nat.lt_of_lt_of_le (lt_length_of_opened hls l hl) (Nat.le_trans (Nat.le_add_right _ _) h)

/-- One loop that goes on over and over again. -/
theorem opened_replicate (name : String) (n : Nat) :
    opened (.enter name :: List.replicate n .nextIteration) = some [(name, n)] := by
  induction n with
  | zero => rfl
  | succ n ih =>
    rw [List.replicate_succ', ← List.cons_append, opened_concat, ih]
    rfl

theorem performAll_append (ms ns : List Move) (r : Run) :
    performAll (ms ++ ns) r = (performAll ms >>= fun _ => performAll ns) r := by
  rw [performAll, List.forM_eq_forM, List.forM_append]
  rfl

theorem performAll_singleton (m : Move) : performAll [m] = m.perform := by
  rw [performAll, List.forM_eq_forM, List.forM_cons, List.forM_nil]
  funext r
  rw [Action.bind_apply]
  rcases m.perform r with ⟨e | ⟨⟩, t⟩ <;> rfl

theorem performAll_concat {r t : Run} (h : performAll ms r = (.ok (), t)) (m : Move) :
    performAll (ms ++ [m]) r = m.perform t := by
  rw [performAll_append, Action.bind_ok h, performAll_singleton]

/-- Moves end at the first one that fails. -/
theorem performAll_error {r t : Run} {e : Failure} (h : performAll ms r = (.ok (), t)) (hm : (m.perform t).1 = .error e)
    (ns : List Move) : (performAll (ms ++ [m] ++ ns) r).1 = .error e := by
  have hconcat := performAll_concat h m
  rcases hperform : m.perform t with ⟨o, u⟩
  rw [hperform] at hm hconcat
  obtain rfl : o = .error e := hm
  rw [performAll_append, Action.bind_error hconcat]

end Move

/-! ### Identifiers of higher stacks -/

namespace Frame

variable {fs : List Frame}

/-- A stack has an identifier as soon as each of its frames contributes to it. -/
theorem exists_contextId_iff : (∃ id, contextId fs = .ok id) ↔ ∀ f ∈ fs, ∃ part, f.segment = .ok part := by
  constructor
  · rintro ⟨id, hid⟩ f hf
    obtain ⟨parts, hparts, -⟩ := Outcome.bind_eq_ok.mp hid
    exact Outcome.ok_of_mapM hparts hf
  · intro h
    cases hparts : fs.mapM segment with
    | error e =>
      obtain ⟨f, hf, herror⟩ := Outcome.mapM_error hparts
      obtain ⟨part, hpart⟩ := h f hf
      rw [hpart] at herror
      cases herror
    | ok parts => exact ⟨"/".intercalate parts, by rw [contextId, hparts]; rfl⟩

theorem exists_contextId_append {id : String} (h : contextId fs = .ok id) (as : List Activation) :
    ∃ id, contextId (fs ++ as.map Activation.frame) = .ok id := by
  refine exists_contextId_iff.mpr (List.forall_mem_append.mpr ⟨exists_contextId_iff.mp ⟨id, h⟩, fun f hf => ?_⟩)
  obtain ⟨a, -, rfl⟩ := List.mem_map.mp hf
  exact ⟨a.segment, Activation.segment_frame a⟩

end Frame

/-! ### Moves on top of a context -/

namespace Context

open Activation (frame first next mark)

/-- The context inside of more loops: their frames are on top of its stack, and their identifiers before its own. -/
def inside (c : Context) (as : List Activation) (ids : List String) (lastId : Nat) : Context :=
  { c with frames := c.frames ++ as.map frame, ids := ids ++ c.ids, lastId }

variable {c : Context} {a : Activation} {id : String}

theorem inside_nil (c : Context) : c.inside [] [] c.lastId = c := by
  rw [inside, List.map_nil, List.append_nil, List.nil_append]

theorem currentFrame_inside (c : Context) (as : List Activation) (a : Activation) (ids : List String) (n : Nat) :
    (c.inside (as ++ [a]) ids n).currentFrame = a.frame := by
  rw [currentFrame, inside, List.map_append, List.map_singleton, ← List.append_assoc, List.getLastD_concat]

theorem dropLast_inside (c : Context) (as : List Activation) (a : Activation) (ids : List String) (n : Nat) :
    (c.inside (as ++ [a]) ids n).frames.dropLast = c.frames ++ as.map frame := by
  rw [inside, List.map_append, List.map_singleton, ← List.append_assoc, List.dropLast_concat]

theorem in_loop_inside (hroot : rooted c.frames = true) (as : List Activation) (a : Activation) (ids : List String)
    (n : Nat) : ¬(c.inside (as ++ [a]) ids n).frames.length ≤ 1 := by
  have hpos : 0 < c.frames.length := by
    cases hframes : c.frames with
    | nil => rw [hframes] at hroot; cases hroot
    | cons f fs => exact Nat.succ_pos _
  simp only [inside, List.length_append, List.length_map, List.length_singleton]
  omega

theorem enterFrame_inside (hid : Frame.contextId c.frames = .ok id) (as : List Activation) (ids : List String) (n : Nat)
    (name : String) (s : Session) : ∃ t new, enterFrame (.text name) (s, c.inside as ids n) =
      (.ok (), t, c.inside (as ++ [first n name]) (new :: ids) (n + 1)) := by
  have hframes : (c.inside as ids n).entering (.text name) = c.frames ++ (as ++ [first n name]).map frame := by
    rw [entering, inside, List.map_append, List.append_assoc]
    rfl
  obtain ⟨new, hnew⟩ := Frame.exists_contextId_append hid (as ++ [first n name])
  rw [enterFrame_apply, hframes, hnew]
  exact ⟨_, new, rfl⟩

theorem nextIteration_inside (hroot : rooted c.frames = true) (hid : Frame.contextId c.frames = .ok id)
    (as : List Activation) (ids : List String) (n : Nat) (ha : a.iteration + 1 < 10 ^ Text.longestNumeral)
    (old : String) : ∃ new, nextIteration (c.inside (as ++ [a]) (old :: ids) n) =
      (.ok (), c.inside (as ++ [a.next n ha]) (new :: ids) (n + 1)) := by
  have hframes : (c.inside (as ++ [a]) (old :: ids) n).continuing (.int (a.iteration + 1 : Nat)) =
      c.frames ++ (as ++ [a.next n ha]).map frame := by
    rw [continuing, dropLast_inside, currentFrame_inside, List.map_append, List.append_assoc]
    rfl
  have hsuccessor : a.frame.iteration.successor = .ok (.int (a.iteration + 1 : Nat)) := successor_natCast a.iteration
  obtain ⟨new, hnew⟩ := Frame.exists_contextId_append hid (as ++ [a.next n ha])
  rw [nextIteration_apply, if_neg (in_loop_inside hroot as a _ n), currentFrame_inside, hsuccessor]
  simp only [hframes, hnew]
  exact ⟨new, rfl⟩

/-- A loop does not go on once its number would be too long to be written. -/
theorem nextIteration_inside_error (hroot : rooted c.frames = true) (as : List Activation) (ids : List String) (n : Nat)
    (ha : ¬a.iteration + 1 < 10 ^ Text.longestNumeral) :
    ∃ e, (nextIteration (c.inside (as ++ [a]) ids n)).1 = .error e := by
  have hsuccessor : a.frame.iteration.successor = .ok (.int (a.iteration + 1 : Nat)) := successor_natCast a.iteration
  rw [nextIteration_apply, if_neg (in_loop_inside hroot as a _ n), currentFrame_inside, hsuccessor]
  cases hid : Frame.contextId ((c.inside (as ++ [a]) ids n).continuing (.int (a.iteration + 1 : Nat))) with
  | error e => exact ⟨e, by simp only [hid]⟩
  | ok id =>
    have hmem : successorFrame n a ∈ (c.inside (as ++ [a]) ids n).continuing (.int (a.iteration + 1 : Nat)) := by
      rw [continuing, currentFrame_inside]
      exact List.mem_append_right _ List.mem_cons_self
    obtain ⟨part, hpart⟩ := Frame.exists_contextId_iff.mp ⟨id, hid⟩ _ hmem
    rw [segment_successorFrame n ha] at hpart
    cases hpart

theorem exitFrame_inside (hroot : rooted c.frames = true) (as : List Activation) (a : Activation) (ids : List String)
    (n : Nat) (old : String) (s : Session) :
    ∃ t, exitFrame (s, c.inside (as ++ [a]) (old :: ids) n) = (.ok (), t, c.inside as ids n) := by
  have hleave : (c.inside (as ++ [a]) (old :: ids) n).leave = c.inside as ids n := by
    rw [leave, dropLast_inside]
    rfl
  have hids : (c.inside (as ++ [a]) (old :: ids) n).ids ≠ [] := List.cons_ne_nil _ _
  rw [exitFrame_apply, if_neg (in_loop_inside hroot as a _ n), if_neg hids, hleave]
  exact ⟨_, rfl⟩

end Context

/-! ### Sequences of moves -/

namespace Run

open Activation (mark)
open Move (onLoops opened performAll)

/-- A run that has gone into some loops, and has not changed anything else but the log and the number of the latest
    frame. -/
def Within (r : Run) (ls : OpenLoops) (t : Run) : Prop :=
  ∃ session as ids n, t = ⟨session, r.context.inside as ids n, r.values⟩ ∧ as.map mark = ls.reverse ∧
    ids.length = ls.length

variable {r t : Run} {ls ls' : OpenLoops} {id : String} {m : Move} {ms : List Move}

theorem within_self (r : Run) : r.Within [] r :=
  ⟨r.session, [], [], r.context.lastId, by rw [Context.inside_nil], rfl, rfl⟩

theorem inContext_ok {α : Type} {a : Action (Session × Context) α} {x : α} {s : Session} {c : Context}
    (h : a (r.session, r.context) = (.ok x, s, c)) : inContext a r = (.ok x, ⟨s, c, r.values⟩) := by
  rw [inContext_apply, h]

theorem exists_innermost {as : List Activation} {ids : List String} {l : String × Nat}
    (has : as.map mark = (l :: ls).reverse) (hids : ids.length = (l :: ls).length) :
    ∃ bs a old rest, as = bs ++ [a] ∧ bs.map mark = ls.reverse ∧ a.mark = l ∧ ids = old :: rest ∧
      rest.length = ls.length := by
  rw [List.reverse_cons] at has
  obtain ⟨bs, cs, rfl, hbs, hcs⟩ := List.map_eq_append_iff.mp has
  obtain ⟨a, rfl, ha⟩ := List.map_eq_singleton_iff.mp hcs
  obtain ⟨old, rest, rfl⟩ := List.exists_cons_of_length_eq_add_one hids
  exact ⟨bs, a, old, rest, rfl, hbs, ha, rfl, Nat.succ.inj hids⟩

/-- A move goes on from one set of open loops to the next. -/
theorem Within.perform (hroot : Context.rooted r.context.frames = true)
    (hid : Frame.contextId r.context.frames = .ok id) (h : r.Within ls t) (hm : onLoops ls m = some ls')
    (hcount : ∀ l ∈ ls', l.2 < 10 ^ Text.longestNumeral) :
    ∃ u, m.perform t = (.ok (), u) ∧ r.Within ls' u := by
  obtain ⟨s, as, ids, n, rfl, has, hids⟩ := h
  cases m with
  | enter name =>
    cases hm
    obtain ⟨s', new, henter⟩ := Context.enterFrame_inside hid as ids n name s
    refine ⟨_, inContext_ok henter, s', as ++ [.first n name], new :: ids, n + 1, rfl, ?_, congrArg (· + 1) hids⟩
    rw [List.map_append, has, List.reverse_cons]
    rfl
  | nextIteration =>
    cases ls with
    | nil => cases hm
    | cons l ls =>
      cases hm
      obtain ⟨bs, a, old, rest, rfl, hbs, rfl, rfl, hrest⟩ := exists_innermost has hids
      have hk : a.iteration + 1 < 10 ^ Text.longestNumeral := hcount _ List.mem_cons_self
      obtain ⟨new, hnext⟩ := Context.nextIteration_inside hroot hid bs rest n hk old
      have hsecond : Context.nextIteration.onSecond (s, r.context.inside (bs ++ [a]) (old :: rest) n) =
          (.ok (), s, r.context.inside (bs ++ [a.next n hk]) (new :: rest) (n + 1)) := by
        rw [Action.onSecond_apply, hnext]
      refine ⟨_, inContext_ok hsecond, s, bs ++ [a.next n hk], new :: rest, n + 1, rfl, ?_, congrArg (· + 1) hrest⟩
      rw [List.map_append, hbs, List.reverse_cons]
      rfl
  | exit =>
    cases ls with
    | nil => cases hm
    | cons l ls =>
      cases hm
      obtain ⟨bs, a, old, rest, rfl, hbs, -, rfl, hrest⟩ := exists_innermost has hids
      obtain ⟨s', hexit⟩ := Context.exitFrame_inside hroot bs a rest n old s
      exact ⟨_, inContext_ok hexit, s', bs, rest, n, rfl, hbs, hrest⟩
  | restore frames => cases ls <;> cases hm
  | store node o => cases ls <;> cases hm

/-- Moves that are about their own loops alone do not fail, and leave a run in those that are open. -/
theorem exists_within (hroot : Context.rooted r.context.frames = true) (hid : Frame.contextId r.context.frames = .ok id)
    (hms : opened ms = some ls) (hcount : Move.Countable ms) :
    ∃ t, performAll ms r = (.ok (), t) ∧ r.Within ls t := by
  induction ms using List.reverseRecOn generalizing ls with
  | nil =>
    cases hms
    exact ⟨r, rfl, within_self r⟩
  | append_singleton ms m ih =>
    have hopened := hms
    rw [Move.opened_concat] at hms
    obtain ⟨outer, houter, hm⟩ := Option.bind_eq_some_iff.mp hms
    obtain ⟨t, ht, hwithin⟩ := ih houter hcount.of_append
    obtain ⟨u, hu, hwithin⟩ := hwithin.perform hroot hid hm (hcount.last hopened)
    exact ⟨u, by rw [Move.performAll_concat ht, hu], hwithin⟩

end Run

/-- From every context whose stack has an identifier, a sequence of moves that keeps to its own loops gives back the stack
    and the identifiers, and changes nothing else but the log and the number of the latest frame. No move of it fails; at
    every point the loops that are open stand on top of the stack that was there, each with the number of times that it
    has gone on. -/
theorem ContextUse.wellNested_restores (s : Session) (uses : List ContextUse) (values : Values) {ms : List Move}
    {id : String} (hid : Frame.contextId (run s uses).2.frames = .ok id) (hms : Move.WellNested ms)
    (hcount : Move.Countable ms) :
    let r : Run := ⟨(run s uses).1, (run s uses).2, values⟩
    (∃ session lastId, Move.performAll ms r = (.ok (), ⟨session, { r.context with lastId }, values⟩)) ∧
    ∀ before after, ms = before ++ after → ∃ ls t frames, Move.opened before = some ls ∧
      Move.performAll before r = (.ok (), t) ∧ t.context.frames = r.context.frames ++ frames ∧
      frames.map (fun f => (f.name, f.iteration)) = ls.reverse.map fun l => (.text l.1, .int l.2) := by
  intro r
  have hroot : Context.rooted r.context.frames = true := (grounded_run s uses).frames
  constructor
  · obtain ⟨t, ht, session, as, ids, n, rfl, has, hids⟩ := Run.exists_within hroot hid hms hcount
    obtain rfl : as = [] := List.map_eq_nil_iff.mp has
    obtain rfl : ids = [] := List.eq_nil_of_length_eq_zero hids
    refine ⟨session, n, ht.trans ?_⟩
    rw [Context.inside, List.map_nil, List.append_nil, List.nil_append]
  · rintro before after rfl
    obtain ⟨ls, hls⟩ := Move.exists_opened_of_append hms
    obtain ⟨t, ht, session, as, ids, n, rfl, has, -⟩ := Run.exists_within hroot hid hls hcount.of_append
    refine ⟨ls, _, as.map Activation.frame, hls, ht, rfl, ?_⟩
    rw [← has, List.map_map, List.map_map]
    rfl

namespace ContextUse

open Move (WellNested opened performAll)

/-- Two loops inside of a third one, in which the run is already. -/
theorem wellNested_restores_two_loops :
    let s := Session.initial [] false false
    let uses : List ContextUse := [.enterFrame (.text "x")]
    let ms : List Move :=
      [.enter "a", .nextIteration, .enter "b", .nextIteration, .nextIteration, .exit, .nextIteration, .exit]
    let r : Run := ⟨(run s uses).1, (run s uses).2, []⟩
    r.context.ids = ["/x-0", ""] ∧
    (∃ session lastId, performAll ms r = (.ok (), ⟨session, { r.context with lastId }, []⟩)) ∧
    ∃ t frames, performAll (ms.take 5) r = (.ok (), t) ∧ t.context.frames = r.context.frames ++ frames ∧
      frames.map (fun f => (f.name, f.iteration)) = [(.text "a", .int 1), (.text "b", .int 2)] := by
  intro s uses ms r
  have hx : (run s uses).2.At [.first 0 "x"] := by
    have henter := Context.enterFrame_eq Context.at_initial "x" s
    have hrun : run s uses = (Context.enterFrame (.text "x") (s, .initial)).2 := rfl
    rw [hrun, henter]
    exact Context.at_movedTo _ _ _
  have hid : Frame.contextId (run s uses).2.frames = .ok (Activation.contextId [.first 0 "x"]) := by
    rw [hx.frames_eq, Activation.contextId_stack]
  have hten : 10 ≤ 10 ^ Text.longestNumeral := Nat.le_self_pow (by decide) 10
  have hshort : ms.length ≤ 10 ^ Text.longestNumeral := Nat.le_trans (show 8 ≤ 10 by decide) hten
  have hnested : WellNested ms := rfl
  obtain ⟨hall, hprefix⟩ := wellNested_restores s uses [] hid hnested (Move.countable_of_length hshort)
  obtain ⟨ls, t, frames, hls, ht, hframes, hmarks⟩ := hprefix (ms.take 5) (ms.drop 5) rfl
  obtain rfl : [("b", 2), ("a", 1)] = ls := Option.some.inj hls
  have hname : Activation.contextId ([] ++ [.first 0 "x"]) = "/x-0" := by
    show "/".intercalate ["", "x" ++ "-" ++ toString 0] = _
    rfl
  have hids : (run s uses).2.ids = ["/x-0", ""] := by
    rw [hx.ids_eq, ← List.nil_append [Activation.first 0 "x"], Activation.ids_concat, Activation.ids_nil, hname]
  exact ⟨by simpa only [r] using hids, hall, t, frames, ht, hframes, hmarks⟩

/-- A loop cannot be entered where the stack has no identifier, because the number of an iteration on it is too long to be
    written; and no loop can go on until its own number is. -/
theorem wellNested_fails_without_numeral :
    let s := Session.initial [] false false
    let last : List Frame := [.root, ⟨.int (1 : Nat), .text "a", .int (10 ^ Text.longestNumeral - 1 : Nat)⟩]
    let p := run s [.setFrames last, .nextIteration]
    let endless : List Move := .enter "a" :: List.replicate (10 ^ Text.longestNumeral) .nextIteration ++ [.exit]
    (p.2.frames = [.root, ⟨.int (1 : Nat), .text "a", .int (10 ^ Text.longestNumeral : Nat)⟩] ∧
      WellNested [.enter "b", .exit] ∧ (performAll [.enter "b", .exit] ⟨p.1, p.2, []⟩).1 = .error .badValue) ∧
    WellNested endless ∧ ∃ e, (performAll endless (.initial s)).1 = .error e := by
  intro s last p endless
  have hpos : 0 < 10 ^ Text.longestNumeral := Nat.pow_pos (by decide)
  constructor
  · let a : Activation := ⟨1, "a", 10 ^ Text.longestNumeral - 1, Nat.one_pos, Nat.sub_lt hpos Nat.one_pos⟩
    have hover : a.iteration + 1 = 10 ^ Text.longestNumeral := Nat.sub_add_cancel hpos
    have hlast : ¬a.iteration + 1 < 10 ^ Text.longestNumeral := by
      rw [hover]
      exact Nat.lt_irrefl _
    have hset := Context.setFrames_eq Context.at_initial [a]
    have hnext := Context.nextIteration_unwritten (Context.at_movedTo Context.initial ([] ++ [a]) 0) hlast
    let c := (Context.initial.movedTo [a] 0).renewed (Activation.stack [] ++ [Context.successorFrame 0 a])
    have hp : p = (s, c) := by
      show (Context.nextIteration.onSecond ((Context.setFrames last).onSecond (s, .initial)).2).2 = _
      rw [Action.onSecond_apply, Action.onSecond_apply, show last = Activation.stack [a] from rfl, hset]
      exact congrArg (fun q => (s, q.2)) hnext
    have hentering : Frame.contextId (c.entering (.text "b")) = .error .badValue :=
      Activation.contextId_error [] [.entered 2 (.text "b")] (Context.segment_successorFrame 0 hlast)
    have henter : ((Move.enter "b").perform ⟨p.1, p.2, []⟩).1 = .error .badValue := by
      rw [hp, Move.perform, Run.inContext_apply, Context.enterFrame_apply, hentering]
    have hfails : (performAll ([] ++ [.enter "b"] ++ [.exit]) ⟨p.1, p.2, []⟩).1 = .error .badValue :=
      Move.performAll_error rfl henter [.exit]
    refine ⟨?_, rfl, hfails⟩
    rw [hp, ← hover]
    rfl
  · obtain ⟨k, hk⟩ : ∃ k, 10 ^ Text.longestNumeral = k + 1 :=
      Nat.exists_eq_succ_of_ne_zero hpos.ne'
    let start : List Move := .enter "a" :: List.replicate k .nextIteration
    have hendless : endless = start ++ [.nextIteration] ++ [.exit] := by
      simp only [endless, start, hk, List.replicate_succ', List.cons_append]
    have hnested : WellNested endless := by
      rw [hendless, WellNested, Move.opened_concat, Move.opened_concat, Move.opened_replicate]
      rfl
    have hcount : Move.Countable start := Move.countable_of_length (by simp [start, hk])
    have hroot : Frame.contextId (Run.initial s).context.frames = .ok "" := Activation.contextId_stack []
    obtain ⟨t, ht, session, as, ids, n, rfl, has, -⟩ := Run.exists_within rfl hroot (Move.opened_replicate "a" k) hcount
    obtain ⟨a, rfl, ha⟩ := List.map_eq_singleton_iff.mp has
    have hlast : ¬a.iteration + 1 < 10 ^ Text.longestNumeral := by
      rw [hk, show a.iteration = k from congrArg Prod.snd ha]
      exact Nat.lt_irrefl _
    have hrooted : Context.rooted Context.initial.frames = true := rfl
    obtain ⟨e, he⟩ := Context.nextIteration_inside_error hrooted [] ids n hlast
    have hnext : (Move.nextIteration.perform ⟨session, Context.initial.inside [a] ids n, []⟩).1 = .error e := by
      rw [Move.perform, Run.inContext_apply, Action.onSecond_apply]
      exact he
    exact ⟨hnested, e, by rw [hendless]; exact Move.performAll_error ht hnext [.exit]⟩

end ContextUse

end Dataflow
