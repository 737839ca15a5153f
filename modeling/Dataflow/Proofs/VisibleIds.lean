import Dataflow.Proofs.StackSteps

/-! The identifiers that are visible. They are made anew when a stack is assigned and changed in place by every other
    move; as long as every stack has an identifier, they are those of the stack and of the stacks that it extends. A
    stack that is put back then has the identifiers that it had before. -/

namespace Dataflow

namespace Frame

variable {fs gs : List Frame} {f g : Frame} {id : String} {ids : List String}

/-! ### The stacks that a stack extends -/

theorem visibleIds_concat (hid : contextId (fs ++ [f]) = .ok id) (hids : visibleIds fs = .ok ids) :
    visibleIds (fs ++ [f]) = .ok (id :: ids) := by
  rw [visibleIds] at hids
  rw [visibleIds, enclosing_concat, List.mapM_cons, hid, hids]
  rfl

theorem visibleIds_of_concat (h : visibleIds (fs ++ [f]) = .ok ids) : visibleIds fs = .ok ids.tail := by
  rw [visibleIds, enclosing_concat, List.mapM_cons] at h
  obtain ⟨id, -, h⟩ := Outcome.bind_eq_ok.mp h
  obtain ⟨is, his, h⟩ := Outcome.bind_eq_ok.mp h
  obtain rfl := Except.ok.inj h
  exact his

theorem contextId_of_concat (h : contextId (fs ++ [f]) = .ok id) : ∃ outer, contextId fs = .ok outer := by
  rw [contextId, List.mapM_append] at h
  obtain ⟨segments, h, -⟩ := Outcome.bind_eq_ok.mp h
  obtain ⟨segments, hsegments, -⟩ := Outcome.bind_eq_ok.mp h
  exact ⟨"/".intercalate segments, by rw [contextId, hsegments]; rfl⟩

/-- Where a stack has an identifier, so have the stacks that it extends. -/
theorem exists_visibleIds (h : contextId fs = .ok id) : ∃ ids, visibleIds fs = .ok ids := by
  induction fs using List.reverseRecOn generalizing id with
  | nil => exact ⟨[], rfl⟩
  | append_singleton fs f ih =>
    obtain ⟨outer, houter⟩ := contextId_of_concat h
    obtain ⟨ids, hids⟩ := ih houter
    exact ⟨id :: ids, visibleIds_concat h hids⟩

end Frame

namespace Context

variable {c d : Context} {m : Move} {id : String}

/-- The visible identifiers are those of the stack and of the stacks that it extends. -/
structure Consistent (c : Context) : Prop where
  rooted : rooted c.frames = true
  visible : Frame.visibleIds c.frames = .ok c.ids

theorem consistent_initial : initial.Consistent := ⟨rfl, Activation.visibleIds_stack []⟩

theorem Consistent.ids_ne_nil (h : c.Consistent) : c.ids ≠ [] := by
  have hvisible := h.visible
  have hroot := h.rooted
  cases hframes : c.frames using List.reverseRecOn with
  | nil =>
    rw [hframes] at hroot
    cases hroot
  | append_singleton fs f =>
    rw [hframes, Frame.visibleIds, Frame.enclosing_concat, List.mapM_cons] at hvisible
    obtain ⟨id, -, hvisible⟩ := Outcome.bind_eq_ok.mp hvisible
    obtain ⟨ids, -, hvisible⟩ := Outcome.bind_eq_ok.mp hvisible
    rw [← Except.ok.inj hvisible]
    exact List.cons_ne_nil _ _

theorem rooted_append {fs : List Frame} (gs : List Frame) (h : Context.rooted fs = true) :
    Context.rooted (fs ++ gs) = true := by
  cases fs with
  | nil => cases h
  | cons f fs => exact h

theorem rooted_dropLast {fs : List Frame} (h : Context.rooted fs = true) (hloop : 1 < fs.length) :
    Context.rooted fs.dropLast = true := by
  cases fs with
  | nil => cases h
  | cons f fs =>
    cases fs with
    | nil => simp at hloop
    | cons g fs => exact h

/-- The stack below the innermost loop with its identifiers. -/
theorem Consistent.below (h : c.Consistent) (hloop : 1 < c.frames.length) :
    Frame.visibleIds c.frames.dropLast = .ok c.ids.tail := by
  have hvisible := h.visible
  rw [eq_concat hloop] at hvisible
  exact Frame.visibleIds_of_concat hvisible

theorem Steps.consistent (hstep : c.Steps m d) (h : c.Consistent) (hid : Frame.contextId d.frames = .ok id) :
    d.Consistent := by
  cases hstep with
  | stays m n hn => exact ⟨h.rooted, h.visible⟩
  | enters name ids hids =>
    obtain rfl := hids id hid
    exact ⟨rooted_append _ h.rooted, Frame.visibleIds_concat hid h.visible⟩
  | leaves hloop => exact ⟨rooted_dropLast h.rooted hloop, h.below hloop⟩
  | continues iteration ids hloop hiteration hids =>
    obtain rfl := hids id hid h.ids_ne_nil
    exact ⟨rooted_append _ (rooted_dropLast h.rooted hloop), Frame.visibleIds_concat hid (h.below hloop)⟩
  | assigns frames ids hroot hids =>
    obtain ⟨is, his⟩ := Frame.exists_visibleIds hid
    obtain rfl := hids is his
    exact ⟨hroot, his⟩

theorem Steps.typed (hstep : c.Steps m d) (h : ∀ f ∈ c.frames, f.Typed)
    (hrestore : ∀ frames, m = .restore frames → ∀ f ∈ frames, f.Typed) : ∀ f ∈ d.frames, f.Typed := by
  cases hstep with
  | stays m n hn => exact h
  | enters name ids _ => exact List.forall_mem_append.mpr ⟨h, List.forall_mem_singleton.mpr ⟨_, name, 0, rfl⟩⟩
  | leaves hloop => exact fun f hf => h f (List.dropLast_subset _ hf)
  | continues iteration ids hloop hiteration _ =>
    obtain ⟨n, name, k, hcurrent⟩ : c.currentFrame.Typed := h _ (by rw [eq_concat hloop]; simp)
    rw [hcurrent] at hiteration
    obtain rfl : .int (k + 1) = iteration := Except.ok.inj hiteration
    refine List.forall_mem_append.mpr ⟨fun f hf => h f (List.dropLast_subset _ hf), ?_⟩
    refine List.forall_mem_singleton.mpr ⟨(c.lastId + 1 : Nat), name, k + 1, ?_⟩
    rw [hcurrent]
  | assigns frames ids _ _ => exact hrestore frames rfl

/-- A stack that is assigned comes with the identifiers that it has, unless it already seems to be there. -/
theorem Consistent.setFrames (h : c.Consistent) (d : Context) :
    (setFrames c.frames d = (.ok (), { d with frames := c.frames, ids := c.ids })) ∨
      ((setFrames c.frames d).2 = d ∧ Frame.sameStack c.frames d.frames ≠ .ok false) := by
  rw [setFrames_apply, if_neg (by simp [h.rooted]), h.visible]
  rcases Frame.sameStack c.frames d.frames with e | _ | _
  · exact Or.inr ⟨rfl, fun heq => by cases heq⟩
  · exact Or.inl rfl
  · exact Or.inr ⟨rfl, fun heq => by cases heq⟩

theorem setFrames_of_differs {c : Context} {frames : List Frame} {ids : List String}
    (hroot : Context.rooted frames = true) (hsame : Frame.sameStack frames c.frames = .ok false) (hids : Frame.visibleIds frames = .ok ids) :
    (Context.setFrames frames c).2 = { c with frames, ids } := by
  rw [Context.setFrames_apply, if_neg (by simp [hroot]), hsame, hids]

/-- A context as it was before: the same stack with the same identifiers. -/
structure AsBefore (before c : Context) : Prop where
  frames : c.frames = before.frames
  ids : c.ids = before.ids
  depth : c.depth = before.depth
  currentFrame : c.currentFrame = before.currentFrame

theorem asBefore_of_eq {before c : Context} (hframes : c.frames = before.frames) (hids : c.ids = before.ids) :
    before.AsBefore c :=
  ⟨hframes, hids, by rw [depth, depth, hframes], by rw [currentFrame, currentFrame, hframes]⟩

end Context

/-! ### Moves that fail -/

namespace Value

theorem addElements_error {d : DType} {x y : Element} {e : Failure} (h : addElements d x y = .error e) :
    e = .wrongType := by
  unfold addElements at h
  split at h <;> cases h
  rfl

theorem addToScalar_int_error {d : DType} {x : Element} {n : Int} {e : Failure}
    (h : addToScalar d x (.int n) = .error e) : e = .wrongType ∨ e = .tooLarge := by
  unfold addToScalar at h
  dsimp only at h
  split at h <;> split at h
  all_goals first
    | exact Or.inl (addElements_error h)
    | exact Or.inr (Except.error.inj h).symm

/-- What cannot be counted on from fails, and not by refusal. -/
theorem successor_error {v : Value} {e : Failure} (h : v.successor = .error e) : e = .wrongType ∨ e = .tooLarge := by
  unfold successor plus at h
  cases v with
  | scalar d x => exact addToScalar_int_error h
  | flag b | int n | real x => cases h
  | _ =>
    cases h
    exact Or.inl rfl

end Value

namespace Context

variable {c d : Context} {e : Failure}

/-- What a move that fails leaves of a context: all of it, but the number of a frame may be used up, and that not where
    the move is refused. -/
structure Untouched (c : Context) (e : Failure) (d : Context) : Prop where
  same : ∃ n, d = { c with lastId := n }
  refused : ∀ cause, e = .refused cause → d = c

theorem Untouched.self (c : Context) (e : Failure) : c.Untouched e c := ⟨⟨c.lastId, rfl⟩, fun _ _ => rfl⟩

theorem enterFrame_error {name : String} {s : Session} (h : (enterFrame (.text name) (s, c)).1 = .error e) :
    ∃ e, Frame.contextId (enterFrame (.text name) (s, c)).2.2.frames = .error e := by
  rw [enterFrame_apply] at h ⊢
  cases hid : Frame.contextId (c.entering (.text name)) with
  | ok id =>
    rw [hid] at h
    cases h
  | error e' => exact ⟨e', hid⟩

theorem exitFrame_error {s : Session} (hids : c.ids ≠ []) (h : (exitFrame (s, c)).1 = .error e) :
    (exitFrame (s, c)).2.2 = c := by
  rw [exitFrame_apply] at h ⊢
  by_cases hloop : c.frames.length ≤ 1
  · rw [if_pos hloop]
  · rw [if_neg hloop, if_neg hids] at h
    cases h

theorem nextIteration_error (hids : c.ids ≠ []) (h : (nextIteration c).1 = .error e) :
    c.Untouched e (nextIteration c).2 ∨ ∃ e, Frame.contextId (nextIteration c).2.frames = .error e := by
  rw [nextIteration_apply] at h ⊢
  by_cases hloop : c.frames.length ≤ 1
  · rw [if_pos hloop]
    exact Or.inl (.self c e)
  rw [if_neg hloop] at h ⊢
  cases hk : c.currentFrame.iteration.successor with
  | error e' =>
    rw [hk] at h
    obtain rfl := Except.error.inj h
    refine Or.inl ⟨⟨_, rfl⟩, ?_⟩
    rintro cause rfl
    rcases Value.successor_error hk with hcause | hcause <;> cases hcause
  | ok k =>
    cases hid : Frame.contextId (c.continuing k) with
    | ok id =>
      simp only [hk, hid, if_neg hids] at h
      cases h
    | error e' =>
      simp only [hid]
      exact Or.inr ⟨e', hid⟩

theorem setFrames_error {frames : List Frame} (h : (setFrames frames c).1 = .error e) :
    (setFrames frames c).2 = c ∨ ∃ e, Frame.contextId (setFrames frames c).2.frames = .error e := by
  rw [setFrames_apply] at h ⊢
  by_cases hroot : rooted frames = false
  · rw [if_pos hroot]
    exact Or.inl rfl
  rw [if_neg hroot] at h ⊢
  rcases hsame : Frame.sameStack frames c.frames with e' | _ | _
  · exact Or.inl rfl
  · cases hids : Frame.visibleIds frames with
    | ok ids =>
      simp only [hsame, hids] at h
      cases h
    | error e' =>
      cases hid : Frame.contextId frames with
      | ok id =>
        obtain ⟨ids, hok⟩ := Frame.exists_visibleIds hid
        rw [hok] at hids
        cases hids
      | error e' => exact Or.inr ⟨e', rfl⟩
  · exact Or.inl rfl

end Context

namespace Trace

open Activation (stack)

variable {s : Session} {ms ns : List Move} {m : Move} {as : List Activation}

/-- The stacks that there were after each move have identifiers. -/
def Identified (s : Session) (ms : List Move) : Prop :=
  ∀ before after, ms = before ++ after → ∃ id, Frame.contextId (of s before).run.context.frames = .ok id

theorem Identified.of_append (h : Identified s (ms ++ ns)) : Identified s ms := fun before after heq =>
  h before (after ++ ns) (by rw [heq, List.append_assoc])

theorem Identified.last (h : Identified s ms) : ∃ id, Frame.contextId (of s ms).run.context.frames = .ok id :=
  h ms [] (List.append_nil ms).symm

theorem identified_initial (s : Session) : Identified s [] := by
  intro before after heq
  obtain ⟨rfl, rfl⟩ := List.append_eq_nil_iff.mp heq.symm
  exact ⟨"", Activation.contextId_stack []⟩

theorem identified_concat (h : Identified s ms) (hm : (of s (ms ++ [m])).run.context.At as) :
    Identified s (ms ++ [m]) := by
  intro before after heq
  rcases List.eq_nil_or_concat after with rfl | ⟨after, m', rfl⟩
  · rw [List.append_nil] at heq
    rw [← heq, hm.frames_eq]
    exact ⟨_, Activation.contextId_stack as⟩
  · rw [List.concat_eq_append, ← List.append_assoc] at heq
    obtain ⟨rfl, -⟩ := List.append_inj' heq rfl
    exact h before after rfl

theorem Identified.consistent (h : Identified s ms) : (of s ms).run.context.Consistent := by
  induction ms using List.reverseRecOn with
  | nil => exact Context.consistent_initial
  | append_singleton ms m ih =>
    obtain ⟨id, hid⟩ := h.last
    rw [of_concat] at hid ⊢
    exact ((of s ms).steps m).consistent (ih h.of_append) hid

theorem step_error {t : Trace} {e : Failure} (hids : t.run.context.ids ≠ []) (h : (m.perform t.run).1 = .error e) :
    t.run.context.Untouched e (t.step m).run.context ∨
      ∃ e, Frame.contextId (t.step m).run.context.frames = .error e := by
  cases m with
  | enter name => exact Or.inr (Context.enterFrame_error h)
  | exit =>
    have hsame : (t.step .exit).run.context = t.run.context := Context.exitFrame_error hids h
    exact Or.inl (hsame ▸ .self _ e)
  | nextIteration => exact Context.nextIteration_error hids h
  | restore frames =>
    rcases Context.setFrames_error h with hsame | hid
    · have hsame : (t.step (.restore frames)).run.context = t.run.context := hsame
      exact Or.inl (hsame ▸ .self _ e)
    · exact Or.inr hid
  | store node o =>
    rw [Move.perform, Run.store_apply hids] at h
    cases h

theorem typed (s : Session) (h : ∀ frames, .restore frames ∈ ms → ∀ f ∈ frames, f.Typed) :
    ∀ f ∈ (of s ms).run.context.frames, f.Typed := by
  induction ms using List.reverseRecOn with
  | nil => exact List.forall_mem_singleton.mpr ⟨0, "", 0, rfl⟩
  | append_singleton ms m ih =>
    rw [of_concat]
    refine ((of s ms).steps m).typed (ih fun frames hm => h frames (List.mem_append_left _ hm)) ?_
    rintro frames rfl
    exact h frames (by simp)

/-- As long as every stack has an identifier, the visible identifiers are those of the stack and of the stacks that it
    extends. A move that fails changes neither. A stack that there was before can be put back at any time and has its
    identifiers back then, unless it seems to be there already; with frames of integers and texts it is back always. -/
theorem visibleIds_follow {s : Session} {ms : List Move} (h : Identified s ms) :
    Frame.visibleIds (of s ms).run.context.frames = .ok (of s ms).run.context.ids ∧
    (∀ before m after e, ms = before ++ m :: after → (m.perform (of s before).run).1 = .error e →
      (of s before).run.context.Untouched e (of s (before ++ [m])).run.context) ∧
    (∀ before after, ms = before ++ after →
      let captured := (of s before).run.context
      let current := (of s ms).run.context
      let again := (of s (ms ++ [.restore captured.frames])).run.context
      (captured.AsBefore again ∨ again = current ∧ Frame.sameStack captured.frames current.frames ≠ .ok false) ∧
      ((∀ frames, .restore frames ∈ ms → ∀ f ∈ frames, f.Typed) → captured.AsBefore again)) := by
  refine ⟨h.consistent.visible, fun before m after e hms he => ?_, fun before after hms => ?_⟩
  · rw [hms, List.append_cons] at h
    have hbefore := h.of_append.of_append.consistent
    obtain ⟨id, hid⟩ := h.of_append.last
    rw [of_concat] at hid ⊢
    rcases step_error hbefore.ids_ne_nil he with huntouched | ⟨e', he'⟩
    · exact huntouched
    · rw [hid] at he'
      cases he'
  · intro captured current again
    have hagain : again = (Context.setFrames captured.frames current).2 := context_restore s ms _
    have hcaptured : captured.Consistent := by
      rw [hms] at h
      exact h.of_append.consistent
    rw [hagain]
    rcases hcaptured.setFrames current with hback | ⟨hstays, hsame⟩
    · rw [hback]
      exact ⟨Or.inl (Context.asBefore_of_eq rfl rfl), fun _ => Context.asBefore_of_eq rfl rfl⟩
    · rw [hstays]
      refine ⟨Or.inr ⟨rfl, hsame⟩, fun htyped => ?_⟩
      obtain ⟨b, hb, heq⟩ := Frame.sameStack_typed
        (typed s fun frames hm => htyped frames (hms ▸ List.mem_append_left _ hm)) (typed s htyped)
      cases b with
      | false => exact absurd hb hsame
      | true =>
        have hids := hcaptured.visible
        rw [heq.mp rfl, h.consistent.visible] at hids
        exact Context.asBefore_of_eq (heq.mp rfl).symm (Except.ok.inj hids)

/-- A stack of one loop is put back from within another one. -/
theorem visibleIds_follow_two_loops :
    let s := Session.initial [] false false
    let ms := [.enter "loop", .nextIteration, .exit, .enter "other"]
    let captured := (of s [.enter "loop", .nextIteration]).run.context
    Identified s ms ∧ captured.ids = ["/loop-1", ""] ∧ (of s ms).run.context.ids = ["/other-0", ""] ∧
      captured.AsBefore (of s (ms ++ [.restore captured.frames])).run.context := by
  intro s ms captured
  have hcount : 0 + 1 < 10 ^ Text.longestNumeral := Nat.one_lt_pow (by decide) (by decide)
  obtain ⟨hloop, hone⟩ := at_enter (n := 0) (at_initial s) rfl "loop"
  obtain ⟨hnext, htwo⟩ := at_nextIteration [] hloop hone hcount
  obtain ⟨hroot, hstill⟩ := at_exit hnext
  obtain ⟨hother, -⟩ := at_enter hroot (hstill.trans htwo) "other"
  have htwice : Identified s _ := identified_concat (identified_concat (identified_initial s) hloop) hnext
  have h : Identified s ms := identified_concat (identified_concat htwice hroot) hother
  have htyped : ∀ frames, .restore frames ∈ ms → ∀ f ∈ frames, f.Typed := fun frames hm => by simp [ms] at hm
  have hcaptured := hnext.ids_eq
  have hcurrent := hother.ids_eq
  have hid : Activation.contextId ([] ++ [(Activation.first 0 "loop").next 1 hcount]) = "/loop-1" := by
    show "/".intercalate ["", "loop" ++ "-" ++ toString 1] = _
    rfl
  have hidOther : Activation.contextId ([] ++ [.first (0 + 1 + 1) "other"]) = "/other-0" := rfl
  rw [Activation.ids_concat, Activation.ids_nil] at hcaptured hcurrent
  rw [hid] at hcaptured
  rw [hidOther] at hcurrent
  simp only [List.nil_append, List.cons_append] at hcaptured hcurrent
  have hback := ((visibleIds_follow h).2.2 [.enter "loop", .nextIteration] [.exit, .enter "other"] rfl).2 htyped
  refine ⟨h, hcaptured, ?_, ?_⟩
  · simpa only [ms] using hcurrent
  · simpa only [captured] using hback

/-- Where the number of an iteration cannot be written, two frames are there without identifiers, and leaving them takes
    two identifiers that belong to the stacks below. -/
theorem ids_of_unwritten (as : List Activation) {a : Activation} (h : (of s ms).run.context.At (as ++ [a]))
    (ha : ¬a.iteration + 1 < 10 ^ Text.longestNumeral) (name : String) :
    (of s (ms ++ [.nextIteration] ++ [.enter name] ++ [.exit] ++ [.exit])).run.context.frames = stack as ∧
      (of s (ms ++ [.nextIteration] ++ [.enter name] ++ [.exit] ++ [.exit])).run.context.ids =
        (Activation.ids as).tail := by
  let c := (of s ms).run.context
  let f := Context.successorFrame c.lastId a
  let d := c.renewed (stack as ++ [f])
  have hnext : (of s (ms ++ [.nextIteration])).run.context = d := by
    rw [of_concat]
    exact congrArg Prod.snd (Context.nextIteration_unwritten h ha)
  have henter : (of s (ms ++ [.nextIteration] ++ [.enter name])).run.context = d.renewed (d.entering (.text name)) := by
    have hid : Frame.contextId (d.entering (.text name)) = .error .badValue := by
      have herror := Activation.contextId_error as [.entered (d.lastId + 1) (.text name)]
        (Context.segment_successorFrame c.lastId ha)
      rwa [← List.singleton_append, ← List.append_assoc] at herror
    have hstep := Context.enterFrame_apply (.text name) (of s (ms ++ [.nextIteration])).run.session d
    rw [hid, ← hnext] at hstep
    rw [of_concat, ← hnext]
    exact congrArg (·.2.2) hstep
  have hframes : (d.renewed (d.entering (.text name))).frames =
      stack as ++ [f] ++ [.entered (d.lastId + 1) (.text name)] := rfl
  have hinner : (of s (ms ++ [.nextIteration] ++ [.enter name] ++ [.exit])).run.context =
      (d.renewed (d.entering (.text name))).leave := by
    rw [context_exit (by rw [henter, hframes]; simp [Activation.length_stack]), henter]
  have houter : (of s (ms ++ [.nextIteration] ++ [.enter name] ++ [.exit] ++ [.exit])).run.context =
      (d.renewed (d.entering (.text name))).leave.leave := by
    rw [context_exit (by rw [hinner, Context.leave, hframes]; simp [Activation.length_stack]), hinner]
  have hids : c.ids = _ := h.ids_eq
  rw [houter, Context.leave, Context.leave, hframes, List.dropLast_concat, List.dropLast_concat]
  refine ⟨rfl, ?_⟩
  show c.ids.tail.tail = _
  rw [hids, Activation.ids_concat, List.tail_cons]

/-- A stack that only seems to be there is not put back; and after two moves that fail for want of a number that can be
    written, the identifiers are not those of the stack. -/
theorem visibleIds_of_other_stack :
    let s := Session.initial [] false false
    let flagged : List Frame := [.root, ⟨.int 1, .text "a", .flag true⟩]
    let counted : List Frame := [.root, ⟨.int 1, .text "a", .int 1⟩]
    let last : Int := (10 ^ Text.longestNumeral - 1 : Nat)
    let long : List Frame := [.root, .entered 1 (.text "x"), ⟨.int 2, .text "a", .int last⟩]
    let c := (of s [.restore long, .nextIteration, .enter "b", .exit, .exit]).run.context
    ((of s [.restore flagged]).run.context.ids = ["/a-True", ""] ∧
      (of s [.restore flagged, .restore [.root], .restore counted, .restore flagged]).run.context.ids = ["/a-1", ""]) ∧
    c.frames = [.root, .entered 1 (.text "x")] ∧ c.ids = [""] ∧ Frame.visibleIds c.frames = .ok ["/x-0", ""] := by
  intro s flagged counted last long c
  have hone : 1 < 10 ^ Text.longestNumeral := Nat.one_lt_pow (by decide) (by decide)
  have hrooted : ∀ f, Context.rooted [.root, f] = true := fun _ => rfl
  have hflagged : Frame.visibleIds flagged = .ok ["/a-True", ""] := rfl
  have hcounted : Frame.visibleIds counted = .ok ["/a-1", ""] := by
    refine (Activation.visibleIds_stack [⟨1, "a", 1, by decide, hone⟩]).trans ?_
    show Except.ok ["/".intercalate ["", "a" ++ "-" ++ toString 1], ""] = _
    rfl
  have hfirst : (of s ([] ++ [.restore flagged])).run.context =
      { Context.initial with frames := flagged, ids := ["/a-True", ""] } := by
    rw [context_restore]
    exact Context.setFrames_of_differs rfl rfl hflagged
  have hsecond : (of s ([] ++ [.restore flagged] ++ [.restore [.root]])).run.context = Context.initial := by
    rw [context_restore, hfirst]
    exact Context.setFrames_of_differs rfl rfl rfl
  have hthird : (of s ([] ++ [.restore flagged] ++ [.restore [.root]] ++ [.restore counted])).run.context =
      { Context.initial with frames := counted, ids := ["/a-1", ""] } := by
    rw [context_restore, hsecond]
    exact Context.setFrames_of_differs rfl rfl hcounted
  have hfourth : (of s ([] ++ [.restore flagged] ++ [.restore [.root]] ++ [.restore counted] ++
      [.restore flagged])).run.context = { Context.initial with frames := counted, ids := ["/a-1", ""] } := by
    have hsame : Frame.sameStack flagged counted = .ok true := rfl
    rw [context_restore, hthird, Context.setFrames_apply, if_neg (by simp [hrooted, flagged]), hsame]
  simp only [List.nil_append, List.cons_append] at hfirst hfourth
  refine ⟨⟨by rw [hfirst], by rw [hfourth]⟩, ?_⟩
  have hpos : 0 < 10 ^ Text.longestNumeral := Nat.pow_pos (by decide)
  let x : Activation := .first 0 "x"
  let a : Activation := ⟨2, "a", 10 ^ Text.longestNumeral - 1, by decide, Nat.sub_lt hpos (by decide)⟩
  have hlast : ¬a.iteration + 1 < 10 ^ Text.longestNumeral := by
    show ¬10 ^ Text.longestNumeral - 1 + 1 < 10 ^ Text.longestNumeral
    rw [Nat.sub_add_cancel hpos]
    exact Nat.lt_irrefl _
  obtain ⟨hlong, -⟩ := at_restore (at_initial s) [x, a]
  obtain ⟨hframes, hids⟩ := ids_of_unwritten [x] hlong hlast "b"
  rw [show stack [x, a] = long from rfl] at hframes hids
  simp only [List.nil_append, List.cons_append] at hframes hids
  have hx : Activation.ids [x] = ["/x-0", ""] := by
    rw [← List.nil_append [x], Activation.ids_concat, Activation.ids_nil]
    show ["/".intercalate ["", "x" ++ "-" ++ toString 0], ""] = _
    rfl
  rw [hx, List.tail_cons] at hids
  have hc : c.frames = stack [x] := by simpa only [c] using hframes
  rw [hc, Activation.visibleIds_stack, hx]
  exact ⟨rfl, by simpa only [c] using hids, rfl⟩

end Trace

end Dataflow
