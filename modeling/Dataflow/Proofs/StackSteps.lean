import Dataflow.Proofs.Traces

/-! Steps of the stack of frames: everything that a move can do to a context, from any context and whether the move
    succeeds or not. A stack that there was before comes back only as it was. -/

namespace Dataflow

namespace Context

/-- What a move leaves of a context. Where the new stack has an identifier, the visible identifiers are changed along
    with it. -/
inductive Steps (c : Context) : Move → Context → Prop
  | stays (m : Move) (n : Nat) (hn : c.lastId ≤ n) : Steps c m { c with lastId := n }
  | enters (name : String) (ids : List String)
      (hids : ∀ id, Frame.contextId (c.entering (.text name)) = .ok id → ids = id :: c.ids) :
      Steps c (.enter name) ((c.renewed (c.entering (.text name))).withIds ids)
  | leaves (hloop : 1 < c.frames.length) : Steps c .exit c.leave
  | continues (iteration : Value) (ids : List String) (hloop : 1 < c.frames.length)
      (hiteration : c.currentFrame.iteration.successor = .ok iteration)
      (hids : ∀ id, Frame.contextId (c.continuing iteration) = .ok id → c.ids ≠ [] → ids = id :: c.ids.tail) :
      Steps c .nextIteration ((c.renewed (c.continuing iteration)).withIds ids)
  | assigns (frames : List Frame) (ids : List String) (hroot : rooted frames = true)
      (hids : ∀ is, Frame.visibleIds frames = .ok is → ids = is) : Steps c (.restore frames) { c with frames, ids }

variable {c : Context}

theorem eq_concat (hloop : 1 < c.frames.length) : c.frames = c.frames.dropLast ++ [c.currentFrame] := by
  have hne : c.frames ≠ [] := List.ne_nil_of_length_pos (Nat.lt_trans Nat.zero_lt_one hloop)
  rw [currentFrame, List.getLastD_eq_getLast?, List.getLast?_eq_some_getLast hne, Option.getD_some,
    List.dropLast_concat_getLast]

theorem Steps.same (c : Context) (m : Move) : c.Steps m c := .stays m c.lastId (Nat.le_refl _)

theorem steps_enter (c : Context) (name : String) (s : Session) :
    c.Steps (.enter name) (enterFrame (.text name) (s, c)).2.2 := by
  rw [enterFrame_apply]
  cases hid : Frame.contextId (c.entering (.text name)) with
  | ok id => exact .enters name _ fun id' hid' => by rw [hid] at hid'; cases hid'; rfl
  | error e => exact .enters name c.ids fun id' hid' => by rw [hid] at hid'; cases hid'

theorem steps_exit (c : Context) (s : Session) : c.Steps .exit (exitFrame (s, c)).2.2 := by
  rw [exitFrame_apply]
  by_cases hloop : c.frames.length ≤ 1
  · rw [if_pos hloop]
    exact .same c _
  · rw [if_neg hloop]
    split <;> exact .leaves (Nat.lt_of_not_le hloop)

theorem steps_nextIteration (c : Context) : c.Steps .nextIteration (nextIteration c).2 := by
  rw [nextIteration_apply]
  by_cases hloop : c.frames.length ≤ 1
  · rw [if_pos hloop]
    exact .same c _
  rw [if_neg hloop]
  rcases hk : c.currentFrame.iteration.successor with e | k
  · exact .stays _ _ (Nat.le_succ _)
  have hloop := Nat.lt_of_not_le hloop
  cases hid : Frame.contextId (c.continuing k) with
  | ok id =>
    by_cases hnone : c.ids = []
    · simp only [hid, if_pos hnone]
      exact .continues k c.ids hloop hk fun id' hid' hsome => absurd hnone hsome
    · simp only [hid, if_neg hnone]
      exact .continues k _ hloop hk fun id' hid' _ => by rw [hid] at hid'; cases hid'; rfl
  | error e =>
    simp only [hid]
    exact .continues k c.ids hloop hk fun id' hid' => by rw [hid] at hid'; cases hid'

theorem steps_setFrames (c : Context) (frames : List Frame) : c.Steps (.restore frames) (setFrames frames c).2 := by
  rw [setFrames_apply]
  by_cases hroot : rooted frames = false
  · rw [if_pos hroot]
    exact .same c _
  rw [if_neg hroot]
  rw [Bool.not_eq_false] at hroot
  rcases Frame.sameStack frames c.frames with e | _ | _
  · exact .same c _
  · cases hids : Frame.visibleIds frames with
    | ok ids =>
      exact .assigns frames ids hroot fun is his => by rw [hids] at his; cases his; rfl
    | error e =>
      exact .assigns frames c.ids hroot fun is his => by rw [hids] at his; cases his
  · exact .same c _

end Context

namespace Trace

variable {s : Session} {ms ns : List Move} {m : Move} {t : Trace} {S : List Frame}

theorem steps (t : Trace) (m : Move) : t.run.context.Steps m (t.step m).run.context := by
  cases m with
  | enter name => exact Context.steps_enter _ name _
  | exit => exact Context.steps_exit _ _
  | nextIteration => exact Context.steps_nextIteration _
  | restore frames => exact Context.steps_setFrames _ frames
  | store node o =>
    rw [context_step_store]
    exact .same _ _

/-- The stacks that there were by the end of a move are those before it and the current one. -/
theorem mem_earlier_step (t : Trace) (m : Move) (h : t.run.context.frames ∈ t.earlier) :
    S ∈ (t.step m).earlier ↔ S ∈ t.earlier ∨ S = (t.step m).run.context.frames := by
  cases m with
  | store node o =>
    rw [context_step_store]
    exact ⟨Or.inl, fun hS => hS.elim id fun hS => hS ▸ h⟩
  | _ => exact List.mem_append.trans (or_congr_right List.mem_singleton)

theorem current_mem (s : Session) (ms : List Move) : (of s ms).run.context.frames ∈ (of s ms).earlier := by
  induction ms using List.reverseRecOn with
  | nil => exact List.mem_cons_self
  | append_singleton ms m ih =>
    rw [of_concat]
    exact (mem_earlier_step _ m ih).mpr (Or.inr rfl)

theorem mem_earlier_append (ns : List Move) (h : S ∈ (of s ms).earlier) : S ∈ (of s (ms ++ ns)).earlier := by
  induction ns using List.reverseRecOn with
  | nil => rwa [List.append_nil]
  | append_singleton ns m ih =>
    rw [← List.append_assoc, of_concat]
    exact (mem_earlier_step _ m (current_mem s _)).mpr (Or.inl ih)

/-! ### Stacks of loops -/

variable {as bs : List Activation} {a : Activation}

theorem at_initial (s : Session) : (of s []).run.context.At [] := Context.at_initial

theorem stack_mem (h : (of s ms).run.context.At as) : Activation.stack as ∈ (of s ms).earlier := by
  rw [← h.frames_eq]
  exact current_mem s ms

theorem at_enter {n : Nat} (h : (of s ms).run.context.At as) (hn : (of s ms).run.context.lastId = n) (name : String) :
    (of s (ms ++ [.enter name])).run.context.At (as ++ [.first n name]) ∧
      (of s (ms ++ [.enter name])).run.context.lastId = n + 1 := by
  have hstep : (of s (ms ++ [.enter name])).run.context =
      (of s ms).run.context.movedTo (as ++ [.first n name]) (n + 1) := by
    rw [of_concat, ← hn]
    exact congrArg (·.2.2) (Context.enterFrame_eq h name (of s ms).run.session)
  rw [hstep]
  exact ⟨Context.at_movedTo _ _ _, rfl⟩

theorem at_nextIteration {n : Nat} (as : List Activation) (h : (of s ms).run.context.At (as ++ [a]))
    (hn : (of s ms).run.context.lastId = n) (ha : a.iteration + 1 < 10 ^ Text.longestNumeral) :
    (of s (ms ++ [.nextIteration])).run.context.At (as ++ [a.next n ha]) ∧
      (of s (ms ++ [.nextIteration])).run.context.lastId = n + 1 := by
  have hstep : (of s (ms ++ [.nextIteration])).run.context =
      (of s ms).run.context.movedTo (as ++ [a.next n ha]) (n + 1) := by
    rw [of_concat, ← hn]
    exact congrArg Prod.snd (Context.nextIteration_eq h ha)
  rw [hstep]
  exact ⟨Context.at_movedTo _ _ _, rfl⟩

theorem context_exit (h : 1 < (of s ms).run.context.frames.length) :
    (of s (ms ++ [.exit])).run.context = (of s ms).run.context.leave := by
  have hexit := Context.exitFrame_apply (of s ms).run.session (of s ms).run.context
  rw [if_neg (Nat.not_le_of_lt h)] at hexit
  have hstate := congrArg (·.2.2) hexit
  rw [of_concat]
  refine hstate.trans ?_
  split <;> rfl

theorem at_exit (h : (of s ms).run.context.At (as ++ [a])) :
    (of s (ms ++ [.exit])).run.context.At as ∧
      (of s (ms ++ [.exit])).run.context.lastId = (of s ms).run.context.lastId := by
  rw [context_exit (Nat.lt_of_not_le h.in_loop), Context.leave_eq h]
  exact ⟨Context.at_movedTo _ _ _, rfl⟩

theorem context_restore (s : Session) (ms : List Move) (frames : List Frame) :
    (of s (ms ++ [.restore frames])).run.context = (Context.setFrames frames (of s ms).run.context).2 := by
  rw [of_concat]
  rfl

theorem at_restore (h : (of s ms).run.context.At as) (bs : List Activation) :
    (of s (ms ++ [.restore (Activation.stack bs)])).run.context.At bs ∧
      (of s (ms ++ [.restore (Activation.stack bs)])).run.context.lastId = (of s ms).run.context.lastId := by
  rw [context_restore, Context.setFrames_eq h]
  exact ⟨Context.at_movedTo _ _ _, rfl⟩

theorem frames_enter (s : Session) (name : String) :
    (of s [.enter name]).run.context.frames = Activation.stack [.first 0 name] := by
  obtain ⟨hentered, -⟩ := at_enter (n := 0) (at_initial s) rfl name
  rw [List.nil_append, List.nil_append] at hentered
  exact hentered.frames_eq

/-- A loop can be brought to every iteration whose number can be written. -/
theorem exists_iterated (h : (of s ms).run.context.At (as ++ [a])) {n : Nat}
    (hn : a.iteration + n < 10 ^ Text.longestNumeral) :
    ∃ b, b.name = a.name ∧ b.iteration = a.iteration + n ∧
      (of s (ms ++ List.replicate n .nextIteration)).run.context.At (as ++ [b]) := by
  induction n with
  | zero => exact ⟨a, rfl, rfl, by rwa [List.replicate_zero, List.append_nil]⟩
  | succ n ih =>
    obtain ⟨b, hname, hiteration, hb⟩ := ih (Nat.lt_of_succ_lt hn)
    have hcount : b.iteration + 1 < 10 ^ Text.longestNumeral := by rwa [hiteration]
    obtain ⟨hnext, -⟩ := at_nextIteration as hb rfl hcount
    rw [List.append_assoc, ← List.replicate_succ'] at hnext
    exact ⟨b.next _ hcount, hname, congrArg Nat.succ hiteration, hnext⟩

theorem exists_nested (s : Session) (outer inner : String) {k : Nat} (hk : k < 10 ^ Text.longestNumeral) :
    ∃ (ns : List Move) (b c : Activation), (∀ frames, .restore frames ∉ ns) ∧ b.name = outer ∧ b.iteration = k ∧
      c.name = inner ∧ c.iteration = 0 ∧ (of s ns).run.context.frames = Activation.stack [b, c] := by
  obtain ⟨houter, -⟩ := at_enter (n := 0) (at_initial s) rfl outer
  have hcount : (Activation.first 0 outer).iteration + k < 10 ^ Text.longestNumeral := by
    rwa [show (Activation.first 0 outer).iteration = 0 from rfl, Nat.zero_add]
  obtain ⟨b, hname, hiteration, hb⟩ := exists_iterated houter hcount
  obtain ⟨hinner, -⟩ := at_enter hb rfl inner
  refine ⟨_, b, _, fun frames hmem => ?_, hname, ?_, rfl, rfl, hinner.frames_eq⟩
  · simp at hmem
  · rw [hiteration]
    exact Nat.zero_add k

/-! ### Stacks that are put back -/

/-- Stacks are put back only where they were current before. -/
def Restoring (s : Session) (ms : List Move) : Prop :=
  ∀ before frames after, ms = before ++ .restore frames :: after → frames ∈ (of s before).earlier

theorem Restoring.of_append (h : Restoring s (ms ++ ns)) : Restoring s ms := fun before frames after heq =>
  h before frames (after ++ ns) (by rw [heq, List.append_assoc, List.cons_append])

theorem Restoring.mem {frames : List Frame} (h : Restoring s (ms ++ [.restore frames])) :
    frames ∈ (of s ms).earlier := h ms frames [] rfl

theorem restoring_concat (h : Restoring s ms) (hm : ∀ frames, m = .restore frames → frames ∈ (of s ms).earlier) :
    Restoring s (ms ++ [m]) := by
  intro before frames after heq
  rcases List.eq_nil_or_concat after with rfl | ⟨after, m', rfl⟩
  · obtain ⟨rfl, he⟩ := List.append_inj' heq rfl
    exact hm frames (List.cons.inj he).1
  · rw [List.concat_eq_append, ← List.cons_append, ← List.append_assoc] at heq
    obtain ⟨rfl, -⟩ := List.append_inj' heq rfl
    exact h before frames after rfl

theorem restoring_of_notMem (s : Session) (h : ∀ frames, .restore frames ∉ ms) : Restoring s ms :=
  fun before frames after heq => absurd (by rw [heq]; simp) (h frames)

end Trace

end Dataflow
