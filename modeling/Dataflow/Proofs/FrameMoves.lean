import Dataflow.Graph.Context
import Dataflow.Proofs.Activations

/-! Moves of the stack of frames. A move changes the stack before it looks for the identifier of the new one. It takes
    a context that is at a stack of loops to the stack that it is meant to lead to, identifiers included, and touches
    nothing else but the number of the latest frame and the log. -/

namespace Dataflow

namespace Frame

/-- The number of an iteration can be too long to be written. -/
theorem segment_unwritten (name : String) {n k : Nat} (hn : 0 < n) (hk : ¬k < 10 ^ Text.longestNumeral) :
    segment ⟨.int n, .text name, .int k⟩ = .error .badValue := by
  have hid : (Value.int n == .int 0) = false := by
    rw [Value.int_beq, decide_eq_false_iff_not]
    omega
  have hname : (Value.text name).formatted = .ok name := rfl
  have hformatted : (Value.int k).formatted = .error .badValue :=
    Value.formatted_int_of_not (Int.natAbs_natCast k ▸ hk)
  simp only [segment, hid, Bool.false_and, hname, hformatted]
  rfl

/-! ### Equality of stacks -/

variable {f g : Frame} {fs gs : List Frame}

/-- A frame whose number, name and iteration are what they are meant to be. -/
def Typed (f : Frame) : Prop := ∃ (n : Int) (name : String) (k : Int), f = ⟨.int n, .text name, .int k⟩

theorem equals_typed (hf : f.Typed) (hg : g.Typed) : ∃ b, f.equals g = .ok b ∧ (b = true ↔ f = g) := by
  obtain ⟨n, name, k, rfl⟩ := hf
  obtain ⟨m, other, l, rfl⟩ := hg
  have hnil : Value.equalItems [] [] = .ok true := by rw [Value.equalItems]
  refine ⟨decide (n = m ∧ name = other ∧ k = l), ?_, by simp⟩
  simp only [Frame.equals, Frame.toValue, Value.equals_tuple, Value.equalItems_cons, Value.equals_int,
    Value.equals_text, Outcome.ok_bind, Outcome.pure_eq, hnil]
  by_cases hn : n = m <;> by_cases hname : name = other <;> by_cases hk : k = l <;> simp [hn, hname, hk]

theorem sameStack_typed (hf : ∀ f ∈ fs, f.Typed) (hg : ∀ g ∈ gs, g.Typed) :
    ∃ b, sameStack fs gs = .ok b ∧ (b = true ↔ fs = gs) := by
  induction fs generalizing gs with
  | nil => cases gs with
    | nil => exact ⟨true, rfl, by simp⟩
    | cons g gs => exact ⟨false, rfl, by simp⟩
  | cons f fs ih => cases gs with
    | nil => exact ⟨false, rfl, by simp⟩
    | cons g gs =>
      obtain ⟨hf, hfs⟩ := List.forall_mem_cons.mp hf
      obtain ⟨hg, hgs⟩ := List.forall_mem_cons.mp hg
      obtain ⟨b, hb, heq⟩ := equals_typed hf hg
      obtain ⟨c, hc, hrest⟩ := ih hfs hgs
      rw [sameStack, hb, Outcome.ok_bind, hc]
      cases b with
      | false => exact ⟨false, rfl, by simp [← heq]⟩
      | true => exact ⟨c, rfl, by simp [heq.mp rfl, hrest]⟩

end Frame

namespace Activation

theorem frame_inj {a b : Activation} : a.frame = b.frame ↔ a = b := by
  obtain ⟨i, n, k, hi, hk⟩ := a
  obtain ⟨j, m, l, hj, hl⟩ := b
  simp only [frame, Frame.mk.injEq, Value.int.injEq, Value.text.injEq, Int.natCast_inj, mk.injEq]

theorem typed_stack (as : List Activation) : ∀ f ∈ stack as, f.Typed := by
  intro f hf
  rcases List.mem_cons.mp hf with rfl | hf
  · exact ⟨0, "", 0, rfl⟩
  · obtain ⟨a, -, rfl⟩ := List.mem_map.mp hf
    exact ⟨a.id, a.name, a.iteration, rfl⟩

theorem sameStack_stack (as bs : List Activation) : Frame.sameStack (stack as) (stack bs) = .ok (decide (as = bs)) := by
  obtain ⟨b, hb, heq⟩ := Frame.sameStack_typed (typed_stack as) (typed_stack bs)
  rw [stack, stack, List.cons_inj_right, List.map_inj_right fun a b => frame_inj.mp] at heq
  rw [hb, Bool.eq_iff_iff.mpr (heq.trans decide_eq_true_iff.symm)]

theorem length_stack (as : List Activation) : (stack as).length = as.length + 1 := by simp [stack]

theorem stack_concat (as : List Activation) (a : Activation) : stack (as ++ [a]) = stack as ++ [a.frame] := by
  simp [stack]

/-- The loop in its first iteration, under the number after the latest. -/
def first (lastId : Nat) (name : String) : Activation :=
  ⟨lastId + 1, name, 0, Nat.succ_pos _, Nat.pow_pos (by decide)⟩

/-- The loop in its next iteration, under the number after the latest. -/
def next (lastId : Nat) (a : Activation) (h : a.iteration + 1 < 10 ^ Text.longestNumeral) : Activation :=
  ⟨lastId + 1, a.name, a.iteration + 1, Nat.succ_pos _, h⟩

end Activation

namespace Context

open Activation (stack)

/-! ### Moves from any context -/

/-- The stack after a loop is entered. -/
def entering (name : Value) (c : Context) : List Frame := c.frames ++ [.entered (c.lastId + 1) name]

/-- The stack in another iteration of the innermost loop, under a new frame number. -/
def continuing (iteration : Value) (c : Context) : List Frame :=
  c.frames.dropLast ++ [⟨.int (c.lastId + 1 : Nat), c.currentFrame.name, iteration⟩]

/-- The context at a stack whose innermost frame is new. -/
def renewed (frames : List Frame) (c : Context) : Context := { c with frames, lastId := c.lastId + 1 }

/-- Without an identifier for the new stack, the identifiers stay as they were. -/
theorem enter_apply (name : Value) (c : Context) :
    enter name c = match Frame.contextId (c.entering name) with
      | .ok id => (.ok (), (c.renewed (c.entering name)).withIds (id :: c.ids))
      | .error e => (.error e, c.renewed (c.entering name)) := by
  have hframes : (push (.entered (skipId c).lastId name) (skipId c)).frames = c.entering name := rfl
  simp only [enter, Action.bind_apply, Action.modify_apply, Action.get_apply, Action.lift_apply, hframes]
  cases Frame.contextId (c.entering name) <;> rfl

theorem enterFrame_apply (name : Value) (s : Session) (c : Context) :
    enterFrame name (s, c) = match Frame.contextId (c.entering name) with
      | .ok id => (.ok (), s.recorded .context (frameLine "enter" name (c.renewed (c.entering name)).depth),
          (c.renewed (c.entering name)).withIds (id :: c.ids))
      | .error e => (.error e, s, c.renewed (c.entering name)) := by
  simp only [enterFrame, Action.bind_apply, Action.onSecond_apply, enter_apply]
  cases Frame.contextId (c.entering name) with
  | error e => rfl
  | ok id =>
    simp only [Action.get_apply, Action.onFirst_apply, Session.record_ok]
    rfl

theorem exitFrame_apply (s : Session) (c : Context) :
    exitFrame (s, c) =
      if c.frames.length ≤ 1 then (.error (.refused .exitFromRoot), s, c)
      else if c.ids = [] then (.error .indexOutOfRange, s, c.leave)
      else (.ok (), s.recorded .context (frameLine "exit" c.currentFrame.name c.leave.depth), c.leave) := by
  by_cases h : c.frames.length ≤ 1
  · simp [exitFrame, Action.bind_apply, h]
  by_cases hids : c.ids = []
  · simp [exitFrame, Action.bind_apply, h, hids]
  · simp only [exitFrame, Action.bind_apply, Action.get_apply, h, if_false, Action.onSecond_apply,
      Action.modify_apply, Action.onFirst_apply, Session.record_ok, List.isEmpty_iff, hids]

theorem nextIteration_apply (c : Context) :
    nextIteration c =
      if c.frames.length ≤ 1 then (.error (.refused .iterationOfRoot), c)
      else match c.currentFrame.iteration.successor with
        | .error e => (.error e, skipId c)
        | .ok k => match Frame.contextId (c.continuing k) with
          | .ok id =>
            if c.ids = [] then (.error .indexOutOfRange, c.renewed (c.continuing k))
            else (.ok (), (c.renewed (c.continuing k)).withIds (id :: c.ids.tail))
          | .error e => (.error e, c.renewed (c.continuing k)) := by
  by_cases h : c.frames.length ≤ 1
  · simp [nextIteration, Action.bind_apply, h]
  have hcurrent : (skipId c).currentFrame = c.currentFrame := rfl
  simp only [nextIteration, Action.bind_apply, Action.get_apply, h, if_false, Action.modify_apply, hcurrent,
    Action.lift_apply]
  cases c.currentFrame.iteration.successor with
  | error e => rfl
  | ok k =>
    have hframes : (replaceCurrent ⟨.int (skipId c).lastId, c.currentFrame.name, k⟩ (skipId c)).frames =
        c.continuing k := rfl
    simp only [hframes]
    cases Frame.contextId (c.continuing k) with
    | error e => rfl
    | ok id =>
      by_cases hids : c.ids = []
      · simp [hids, skipId, renewed, replaceCurrent, continuing, currentFrame]
      · simp [hids, skipId, renewed, replaceCurrent, continuing, currentFrame, withIds]

/-- A stack that starts at the root. -/
def rooted : List Frame → Bool
  | [] => false
  | f :: _ => f == .root

theorem setFrames_apply (frames : List Frame) (c : Context) :
    setFrames frames c =
      if rooted frames = false then (.error (.refused .rootMissing), c)
      else match Frame.sameStack frames c.frames with
        | .error e => (.error e, c)
        | .ok true => (.ok (), c)
        | .ok false => match Frame.visibleIds frames with
          | .ok ids => (.ok (), { c with frames, ids })
          | .error e => (.error e, { c with frames }) := by
  cases frames with
  | nil => rfl
  | cons f fs =>
    by_cases hroot : (f == .root) = true
    · simp only [setFrames, rooted, hroot, Action.bind_apply, Action.get_apply, Action.lift_apply, Bool.not_true,
        Bool.false_eq_true, Bool.true_eq_false, if_false]
      rcases Frame.sameStack (f :: fs) c.frames with e | _ | _
      · rfl
      · simp only [Bool.not_false, if_true, Action.bind_apply, Action.modify_apply, Action.lift_apply]
        cases Frame.visibleIds (f :: fs) <;> rfl
      · rfl
    · rw [Bool.not_eq_true] at hroot
      simp [setFrames, rooted, hroot]

/-! ### Moves at a stack of loops -/

/-- The context is at a stack of loops. -/
structure At (c : Context) (as : List Activation) : Prop where
  frames_eq : c.frames = stack as
  ids_eq : c.ids = Activation.ids as

/-- The context at another stack of loops. -/
def movedTo (c : Context) (as : List Activation) (lastId : Nat) : Context :=
  { c with frames := stack as, ids := Activation.ids as, lastId }

theorem at_initial : initial.At [] := ⟨rfl, by simp [initial]⟩

theorem at_movedTo (c : Context) (as : List Activation) (n : Nat) : (c.movedTo as n).At as := ⟨rfl, rfl⟩

variable {as : List Activation} {a : Activation} {c : Context}

theorem At.eq_movedTo (h : c.At as) : c.movedTo as c.lastId = c := by
  rw [movedTo, ← h.frames_eq, ← h.ids_eq]

theorem At.headD_ids (h : c.At as) : c.ids.headD "" = Activation.contextId as := by
  rw [h.ids_eq, Activation.headD_ids]

theorem At.ids_ne_nil (h : c.At as) : c.ids ≠ [] := by
  rw [h.ids_eq]
  exact Activation.ids_ne_nil as

theorem At.length_frames (h : c.At as) : c.frames.length = as.length + 1 := by
  rw [h.frames_eq, Activation.length_stack]

theorem At.depth (h : c.At as) : c.depth = as.length := by
  rw [Context.depth, h.length_frames, Nat.add_sub_cancel]

theorem At.currentFrame (h : c.At (as ++ [a])) : c.currentFrame = a.frame := by
  rw [Context.currentFrame, h.frames_eq, Activation.stack_concat, List.getLastD_concat]

/-! ### Entering and leaving -/

theorem At.entering (h : c.At as) (name : String) :
    c.entering (.text name) = stack (as ++ [.first c.lastId name]) := by
  rw [Context.entering, h.frames_eq, Activation.stack_concat]
  rfl

theorem enterFrame_eq (h : c.At as) (name : String) (s : Session) :
    enterFrame (.text name) (s, c) =
      (.ok (), s.recorded .context (frameLine "enter" (.text name) (as.length + 1)),
        c.movedTo (as ++ [.first c.lastId name]) (c.lastId + 1)) := by
  have hdepth : (c.renewed (stack (as ++ [.first c.lastId name]))).depth = as.length + 1 := by
    simp [depth, renewed, Activation.length_stack]
  rw [enterFrame_apply, h.entering, Activation.contextId_stack, hdepth]
  simp only [renewed, withIds, movedTo, Activation.ids_concat, h.ids_eq]

theorem At.at_root (h : c.At []) : c.frames.length ≤ 1 := Nat.le_of_eq h.length_frames

theorem At.in_loop (h : c.At (as ++ [a])) : ¬c.frames.length ≤ 1 := by simp [h.length_frames]

theorem exitFrame_root (h : c.At []) (s : Session) :
    exitFrame (s, c) = (.error (.refused .exitFromRoot), s, c) := by
  rw [exitFrame_apply, if_pos h.at_root]

theorem leave_eq (h : c.At (as ++ [a])) : c.leave = c.movedTo as c.lastId := by
  rw [leave, h.frames_eq, h.ids_eq, Activation.stack_concat, List.dropLast_concat, Activation.ids_concat,
    List.tail_cons]
  rfl

theorem exitFrame_eq (h : c.At (as ++ [a])) (s : Session) :
    exitFrame (s, c) =
      (.ok (), s.recorded .context (frameLine "exit" (.text a.name) as.length), c.movedTo as c.lastId) := by
  rw [exitFrame_apply, if_neg h.in_loop, if_neg h.ids_ne_nil, leave_eq h, (c.at_movedTo as c.lastId).depth,
    h.currentFrame]
  rfl

/-! ### The next iteration -/

theorem nextIteration_root (h : c.At []) : nextIteration c = (.error (.refused .iterationOfRoot), c) := by
  rw [nextIteration_apply, if_pos h.at_root]

theorem successor_natCast (n : Nat) : (Value.int n).successor = .ok (.int (n + 1 : Nat)) := rfl

/-- The frame of a loop in its next iteration, whether or not its number can be written. -/
def successorFrame (lastId : Nat) (a : Activation) : Frame :=
  ⟨.int (lastId + 1 : Nat), .text a.name, .int (a.iteration + 1 : Nat)⟩

theorem At.continuing (h : c.At (as ++ [a])) :
    c.continuing (.int (a.iteration + 1 : Nat)) = stack as ++ [successorFrame c.lastId a] := by
  rw [Context.continuing, h.currentFrame, h.frames_eq, Activation.stack_concat, List.dropLast_concat]
  rfl

theorem At.nextIteration_apply (h : c.At (as ++ [a])) :
    nextIteration c =
      match Frame.contextId (stack as ++ [successorFrame c.lastId a]) with
      | .ok id => (.ok (), (c.renewed (stack as ++ [successorFrame c.lastId a])).withIds (id :: Activation.ids as))
      | .error e => (.error e, c.renewed (stack as ++ [successorFrame c.lastId a])) := by
  have hids : c.ids.tail = Activation.ids as := by rw [h.ids_eq, Activation.ids_concat, List.tail_cons]
  have hsuccessor : a.frame.iteration.successor = .ok (.int (a.iteration + 1 : Nat)) := successor_natCast a.iteration
  rw [Context.nextIteration_apply, if_neg h.in_loop, h.currentFrame, hsuccessor, hids]
  simp only [h.continuing, if_neg h.ids_ne_nil]
  cases Frame.contextId (stack as ++ [successorFrame c.lastId a]) <;> rfl

theorem nextIteration_eq (h : c.At (as ++ [a])) (ha : a.iteration + 1 < 10 ^ Text.longestNumeral) :
    nextIteration c = (.ok (), c.movedTo (as ++ [a.next c.lastId ha]) (c.lastId + 1)) := by
  have hstack : stack as ++ [successorFrame c.lastId a] = stack (as ++ [a.next c.lastId ha]) :=
    (Activation.stack_concat as (a.next c.lastId ha)).symm
  rw [h.nextIteration_apply, hstack, Activation.contextId_stack]
  simp only [renewed, withIds, movedTo, Activation.ids_concat]

theorem segment_successorFrame (lastId : Nat) (ha : ¬a.iteration + 1 < 10 ^ Text.longestNumeral) :
    (successorFrame lastId a).segment = .error .badValue := Frame.segment_unwritten a.name (Nat.succ_pos lastId) ha

/-- The next iteration fails for want of a number that can be written, and then not by refusal; the stack is there. -/
theorem nextIteration_unwritten (h : c.At (as ++ [a])) (ha : ¬a.iteration + 1 < 10 ^ Text.longestNumeral) :
    nextIteration c = (.error .badValue, c.renewed (stack as ++ [successorFrame c.lastId a])) := by
  rw [h.nextIteration_apply, Activation.contextId_error as [] (segment_successorFrame c.lastId ha)]

theorem nextIteration_badValue (h : c.At (as ++ [a])) (ha : ¬a.iteration + 1 < 10 ^ Text.longestNumeral) :
    (nextIteration c).1 = .error .badValue := by
  rw [nextIteration_unwritten h ha]

/-! ### Another stack -/

theorem setFrames_eq (h : c.At as) (bs : List Activation) :
    setFrames (stack bs) c = (.ok (), c.movedTo bs c.lastId) := by
  have hroot : rooted (stack bs) = true := rfl
  rw [setFrames_apply, if_neg (by simp [hroot]), h.frames_eq, Activation.sameStack_stack, Activation.visibleIds_stack]
  by_cases hb : bs = as
  · rw [hb, decide_eq_true rfl, h.eq_movedTo]
  · rw [decide_eq_false hb]
    rfl

end Context

end Dataflow
