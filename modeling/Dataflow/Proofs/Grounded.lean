import Dataflow.Proofs.VisibleIds
import Dataflow.Proofs.VisitEffects

/-! The root of every stack. Whatever is done to a context, its stack of frames starts at the root, and so does every
    identifier that is visible, also after moves that failed half way. Keys of different nodes are then different. -/

namespace Dataflow

/-! ### Identifiers of stacks -/

namespace Frame

variable {fs : List Frame} {id : String} {ids : List String}

theorem segment_of_root {f : Frame} (h : (f == .root) = true) : f.segment = .ok "" := by
  have hsame : f.same .root = true := h
  simp only [same, root, Bool.and_eq_true] at hsame
  rw [segment, if_pos (by rw [hsame.1.1, hsame.2]; rfl)]
  rfl

theorem rooted_of_contextId (h : Context.rooted fs = true) (hid : contextId fs = .ok id) : Edge.Rooted id := by
  cases fs with
  | nil => cases h
  | cons f fs =>
    rw [contextId, List.mapM_cons, segment_of_root h, Outcome.ok_bind] at hid
    obtain ⟨segments, hsegments, hid⟩ := Outcome.bind_eq_ok.mp hid
    obtain ⟨rest, -, hrest⟩ := Outcome.bind_eq_ok.mp hsegments
    cases hrest
    cases hid
    cases rest with
    | nil => exact Or.inl String.intercalate_singleton
    | cons x rest =>
      refine Or.inr ⟨List.intercalate ['/'] ((x :: rest).map String.toList), ?_⟩
      rw [String.toList_intercalate]
      show List.intercalate ['/'] ([] :: (x :: rest).map String.toList) = _
      rw [List.map_cons, List.intercalate_cons_cons]
      rfl

theorem rooted_of_visibleIds (h : Context.rooted fs = true) (hids : visibleIds fs = .ok ids) :
    ∀ id ∈ ids, Edge.Rooted id := by
  intro id hid
  obtain ⟨part, hpart, hid⟩ := Outcome.exists_of_mapM hids hid
  obtain ⟨k, hk, rfl⟩ := List.mem_map.mp hpart
  have hlt := List.mem_range.mp hk
  refine rooted_of_contextId ?_ hid
  cases fs with
  | nil => cases h
  | cons f fs =>
    rw [List.length_cons, Nat.succ_sub (Nat.le_of_lt_succ hlt), List.take_succ_cons]
    exact h

end Frame

namespace Context

/-- The stack starts at the root, and so does every identifier that is visible. -/
structure Grounded (c : Context) : Prop where
  frames : rooted c.frames = true
  ids : ∀ id ∈ c.ids, Edge.Rooted id

variable {c d : Context}

theorem Grounded.of_eq (h : c.Grounded) (hframes : d.frames = c.frames) (hids : d.ids = c.ids) : d.Grounded :=
  ⟨hframes ▸ h.frames, hids ▸ h.ids⟩

theorem grounded_initial : initial.Grounded := ⟨rfl, fun _ hid => Or.inl (List.mem_singleton.mp hid)⟩

theorem Grounded.enterFrame (h : c.Grounded) (name : Value) (s : Session) :
    (Context.enterFrame name (s, c)).2.2.Grounded := by
  have hframes : rooted (c.entering name) = true := rooted_append _ h.frames
  rw [enterFrame_apply]
  cases hid : Frame.contextId (c.entering name) with
  | error e => exact ⟨hframes, h.ids⟩
  | ok id => exact ⟨hframes, List.forall_mem_cons.mpr ⟨Frame.rooted_of_contextId hframes hid, h.ids⟩⟩

theorem Grounded.exitFrame (h : c.Grounded) (s : Session) : (Context.exitFrame (s, c)).2.2.Grounded := by
  rw [exitFrame_apply]
  split
  · exact h
  · rename_i hloop
    have hleave : c.leave.Grounded :=
      ⟨rooted_dropLast h.frames (Nat.lt_of_not_le hloop), fun id hid => h.ids id (List.mem_of_mem_tail hid)⟩
    split <;> exact hleave

theorem Grounded.nextIteration (h : c.Grounded) : (Context.nextIteration c).2.Grounded := by
  rw [nextIteration_apply]
  split
  · exact h
  rename_i hloop
  cases c.currentFrame.iteration.successor with
  | error e => exact ⟨h.frames, h.ids⟩
  | ok k =>
    have hframes : rooted (c.continuing k) = true := rooted_append _ (rooted_dropLast h.frames (Nat.lt_of_not_le hloop))
    cases hid : Frame.contextId (c.continuing k) with
    | error e =>
      simp only [hid]
      exact ⟨hframes, h.ids⟩
    | ok id =>
      simp only [hid]
      split
      · exact ⟨hframes, h.ids⟩
      · exact ⟨hframes, List.forall_mem_cons.mpr
          ⟨Frame.rooted_of_contextId hframes hid, fun id hid => h.ids id (List.mem_of_mem_tail hid)⟩⟩

theorem Grounded.setFrames (h : c.Grounded) (frames : List Frame) : (Context.setFrames frames c).2.Grounded := by
  rw [setFrames_apply]
  split
  · exact h
  rename_i hroot
  rw [Bool.not_eq_false] at hroot
  rcases Frame.sameStack frames c.frames with e | _ | _
  · exact h
  · cases hids : Frame.visibleIds frames with
    | error e =>
      exact ⟨hroot, h.ids⟩
    | ok ids =>
      exact ⟨hroot, Frame.rooted_of_visibleIds hroot hids⟩
  · exact h

theorem Grounded.gainsArray (h : c.Grounded) (hd : c.GainsArray d) : d.Grounded := by
  rcases hd with rfl | ⟨a, rfl⟩
  · exact h
  · exact h.of_eq rfl rfl

theorem Grounded.gainsQueue (h : c.Grounded) (hd : c.GainsQueue d) : d.Grounded := by
  rcases hd with rfl | ⟨q, rfl⟩
  · exact h
  · exact h.of_eq rfl rfl

theorem Grounded.touched (h : c.Grounded) {o : Option Object} (hd : c.Touched o d) : d.Grounded :=
  h.of_eq hd.frames hd.ids

end Context

namespace Visit

/-- What comes after a move leaves the context as the move left it. -/
theorem context_move {move : Action (Session × Context) Unit} {v : Value} (p : Session × Context) :
    ((do move; return tensorOutputs [← v.toTensor] : Action (Session × Context) (Option Outputs)) p).2 = (move p).2 := by
  rw [Action.bind_apply]
  rcases move p with ⟨e | ⟨⟩, q⟩
  · rfl
  · simp only [Action.bind_apply, Action.lift_apply]
    cases v.toTensor <;> rfl

end Visit

theorem Node.grounded_visit {c : Context} (h : c.Grounded) (n : Node) (values : Values) (s : Session) :
    (n.visit values (s, c)).2.2.Grounded := by
  by_cases hlocal : n.Local
  · exact h.touched (touched_visit hlocal values s c).2
  simp only [Local, not_forall, not_not] at hlocal
  obtain ⟨op, hstructural, hop⟩ := hlocal
  rw [visit_eq hop]
  simp only [ControlOp.structural, List.mem_cons, List.not_mem_nil, or_false] at hstructural
  rcases hstructural with rfl | rfl | rfl | rfl | rfl
  · refine Visit.leads_bind rfl h fun name => Visit.leads_bind rfl h fun x => ?_
    rw [Visit.context_move]
    exact h.enterFrame name s
  · refine Visit.leads_bind rfl h fun x => ?_
    rw [Visit.context_move]
    exact h.exitFrame s
  · refine Visit.leads_bind rfl h fun x => ?_
    rw [Visit.context_move]
    exact h.nextIteration
  · exact h.gainsArray (Visit.gains_tensorArray n values s c)
  · exact h.gainsQueue (Visit.gains_fifoQueue n values s c)

namespace ContextUse

theorem grounded_after (u : ContextUse) {p : Session × Context} (h : p.2.Grounded) : (u.after p).2.Grounded := by
  obtain ⟨s, c⟩ := p
  cases u with
  | visit n values => exact n.grounded_visit h values s
  | enterFrame name => exact h.enterFrame name s
  | exitFrame => exact h.exitFrame s
  | nextIteration => exact h.nextIteration
  | setFrames frames => exact h.setFrames frames
  | addArray a => exact h.gainsArray (Context.gains_addArray a s c)
  | addQueue q => exact h.gainsQueue (Context.gains_addQueue q s c)
  | callArray k m args =>
    exact h.touched ((Context.confined_onArray (TensorArray.confined_call m args) k).keeps (s, c)).2
  | callQueue k m args => exact h.touched ((Context.confined_onQueue (Queue.confined_call m args) k).keeps (s, c)).2

theorem grounded_run (s : Session) (uses : List ContextUse) : (run s uses).2.Grounded := by
  induction uses using List.reverseRecOn with
  | nil => exact Context.grounded_initial
  | append_singleton uses u ih =>
    rw [run_concat]
    exact u.grounded_after ih

end ContextUse

end Dataflow
