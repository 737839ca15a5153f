import Dataflow.Proofs.FrameNumbers
import Mathlib.Data.Set.List

/-! Keys of outputs. The key of a node in a stack of frames joins the node's name with the names and iterations of the
    loops, and nothing in a name is escaped. A key tells its node and its loops apart from all others where the name of
    the node has no mark in it and no segment ends within the name of a loop, and every other name is in a clash. -/

namespace Dataflow

namespace Frame

/-- The key of the outputs of a node in a stack of frames. -/
def keyIn (frames : List Frame) (node : String) : Outcome String := return Edge.key node (← contextId frames)

/-- The names and iterations on a stack of frames. -/
def path (frames : List Frame) : Path := frames.map fun f => (f.name, f.iteration)

/-- No segment ends within the name of a loop on the stack. -/
def Clear (frames : List Frame) : Prop := ∀ f ∈ frames, ∀ name, f.name = .text name → Activation.ClearName name

end Frame

namespace Activation

theorem keyIn_stack (as : List Activation) (node : String) :
    Frame.keyIn (stack as) node = .ok (Edge.key node (contextId as)) := by
  rw [Frame.keyIn, contextId_stack]
  rfl

theorem clearName_of_notMem {name : String} (h : '-' ∉ name.toList) : ClearName name := fun _ _ hpart =>
  h (hpart.subset List.mem_cons_self)

theorem clear_stack {as : List Activation} : Frame.Clear (stack as) ↔ ∀ a ∈ as, ClearName a.name := by
  constructor
  · intro h a ha
    exact h a.frame (List.mem_cons_of_mem _ (List.mem_map_of_mem ha)) a.name rfl
  · intro h f hf name hname
    rcases List.mem_cons.mp hf with rfl | hf
    · obtain rfl := Value.text.inj hname
      exact clearName_of_notMem (by decide)
    · obtain ⟨a, ha, rfl⟩ := List.mem_map.mp hf
      obtain rfl := Value.text.inj hname
      exact h a ha

theorem toList_contextId_cons (a : Activation) (as : List Activation) :
    (contextId (a :: as)).toList = '/' :: (a.segment.toList ++ (contextId as).toList) := by
  rw [toList_contextId, toList_contextId, List.flatMap_cons, List.cons_append]

/-- Keys of plain names in stacks of loops with clear names. -/
theorem keyIn_inj {as bs : List Activation} {m n k : String} (hm : Edge.Plain m) (hn : Edge.Plain n)
    (ha : Frame.Clear (stack as)) (hb : Frame.Clear (stack bs)) (hk : Frame.keyIn (stack as) m = .ok k)
    (hl : Frame.keyIn (stack bs) n = .ok k) : m = n ∧ Frame.path (stack as) = Frame.path (stack bs) := by
  rw [keyIn_stack, ← hl, keyIn_stack] at hk
  obtain ⟨hnode, hid⟩ :=
    (Edge.key_inj hm hn (rooted_contextId as) (rooted_contextId bs)).mp (Except.ok.inj hk)
  have hmarks := (contextId_inj_of_clear (clear_stack.mp ha) (clear_stack.mp hb)).mp hid
  exact ⟨hnode, path_inj.mpr hmarks⟩

/-! ### Names that are not told apart -/

/-- What follows a mark in the name of a node can as well stand before the name of the loop. -/
theorem key_of_mark (n r : String) {a b : Activation} (hname : b.name = r ++ "-/" ++ a.name)
    (hiteration : b.iteration = a.iteration) :
    Edge.key (n ++ "-/" ++ r) (contextId [a]) = Edge.key n (contextId [b]) := by
  refine String.toList_inj.mp ?_
  rw [Edge.toList_key (toList_contextId_cons a []), Edge.toList_key (toList_contextId_cons b [])]
  simp [toList_segment, hname, hiteration]

/-- A loop in whose name a segment ends can as well be two loops. -/
theorem contextId_of_segment {a b c : Activation} (hname : a.name = b.segment ++ "/" ++ c.name)
    (hiteration : a.iteration = c.iteration) : contextId [a] = contextId [b, c] := by
  refine String.toList_inj.mp ?_
  simp [toList_contextId_cons, toList_segment, hname, hiteration]

end Activation

open Activation (stack contextId)

/-! ### Stacks that have an identifier -/

theorem Frame.lt_of_segment {f : Frame} {text : String} {n k : Nat} (hid : f.id = .int n) (hn : 0 < n)
    (hk : f.iteration = .int k) (h : f.segment = .ok text) : k < 10 ^ Text.longestNumeral := by
  by_contra hlong
  have hloop : (Value.int n == .int 0) = false := by
    rw [Value.int_beq, decide_eq_false_iff_not]
    omega
  have hformatted : (Value.int k).formatted = .error .badValue :=
    Value.formatted_int_of_not (Int.natAbs_natCast k ▸ hlong)
  rw [Frame.segment, hid, hk, hloop, hformatted] at h
  obtain ⟨name, -, h⟩ := Outcome.bind_eq_ok.mp h
  cases h

/-- A stack that has grown is one of loops as soon as it has an identifier. -/
theorem Grown.exists_stack {birth : Nat → List Frame} {last : Nat} {S : List Frame} {id : String}
    (h : Grown birth last S) (hid : Frame.contextId S = .ok id) : ∃ as, S = stack as := by
  obtain ⟨segments, hsegments, -⟩ := Outcome.bind_eq_ok.mp hid
  obtain ⟨fs, rfl⟩ := List.head?_eq_some_iff.mp h.root
  have hloop : ∀ f ∈ fs, f ∈ Set.range Activation.frame := by
    intro f hf
    have hmem := List.mem_cons_of_mem Frame.root hf
    obtain ⟨P, rest, hfs⟩ := List.append_of_mem hmem
    obtain ⟨hnumber, -, -⟩ := h.born P f ⟨rest, by simp [hfs]⟩
    have hpos : 0 < f.number := (List.pairwise_cons.mp h.ascending).1 f hf
    obtain ⟨name, k, hname, hk⟩ := h.loops f hmem
    obtain ⟨segment, hsegment⟩ := Outcome.ok_of_mapM hsegments hmem
    refine ⟨⟨f.number, name, k, hpos, Frame.lt_of_segment hnumber hpos hk hsegment⟩, ?_⟩
    rw [Activation.frame, ← hnumber, ← hname, ← hk]
  obtain ⟨as, rfl⟩ : fs ∈ Set.range (List.map Activation.frame) := by
    rw [Set.range_list_map]
    exact hloop
  exact ⟨as, rfl⟩

/-! ### Keys of a run -/

namespace Trace

variable {s s' : Session} {ms ns : List Move} {S T : List Frame} {m n k : String}

theorem Restoring.exists_stack (h : Restoring s ms) (hS : S ∈ (of s ms).earlier) (hk : Frame.keyIn S n = .ok k) :
    ∃ as, S = stack as := by
  obtain ⟨birth, hgrown⟩ := h.grown
  obtain ⟨id, hid, -⟩ := Outcome.bind_eq_ok.mp hk
  exact (hgrown S hS).exists_stack hid

theorem exists_toList (cs : List Char) : ∃ text : String, cs = text.toList :=
  ⟨.ofList cs, String.toList_ofList.symm⟩

/-- A node with a mark in its name has a key that another node has in another loop. -/
theorem exists_key_of_not_plain (s : Session) {node : String} (hnode : ¬Edge.Plain node) (loop : String) :
    ∃ other inner k, other ≠ node ∧ Frame.keyIn (of s [.enter loop]).run.context.frames node = .ok k ∧
      Frame.keyIn (of s [.enter inner]).run.context.frames other = .ok k := by
  obtain ⟨before, after, hpart⟩ := not_not.mp hnode
  obtain ⟨n, rfl⟩ := exists_toList before
  obtain ⟨r, rfl⟩ := exists_toList after
  obtain rfl : n ++ "-/" ++ r = node := String.toList_inj.mp (by rw [← hpart]; simp)
  have hkey : Edge.key (n ++ "-/" ++ r) (contextId [.first 0 loop]) =
      Edge.key n (contextId [.first 0 (r ++ "-/" ++ loop)]) := Activation.key_of_mark n r rfl rfl
  refine ⟨n, r ++ "-/" ++ loop, Edge.key n (contextId [.first 0 (r ++ "-/" ++ loop)]), fun heq => ?_, ?_, ?_⟩
  · have hlength := congrArg String.length heq
    simp only [String.length_append] at hlength
    have hmark : "-/".length = 2 := rfl
    omega
  · rw [frames_enter, Activation.keyIn_stack, hkey]
  · rw [frames_enter, Activation.keyIn_stack]

/-- A loop in whose name a segment ends has the keys of two loops inside one another. -/
theorem exists_keys_of_not_clear (s : Session) {name : String} (hname : ¬Activation.ClearName name) :
    ∃ ns, (∀ frames, .restore frames ∉ ns) ∧
      Frame.path (of s ns).run.context.frames ≠ Frame.path (of s [.enter name]).run.context.frames ∧
      ∀ node, ∃ k, Frame.keyIn (of s [.enter name]).run.context.frames node = .ok k ∧
        Frame.keyIn (of s ns).run.context.frames node = .ok k := by
  simp only [Activation.ClearName, not_forall, not_not] at hname
  obtain ⟨k, hk, before, after, hpart⟩ := hname
  obtain ⟨u, rfl⟩ := exists_toList before
  obtain ⟨v, rfl⟩ := exists_toList after
  obtain rfl : u ++ "-" ++ toString k ++ "/" ++ v = name := String.toList_inj.mp (by rw [← hpart]; simp)
  obtain ⟨ns, b, c, hns, rfl, rfl, rfl, hc, hframes⟩ := exists_nested s u v hk
  have hid : contextId [.first 0 (b.segment ++ "/" ++ c.name)] = contextId [b, c] :=
    Activation.contextId_of_segment rfl hc.symm
  refine ⟨ns, hns, fun hpath => ?_, fun node => ⟨Edge.key node (contextId [b, c]), ?_, ?_⟩⟩
  · have hlength := congrArg List.length hpath
    rw [hframes, frames_enter] at hlength
    cases hlength
  · rw [frames_enter, Activation.keyIn_stack]
    exact congrArg (Except.ok ∘ Edge.key node) hid
  · rw [hframes, Activation.keyIn_stack]

/-- Keys tell apart the plain names of nodes and the loops with clear names, whatever runs led to them. Every other name
    of a node, in every loop, and every other name of a loop, for every node, has a key in common with others. -/
theorem keys_tell_apart :
    (∀ {s s' : Session} {ms ns : List Move} {S T : List Frame} {m n k : String}, Restoring s ms → Restoring s' ns →
      S ∈ (of s ms).earlier → T ∈ (of s' ns).earlier → Frame.Clear S → Frame.Clear T → Edge.Plain m → Edge.Plain n →
      Frame.keyIn S m = .ok k → Frame.keyIn T n = .ok k → m = n ∧ Frame.path S = Frame.path T) ∧
    (∀ (s : Session) (node loop : String), ¬Edge.Plain node →
      ∃ other inner k, other ≠ node ∧ Frame.keyIn (of s [.enter loop]).run.context.frames node = .ok k ∧
        Frame.keyIn (of s [.enter inner]).run.context.frames other = .ok k) ∧
    (∀ (s : Session) (name : String), ¬Activation.ClearName name → ∃ ns, (∀ frames, .restore frames ∉ ns) ∧
      Frame.path (of s ns).run.context.frames ≠ Frame.path (of s [.enter name]).run.context.frames ∧
      ∀ node, ∃ k, Frame.keyIn (of s [.enter name]).run.context.frames node = .ok k ∧
        Frame.keyIn (of s ns).run.context.frames node = .ok k) := by
  refine ⟨?_, fun s node loop hnode => exists_key_of_not_plain s hnode loop,
    fun s name hname => exists_keys_of_not_clear s hname⟩
  intro s s' ms ns S T m n k hms hns hS hT hclearS hclearT hm hn hk hl
  obtain ⟨as, rfl⟩ := hms.exists_stack hS hk
  obtain ⟨bs, rfl⟩ := hns.exists_stack hT hl
  exact Activation.keyIn_inj hm hn hclearS hclearT hk hl

/-- One loop, entered at once and after another, with one key under two frame numbers. -/
theorem keys_tell_apart_entered_later :
    let s := Session.initial [] false false
    let S := (of s [.enter "while/loop"]).run.context.frames
    let T := (of s [.enter "b", .exit, .enter "while/loop"]).run.context.frames
    S.map Frame.id = [.int 0, .int 1] ∧ T.map Frame.id = [.int 0, .int 2] ∧
      Frame.keyIn S "x/y" = .ok "x/y-/while/loop-0" ∧ Frame.keyIn T "x/y" = .ok "x/y-/while/loop-0" ∧
      Frame.path S = Frame.path T := by
  intro s S T
  obtain ⟨hb, hone⟩ := at_enter (n := 0) (at_initial s) rfl "b"
  obtain ⟨hroot, hstill⟩ := at_exit hb
  obtain ⟨hlater, -⟩ := at_enter hroot (hstill.trans hone) "while/loop"
  have hlater := hlater.frames_eq
  simp only [List.nil_append, List.cons_append] at hlater
  have hS : S = stack [.first 0 "while/loop"] := frames_enter s "while/loop"
  have hT : T = stack [.first 1 "while/loop"] := hlater
  have hloop : Activation.ClearName "while/loop" := Activation.clearName_of_notMem (by decide)
  have hnode : Edge.Plain "x/y" := Edge.plain_of_notMem (by decide)
  have hclear : ∀ n, Frame.Clear (stack [.first n "while/loop"]) := fun n =>
    Activation.clear_stack.mpr (List.forall_mem_singleton.mpr hloop)
  have hkeyS : Frame.keyIn S "x/y" = .ok "x/y-/while/loop-0" := by
    rw [hS, Activation.keyIn_stack]
    rfl
  have hkeyT : Frame.keyIn T "x/y" = .ok "x/y-/while/loop-0" := by
    rw [hT, Activation.keyIn_stack]
    rfl
  have hmemS : S ∈ (of s [.enter "while/loop"]).earlier := current_mem s _
  have hmemT : T ∈ (of s [.enter "b", .exit, .enter "while/loop"]).earlier := current_mem s _
  rw [hS, hT] at *
  refine ⟨rfl, rfl, hkeyS, hkeyT, ?_⟩
  exact (keys_tell_apart.1 (restoring_of_notMem s (by simp)) (restoring_of_notMem s (by simp)) hmemS hmemT (hclear 0)
    (hclear 1) hnode hnode hkeyS hkeyT).2

/-- The name of a node and the name of a loop that look like what another loop adds to a key. -/
theorem keys_of_loops_clash :
    let s := Session.initial [] false false
    let outside := (of s []).run.context.frames
    let loop := (of s [.enter "a"]).run.context.frames
    let nested := (of s [.enter "a", .enter "b"]).run.context.frames
    let joined := (of s [.enter "a-0/b"]).run.context.frames
    Frame.keyIn outside "x-/a-0" = .ok "x-/a-0" ∧ Frame.keyIn loop "x" = .ok "x-/a-0" ∧
      Frame.path outside ≠ Frame.path loop ∧ Frame.keyIn nested "x" = .ok "x-/a-0/b-0" ∧
      Frame.keyIn joined "x" = .ok "x-/a-0/b-0" ∧ Frame.path nested ≠ Frame.path joined := by
  intro s outside loop nested joined
  obtain ⟨hentered, hone⟩ := at_enter (n := 0) (at_initial s) rfl "a"
  obtain ⟨hinner, -⟩ := at_enter hentered hone "b"
  have hinner := hinner.frames_eq
  simp only [List.nil_append, List.cons_append] at hinner
  have hnested : nested = stack [.first 0 "a", .first 1 "b"] := hinner
  have houtside : outside = stack [] := rfl
  have hloop : loop = stack [.first 0 "a"] := frames_enter s "a"
  have hjoined : joined = stack [.first 0 "a-0/b"] := frames_enter s "a-0/b"
  rw [houtside, hloop, hnested, hjoined]
  simp only [Activation.keyIn_stack]
  refine ⟨rfl, rfl, fun hpath => ?_, rfl, rfl, fun hpath => ?_⟩
  · cases congrArg List.length hpath
  · cases congrArg List.length hpath

end Trace

end Dataflow
