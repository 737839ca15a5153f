import Dataflow.Proofs.StackSteps
import Mathlib.Logic.Function.Basic

/-! Numbers of frames. A number is given once, to the frame on top of one stack, and no stack has the frame of that
    number without everything that was below it. So the number of a frame says which activation it is, in all the
    stacks that a run has ever had, although stacks that were there before come back and the numbers do not. -/

namespace Dataflow

namespace Frame

def number (f : Frame) : Nat :=
  match f.id with
  | .int n => n.toNat
  | _ => 0

end Frame

/-- A stack of frames that grew one frame at a time: its numbers were given in the order of the frames, each on top of
    what stands below it, and above the root there are loops with counted iterations. -/
structure Grown (birth : Nat → List Frame) (last : Nat) (S : List Frame) : Prop where
  root : S.head? = some .root
  born : ∀ P f, P ++ [f] <+: S → f.id = .int f.number ∧ f.number ≤ last ∧ birth f.number = P ++ [f]
  ascending : S.Pairwise (·.number < ·.number)
  loops : ∀ f ∈ S, ∃ (name : String) (k : Nat), f.name = .text name ∧ f.iteration = .int k

namespace Grown

variable {birth : Nat → List Frame} {last : Nat} {S P : List Frame} {f : Frame}

theorem number_le (h : Grown birth last S) (hf : f ∈ S) : f.number ≤ last := by
  obtain ⟨P, rest, rfl⟩ := List.append_of_mem hf
  exact (h.born P f ⟨rest, by simp⟩).2.1

theorem of_root (birth : Nat → List Frame) (hbirth : birth 0 = [.root]) (last : Nat) : Grown birth last [.root] where
  root := rfl
  born := fun P f hP => by
    obtain ⟨rest, hrest⟩ := hP
    cases P with
    | nil =>
      obtain ⟨rfl, -⟩ := List.cons.inj hrest
      exact ⟨rfl, Nat.zero_le _, hbirth⟩
    | cons p P => simp at hrest
  ascending := List.pairwise_singleton _ _
  loops := fun f hf => by
    rw [List.mem_singleton.mp hf]
    exact ⟨"", 0, rfl, rfl⟩

theorem mono {next : Nat} (h : Grown birth last S) (hn : last ≤ next) : Grown birth next S where
  root := h.root
  born := fun P f hP => ⟨(h.born P f hP).1, Nat.le_trans (h.born P f hP).2.1 hn, (h.born P f hP).2.2⟩
  ascending := h.ascending
  loops := h.loops

theorem of_prefix (h : Grown birth last S) (hP : P <+: S) (hne : P ≠ []) : Grown birth last P where
  root := by
    obtain ⟨p, P, rfl⟩ := List.exists_cons_of_ne_nil hne
    obtain ⟨rest, rfl⟩ := hP
    exact h.root
  born := fun Q f hQ => h.born Q f (hQ.trans hP)
  ascending := h.ascending.sublist hP.sublist
  loops := fun f hf => h.loops f (hP.subset hf)

/-- A number that is given to a new frame was not given before. -/
theorem update (h : Grown birth last S) (T : List Frame) : Grown (Function.update birth (last + 1) T) (last + 1) S where
  root := h.root
  born := fun P f hP => by
    obtain ⟨hid, hle, hbirth⟩ := h.born P f hP
    refine ⟨hid, Nat.le_succ_of_le hle, ?_⟩
    rw [Function.update_of_ne (Nat.ne_of_lt (Nat.lt_succ_of_le hle)), hbirth]
  ascending := h.ascending
  loops := h.loops

/-- A frame under the number after the latest, on top of frames that were there. -/
theorem push (h : Grown birth last P) (hid : f.id = .int (last + 1 : Nat))
    (hloop : ∃ (name : String) (k : Nat), f.name = .text name ∧ f.iteration = .int k) :
    Grown (Function.update birth (last + 1) (P ++ [f])) (last + 1) (P ++ [f]) := by
  have hnumber : f.number = last + 1 := by
    rw [Frame.number, hid]
    rfl
  have hbelow := h.update (P ++ [f])
  refine ⟨?_, fun Q g hQ => ?_, ?_, fun g hg => ?_⟩
  · rw [List.head?_append, h.root]
    rfl
  · rcases List.prefix_concat_iff.mp hQ with heq | hQ
    · obtain ⟨rfl, hg⟩ := List.append_inj' heq rfl
      cases hg
      rw [hnumber]
      exact ⟨hid, Nat.le_refl _, Function.update_self ..⟩
    · exact hbelow.born Q g hQ
  · refine List.pairwise_append.mpr ⟨h.ascending, List.pairwise_singleton _ _, fun a ha b hb => ?_⟩
    rw [List.mem_singleton.mp hb, hnumber]
    exact Nat.lt_succ_of_le (h.number_le ha)
  · rcases List.mem_append.mp hg with hg | hg
    · exact h.loops g hg
    · rwa [List.mem_singleton.mp hg]

theorem ids_eq (h : Grown birth last S) : S.map Frame.id = (S.map Frame.number).map fun (n : Nat) => .int n := by
  rw [List.map_map]
  refine List.map_congr_left fun f hf => ?_
  obtain ⟨P, rest, rfl⟩ := List.append_of_mem hf
  exact (h.born P f ⟨rest, by simp⟩).1

theorem take_prefix_concat {i : Nat} (hf : S[i]? = some f) : S.take i ++ [f] = S.take (i + 1) := by
  obtain ⟨hi, rfl⟩ := List.getElem?_eq_some_iff.mp hf
  exact (List.take_succ_eq_append_getElem hi).symm

/-- Frames of one number stand at one height, above the same frames. -/
theorem take_eq {T : List Frame} {g : Frame} {i j : Nat} (hS : Grown birth last S) (hT : Grown birth last T)
    (hf : S[i]? = some f) (hg : T[j]? = some g) (hid : f.id = g.id) : i = j ∧ S.take (i + 1) = T.take (j + 1) := by
  have hbornS := hS.born (S.take i) f (by rw [take_prefix_concat hf]; exact List.take_prefix _ _)
  have hbornT := hT.born (T.take j) g (by rw [take_prefix_concat hg]; exact List.take_prefix _ _)
  have hnumber : f.number = g.number := by rw [Frame.number, Frame.number, hid]
  have htake : S.take (i + 1) = T.take (j + 1) := by
    rw [← take_prefix_concat hf, ← take_prefix_concat hg, ← hbornS.2.2, ← hbornT.2.2, hnumber]
  have hi := (List.getElem?_eq_some_iff.mp hf).1
  have hj := (List.getElem?_eq_some_iff.mp hg).1
  have hlength := congrArg List.length htake
  rw [List.length_take, List.length_take] at hlength
  exact ⟨by omega, htake⟩

end Grown

namespace Context

variable {birth : Nat → List Frame} {c d : Context} {m : Move}

theorem successor_eq_natCast {k : Nat} {v : Value} (h : (Value.int k).successor = .ok v) : v = .int (k + 1 : Nat) :=
  (Except.ok.inj h).symm

/-- A step of the stack leaves one that has grown as well, under numbers of which at most one is new. -/
theorem Steps.grown (hstep : c.Steps m d) (h : Grown birth c.lastId c.frames)
    (hrestore : ∀ frames, m = .restore frames → Grown birth c.lastId frames) :
    ∃ birth', Grown birth' d.lastId d.frames ∧ ∀ S, Grown birth c.lastId S → Grown birth' d.lastId S := by
  have hdrop : 1 < c.frames.length → c.frames.dropLast ≠ [] := by
    intro hloop hnil
    have hlength := congrArg List.length hnil
    rw [List.length_dropLast, List.length_nil] at hlength
    omega
  cases hstep with
  | stays m n hn => exact ⟨birth, h.mono hn, fun S hS => hS.mono hn⟩
  | enters name ids _ => exact ⟨_, h.push rfl ⟨name, 0, rfl, rfl⟩, fun S hS => hS.update _⟩
  | leaves hloop => exact ⟨birth, h.of_prefix (List.dropLast_prefix _) (hdrop hloop), fun S hS => hS⟩
  | continues iteration ids hloop hiteration _ =>
    obtain ⟨name, k, hname, hk⟩ := h.loops c.currentFrame (by rw [eq_concat hloop]; simp)
    rw [hk] at hiteration
    have hbelow := h.of_prefix (List.dropLast_prefix _) (hdrop hloop)
    exact ⟨_, hbelow.push rfl ⟨name, k + 1, hname, successor_eq_natCast hiteration⟩, fun S hS => hS.update _⟩
  | assigns frames ids _ _ => exact ⟨birth, hrestore frames rfl, fun S hS => hS⟩

end Context

namespace Trace

variable {s : Session} {ms : List Move}

/-- All stacks that there ever were have grown under one and the same numbers. -/
theorem Restoring.grown (h : Restoring s ms) :
    ∃ birth, ∀ S ∈ (of s ms).earlier, Grown birth (of s ms).run.context.lastId S := by
  induction ms using List.reverseRecOn with
  | nil =>
    refine ⟨fun _ => [.root], fun S hS => ?_⟩
    rw [List.mem_singleton.mp hS]
    exact .of_root _ rfl _
  | append_singleton ms m ih =>
    obtain ⟨birth, hbirth⟩ := ih h.of_append
    have hcurrent := current_mem s ms
    rw [of_concat]
    obtain ⟨birth', hnew, hold⟩ := ((of s ms).steps m).grown (hbirth _ hcurrent) fun frames hm => by
      subst hm
      exact hbirth frames h.mem
    refine ⟨birth', fun S hS => ?_⟩
    rcases (mem_earlier_step _ m hcurrent).mp hS with hS | rfl
    · exact hold S (hbirth S hS)
    · exact hnew

/-- In every stack that a run ever had, the numbers of the frames ascend from the root's zero; and frames of one number,
    in whatever stacks, stand at one height above the same frames and are the same themselves. -/
theorem number_identifies_activation {s : Session} {ms : List Move} (h : Restoring s ms) :
    (∀ S ∈ (of s ms).earlier, S.head? = some .root ∧
      ∃ ns : List Nat, S.map Frame.id = ns.map (fun (n : Nat) => .int n) ∧ ns.head? = some 0 ∧ ns.Pairwise (· < ·)) ∧
    (∀ S ∈ (of s ms).earlier, ∀ T ∈ (of s ms).earlier, ∀ i j f g, S[i]? = some f → T[j]? = some g → f.id = g.id →
      i = j ∧ S.take (i + 1) = T.take (j + 1)) := by
  obtain ⟨birth, hbirth⟩ := h.grown
  refine ⟨fun S hS => ?_, fun S hS T hT i j f g hf hg => (hbirth S hS).take_eq (hbirth T hT) hf hg⟩
  have hgrown := hbirth S hS
  refine ⟨hgrown.root, S.map Frame.number, hgrown.ids_eq, ?_, List.pairwise_map.mpr hgrown.ascending⟩
  rw [List.head?_map, hgrown.root]
  rfl

/-- A loop that comes back in its first iteration goes on under a number that its second iteration did not have. -/
theorem number_identifies_activation_put_back :
    let s := Session.initial [] false false
    let loop : List Frame := [.root, .entered 1 (.text "loop")]
    let ms := [.enter "loop", .nextIteration, .restore loop, .nextIteration]
    let again : List Frame := [.root, ⟨.int 3, .text "loop", .int 1⟩]
    Restoring s ms ∧ [.root, ⟨.int 2, .text "loop", .int 1⟩] ∈ (of s ms).earlier ∧ again ∈ (of s ms).earlier ∧
      ∀ T ∈ (of s ms).earlier, ∀ j g, T[j]? = some g → g.id = .int 3 → j = 1 ∧ T.take 2 = again := by
  intro s loop ms again
  have hcount : 0 + 1 < 10 ^ Text.longestNumeral := Nat.one_lt_pow (by decide) (by decide)
  obtain ⟨hentered, hone⟩ := at_enter (n := 0) (at_initial s) rfl "loop"
  obtain ⟨hnext, htwo⟩ := at_nextIteration [] hentered hone hcount
  obtain ⟨hback, hstill⟩ := at_restore hnext [.first 0 "loop"]
  obtain ⟨hagain, -⟩ := at_nextIteration [] hback (hstill.trans htwo) hcount
  have hfirst := stack_mem hentered
  have hsecond := mem_earlier_append [.restore loop, .nextIteration] (stack_mem hnext)
  have hthird := stack_mem hagain
  have h : Restoring s ([] ++ [.enter "loop"] ++ [.nextIteration] ++ [.restore loop] ++ [.nextIteration]) := by
    refine restoring_concat (restoring_concat (restoring_of_notMem s (by simp)) fun frames hm => ?_)
      fun _ hm => nomatch hm
    obtain rfl := Move.restore.inj hm
    exact mem_earlier_append [.nextIteration] hfirst
  refine ⟨h, hsecond, hthird, fun T hT j g hg hid => ?_⟩
  obtain ⟨rfl, htake⟩ := (number_identifies_activation h).2 T hT again hthird j 1 g _ hg rfl hid
  exact ⟨rfl, htake⟩

end Trace

end Dataflow
