import Dataflow.Proofs.Calls
import Dataflow.Proofs.Zeros

/-! Tensor arrays and queues of the host, beside those that hold the same tensors on the other backend. Each operation
    that succeeds on the one succeeds on the other, answers the same and leaves the same behind. -/

namespace Dataflow

open Dataflow.Action (Follows)
open Dataflow.Action.Follows (Both)

/-! ### Lists of slots -/

section Modify

variable {α β : Type} {f : α → α} {f' : β → β} {g : α → β} {l : List α} {P : α → Prop}

theorem map_modify (h : ∀ x, g (f x) = f' (g x)) (l : List α) (k : Nat) :
    (l.modify k f).map g = (l.map g).modify k f' := by
  induction l generalizing k with
  | nil => cases k <;> rfl
  | cons x l ih =>
    cases k with
    | zero => exact congrArg (· :: l.map g) (h x)
    | succ k => exact congrArg (g x :: ·) (ih k)

theorem forall_mem_modify (hl : ∀ x ∈ l, P x) (hf : ∀ x, P x → P (f x)) (k : Nat) : ∀ x ∈ l.modify k f, P x := by
  induction l generalizing k with
  | nil => cases k <;> exact hl
  | cons x l ih =>
    obtain ⟨hx, hl⟩ := List.forall_mem_cons.mp hl
    cases k with
    | zero => exact List.forall_mem_cons.mpr ⟨hf x hx, hl⟩
    | succ k => exact List.forall_mem_cons.mpr ⟨hx, ih hl k⟩

end Modify

/-! ### Tensor arrays -/

namespace Slot

def on (b : Device) (s : Slot) : Slot := { s with tensor := s.tensor.map (Tensor.on b) }

def OnHost (s : Slot) : Prop := ∀ x ∈ s.tensor, x.device = .host

end Slot

namespace TensorArray

/-- The array with its tensors held by a device. -/
def on (b : Device) (a : TensorArray) : TensorArray := { a with slots := a.slots.map (Slot.on b) }

def OnHost (a : TensorArray) : Prop := ∀ s ∈ a.slots, s.OnHost

/-- An array with tensors of the host, and the same one with its tensors held by the other backend. -/
structure Twin (a a' : TensorArray) : Prop where
  host : a.OnHost
  eq : a' = a.on .torch

variable {a a' : TensorArray} {x x' : Tensor}

namespace Twin

/-- An array without tensors is the same one on either backend. -/
theorem of_empty (h : ∀ s ∈ a.slots, s = .empty) : Twin a a := by
  have hslots : a.slots.map (Slot.on .torch) = a.slots :=
    (List.map_congr_left fun s hs => h s hs ▸ rfl).trans (List.map_id _)
  refine ⟨fun s hs x hx => ?_, ?_⟩
  · rw [h s hs] at hx
    cases hx
  · rw [TensorArray.on, hslots]

theorem size (h : Twin a a') : a.size = a'.size := by
  obtain ⟨-, rfl⟩ := h
  exact (List.length_map _).symm

theorem onSlot {f f' : Slot → Slot} (h : Twin a a') (hhost : ∀ s, s.OnHost → (f s).OnHost)
    (heq : ∀ s, (f s).on .torch = f' (s.on .torch)) (k : Nat) : Twin (a.onSlot k f) (a'.onSlot k f') := by
  obtain ⟨ha, rfl⟩ := h
  refine ⟨forall_mem_modify ha hhost k, ?_⟩
  show { a with slots := (a.slots.map (Slot.on .torch)).modify k f' } = _
  rw [← map_modify heq]
  rfl

theorem store (h : Twin a a') (hx : x.Twin x') (k : Nat) : Twin (a.onSlot k (.store x)) (a'.onSlot k (.store x')) := by
  obtain ⟨hhost, rfl⟩ := hx
  have hstore (s : Slot) : (s.store x).on .torch = (s.on .torch).store (x.on .torch) := rfl
  refine h.onSlot (fun s _ y hy => ?_) hstore k
  cases hy
  exact hhost

theorem release (h : Twin a a') (k : Nat) : Twin (a.onSlot k .release) (a'.onSlot k .release) := by
  have hrelease (s : Slot) : s.release.on .torch = (s.on .torch).release := rfl
  refine h.onSlot (fun s _ y hy => ?_) hrelease k
  cases hy

theorem growBy (h : Twin a a') (n : Nat) : Twin (a.growBy n) (a'.growBy n) := by
  obtain ⟨ha, rfl⟩ := h
  refine ⟨fun s hs => ?_, ?_⟩
  · rcases List.mem_append.mp hs with hs | hs
    · exact ha s hs
    · rw [List.eq_of_mem_replicate hs]
      exact nofun
  · have hslots : (a.slots ++ List.replicate n Slot.empty).map (Slot.on .torch) =
        a.slots.map (Slot.on .torch) ++ List.replicate n Slot.empty := by
      rw [List.map_append, List.map_replicate]
      rfl
    show { a with slots := a.slots.map (Slot.on .torch) ++ List.replicate n Slot.empty } = _
    rw [← hslots]
    rfl

theorem pin (h : Twin a a') (s : Shape) : Twin (a.pin s) (a'.pin s) := by
  obtain ⟨ha, rfl⟩ := h
  unfold TensorArray.pin
  show Twin _ (if (a.identical && !a.elementShape.isDefined) = true then _ else _)
  split
  · exact ⟨ha, rfl⟩
  · exact ⟨ha, rfl⟩

end Twin

/-! ### Reads and writes -/

theorem fails_refuse {α : Type} (cause : ArrayRefusal) : (refuse cause : Action TensorArray α).Fails :=
  .bind_right fun _ => .throw _

theorem follows_requireOpen : Follows Twin Eq requireOpen requireOpen := by
  refine .bind .state fun a a' h => ?_
  obtain ⟨-, rfl⟩ := h
  exact .ite (fun _ => (fails_refuse _).follows _) fun _ => .pure rfl

theorem follows_checkReadIndex (i : Value) : Follows Twin Eq (checkReadIndex i) (checkReadIndex i) := by
  refine .bind (.lift (.refl _)) fun negative negative' hnegative => ?_
  obtain rfl := hnegative
  refine .refusal (fails_refuse _) fun _ => .bind .state fun a a' h => ?_
  rw [← h.size]
  refine .bind (.lift (.refl _)) fun less less' hless => ?_
  obtain rfl := hless
  exact .ite (fun _ => (fails_refuse _).follows _) fun _ => .pure rfl

theorem follows_checkWriteIndex (i : Value) : Follows Twin Eq (checkWriteIndex i) (checkWriteIndex i) := by
  refine .bind (.lift (.refl _)) fun negative negative' hnegative => ?_
  obtain rfl := hnegative
  refine .refusal (fails_refuse _) fun _ => .bind .state fun a a' h => ?_
  rw [← h.size]
  refine .bind (.lift (.refl _)) fun less less' hless => ?_
  obtain rfl := hless
  have hdynamic : a'.dynamicSize = a.dynamicSize := h.eq ▸ rfl
  rw [hdynamic]
  refine .ite (fun _ => ?_) fun _ => .pure rfl
  refine .refusal (fails_refuse _) fun _ => .bind (.lift (.refl _)) fun n n' hn => ?_
  obtain rfl := hn
  exact .modify fun _ _ h => h.growBy _

theorem follows_placeOf (i : Value) : Follows Twin Eq (placeOf i) (placeOf i) := by
  refine .bind (.lift (.refl _)) fun k k' hk => ?_
  obtain rfl := hk
  refine .bind .state fun a a' h => ?_
  rw [← h.size]
  exact .refusal (.throw _) fun _ => .pure rfl

theorem follows_read (i : Value) : Follows Twin Tensor.Twin (read i) (read i) := by
  refine .bind follows_requireOpen fun _ _ _ => .bind (follows_checkReadIndex i) fun _ _ _ => ?_
  refine .bind (.lift (.refl _)) fun k k' hk => ?_
  obtain rfl := hk
  refine .bind .state fun a a' h => ?_
  obtain ⟨ha, rfl⟩ := h
  have hslots : (a.on .torch).slots[k.toNat]? = a.slots[k.toNat]?.map (Slot.on .torch) := List.getElem?_map
  rw [hslots]
  cases hslot : a.slots[k.toNat]? with
  | none => exact (Action.Fails.throw _).follows _
  | some slot =>
    refine .refusal (fails_refuse _) fun _ => ?_
    cases htensor : slot.tensor with
    | none => exact (fails_refuse _).follows _
    | some x =>
      have hx : x.device = .host := ha slot (List.mem_of_getElem? hslot) x htensor
      have hmoved : (slot.on .torch).tensor = some (x.on .torch) := by
        rw [Slot.on, htensor]
        rfl
      simp only [hmoved]
      refine .bind (.modify fun a a' h => ?_) fun _ _ _ => .pure ⟨hx, rfl⟩
      obtain ⟨ha, rfl⟩ := h
      show Twin (if a.clearAfterRead then a.onSlot k.toNat .release else a)
        (if a.clearAfterRead then (a.on .torch).onSlot k.toNat .release else a.on .torch)
      split
      · exact .release ⟨ha, rfl⟩ _
      · exact ⟨ha, rfl⟩

theorem follows_requireElementType (operation : String) (x : Tensor) :
    Follows Twin (fun s s' => s = x.shape ∧ s' = x.shape) (requireElementType operation (.tensor x))
      (requireElementType operation (.tensor (x.on .torch))) := by
  refine .bind .state fun a a' h => ?_
  obtain ⟨-, rfl⟩ := h
  rw [checkElementType_tensor, checkElementType_tensor]
  exact .lift (.bind (.refl _) fun _ _ _ _ => .ok ⟨rfl, rfl⟩)

theorem follows_toTensor (x : Tensor) :
    (Value.tensor x).toTensor.Follows (fun y y' => y = x ∧ y' = x.on .torch) (Value.tensor (x.on .torch)).toTensor :=
  .ok ⟨rfl, rfl⟩

theorem follows_write (i : Value) (hx : x.device = .host) :
    Follows Twin Eq (write i (.tensor x)) (write i (.tensor (x.on .torch))) := by
  refine .bind follows_requireOpen fun _ _ _ => .bind (follows_requireElementType _ x) fun s s' hs => ?_
  obtain ⟨rfl, rfl⟩ := hs
  refine .bind .state fun a a' h => ?_
  obtain ⟨-, rfl⟩ := h
  refine .bind (.lift (.refl _)) fun _ _ _ => .bind (follows_checkWriteIndex i) fun _ _ _ => ?_
  refine .bind (.modify fun _ _ h => h.pin x.shape) fun _ _ _ => .bind (follows_placeOf i) fun k k' hk => ?_
  obtain rfl := hk
  refine .bind (.lift (follows_toTensor x)) fun y y' hy => .modify fun _ _ h => ?_
  obtain ⟨rfl, rfl⟩ := hy
  exact h.store ⟨hx, rfl⟩ k

/-! ### Several slots -/

theorem follows_readEach (is : List Value) : Follows Twin (List.Forall₂ Tensor.Twin) (readEach is) (readEach is) := by
  induction is with
  | nil => exact .pure .nil
  | cons i is ih => exact .bind (follows_read i) fun _ _ hx => .bind ih fun _ _ hxs => .pure (.cons hx hxs)

theorem follows_readMany (indices : Value) :
    Follows Twin (List.Forall₂ Tensor.Twin) (readMany indices) (readMany indices) := by
  refine .bind (.lift (.refl _)) fun is is' his => ?_
  obtain rfl := his
  exact follows_readEach is

theorem follows_writeEach (is : List Value) {xs ys : List Tensor} (h : List.Forall₂ Tensor.Twin xs ys) :
    Follows Twin Eq (writeEach (is.zip (xs.map .tensor))) (writeEach (is.zip (ys.map .tensor))) := by
  induction h generalizing is with
  | nil =>
    rw [List.map_nil, List.zip_nil_right]
    exact .pure rfl
  | cons hxy _ ih =>
    cases is with
    | nil => exact .pure rfl
    | cons i is =>
      obtain ⟨hx, rfl⟩ := hxy
      exact .bind (follows_write i hx) fun _ _ _ => ih is

theorem follows_writeMany (indices : Value) (xs : Sequence Tensor) (hxs : ∀ x ∈ xs.members, x.device = .host) :
    Follows Twin Eq (writeMany indices (xs.toValue .tensor))
      (writeMany indices ((xs.map (Tensor.on .torch)).toValue .tensor)) := by
  refine .bind (.lift (.refl _)) fun is is' his => ?_
  obtain rfl := his
  have hitems : Outcome.Follows (fun vs vs' => vs = xs.members.map .tensor ∧
      vs' = (xs.members.map (Tensor.on .torch)).map .tensor) (xs.toValue .tensor).items
      ((xs.map (Tensor.on .torch)).toValue .tensor).items := by
    rw [Sequence.items_toValue, Sequence.items_toValue]
    exact .ok ⟨rfl, rfl⟩
  refine .bind (.lift hitems) fun vs vs' hvs => ?_
  obtain ⟨rfl, rfl⟩ := hvs
  rw [List.length_map, List.length_map, List.length_map]
  exact .refusal (fails_refuse _) fun _ => follows_writeEach is (Tensor.twins_of_host hxs)

theorem follows_scatter (indices : Value) (hx : x.device = .host) :
    Follows Twin Eq (scatter indices (.tensor x)) (scatter indices (.tensor (x.on .torch))) := by
  refine .bind follows_requireOpen fun _ _ _ => .bind (follows_requireElementType _ x) fun s s' hs => ?_
  obtain ⟨rfl, rfl⟩ := hs
  refine .bind (.lift (.refl _)) fun is is' his => ?_
  obtain rfl := his
  refine .refusal (fails_refuse _) fun hcount => ?_
  have hhead : x.shape.head? = some is.length := not_not.mp hcount
  obtain ⟨s, hshape⟩ := List.head?_eq_some_iff.mp hhead
  rcases is with _ | ⟨i, rest⟩
  · exact .pure rfl
  refine .bind (.lift (.refl _)) fun last last' hlast => .bind .state fun a a' h => ?_
  obtain rfl := hlast
  have hrest : Follows Twin Eq
      (do
        let t ← (Value.tensor x).toTensor
        let rows ← t.rowsUpTo (i :: rest).length
        writeEach ((i :: rest).zip (rows.map .tensor)))
      (do
        let t ← (Value.tensor (x.on .torch)).toTensor
        let rows ← t.rowsUpTo (i :: rest).length
        writeEach ((i :: rest).zip (rows.map .tensor))) := by
    refine .bind (.lift (follows_toTensor x)) fun y y' hy => ?_
    obtain ⟨rfl, rfl⟩ := hy
    exact .bind (.lift (Tensor.follows_rowsUpTo hx hshape _)) fun rows rows' hrows => follows_writeEach _ hrows
  rw [← h.size, show a'.dynamicSize = a.dynamicSize from h.eq ▸ rfl]
  refine .ite (fun _ => .bind (.lift (.refl _)) fun past past' hpast => ?_) fun _ => hrest
  obtain rfl := hpast
  exact .refusal (fails_refuse _) fun _ => hrest

theorem follows_split (lengths : Value) (hx : x.device = .host) (hdims : ∀ n ∈ x.shape, n < 2 ^ 63) :
    Follows Twin Eq (split lengths (.tensor x)) (split lengths (.tensor (x.on .torch))) := by
  refine .bind follows_requireOpen fun _ _ _ => .bind (follows_requireElementType _ x) fun s s' hs => ?_
  obtain ⟨rfl, rfl⟩ := hs
  cases hshape : x.shape with
  | nil => exact (fails_refuse _).follows _
  | cons d s =>
    refine .bind (.lift (.refl _)) fun ns ns' hns => ?_
    obtain rfl := hns
    refine .ite (fun _ => ?_) fun _ => .bind .state fun a a' h => ?_
    · refine .bind (.lift (.refl _)) fun _ _ _ => ?_
      exact ((fails_refuse _).bind_left _).follows _
    rw [← h.size, show a'.dynamicSize = a.dynamicSize from h.eq ▸ rfl]
    refine .refusal (fails_refuse _) fun _ => .bind (.lift (follows_toTensor x)) fun y y' hy => ?_
    obtain ⟨rfl, rfl⟩ := hy
    have hd : d < 2 ^ 63 := hdims d (hshape ▸ List.mem_cons_self)
    exact .bind (.lift (Tensor.follows_split hx hshape hd ns)) fun parts parts' hparts => follows_writeEach _ hparts

/-! ### Operations beside a session -/

/-- Sessions and arrays of either backend. -/
def Parallel : Session × TensorArray → Session × TensorArray → Prop := Both Session.Parallel Twin

theorem follows_openSize : Follows Twin Eq openSize openSize :=
  .bind follows_requireOpen fun _ _ _ => .bind .state fun _ _ h => .pure h.size

theorem follows_checkAsked (operation : String) (dtype : Value) :
    Follows Twin Eq (checkAsked operation dtype) (checkAsked operation dtype) := by
  refine .bind .state fun a a' h => ?_
  obtain ⟨-, rfl⟩ := h
  exact .lift (.refl _)

theorem follows_nothingOf (dropFirst : Bool) :
    Follows Parallel Tensor.Agrees (nothingOf dropFirst) (nothingOf dropFirst) := by
  refine .bind .state fun p p' h => ?_
  dsimp only
  rw [show p'.2.elementShape = p.2.elementShape from h.2.eq ▸ rfl, show p'.2.dtype = p.2.dtype from h.2.eq ▸ rfl]
  exact .onFirst (Session.follows_empty _ _)

theorem follows_gather (indices dtype : Value) :
    Follows Parallel Tensor.Agrees (gather indices dtype) (gather indices dtype) := by
  refine .bind (.onSecond follows_requireOpen) fun _ _ _ => .bind (.onSecond (follows_checkAsked _ _)) fun _ _ _ => ?_
  refine .bind (.lift (.refl _)) fun is is' his => ?_
  obtain rfl := his
  refine .ite (fun _ => follows_nothingOf false) fun _ => ?_
  refine .bind (.onSecond (follows_readEach is)) fun xs ys hxs => ?_
  obtain ⟨hhost, rfl⟩ := Tensor.forall₂_twin hxs
  exact (Follows.lift (Tensor.follows_stack hhost)).mono fun _ _ h => h.agrees

theorem Twin.held (h : Twin a a') : a'.held = a.held := by
  have hslot (k : Nat) : (a'.slots[k]?.bind Slot.tensor).isSome = (a.slots[k]?.bind Slot.tensor).isSome := by
    have hslots : a'.slots[k]? = a.slots[k]?.map (Slot.on .torch) := h.eq ▸ List.getElem?_map
    rw [hslots]
    cases a.slots[k]? with
    | none => rfl
    | some s => exact Option.isSome_map
  rw [TensorArray.held, TensorArray.held, ← h.size]
  exact List.filter_congr fun k _ => hslot k

theorem follows_concat (dtype : Value) : Follows Parallel Tensor.Agrees (concat dtype) (concat dtype) := by
  refine .bind (.onSecond follows_requireOpen) fun _ _ _ => .bind (.onSecond (follows_checkAsked _ _)) fun _ _ _ => ?_
  refine .bind .state fun p p' h => ?_
  rw [h.2.held]
  refine .ite (fun _ => follows_nothingOf true) fun _ => ?_
  refine .bind (.onSecond (follows_readEach _)) fun xs ys hxs => ?_
  obtain ⟨hhost, rfl⟩ := Tensor.forall₂_twin hxs
  have hranks : (xs.map (Tensor.on .torch)).any (·.rank = 0) = xs.any (·.rank = 0) := List.any_map
  rw [hranks]
  refine .refusal (fun p x hx => fails_refuse _ p.2 x hx) fun hscalar => ?_
  have hranked : ∀ x ∈ xs, x.shape ≠ [] := fun x hx hnil => hscalar <|
    List.any_eq_true.mpr ⟨x, hx, decide_eq_true (congrArg List.length hnil)⟩
  exact (Follows.lift (Tensor.follows_tie hhost hranked)).mono fun _ _ h => h.agrees

theorem follows_clearAndClose : Follows Parallel Eq clearAndClose clearAndClose := by
  refine .bind (.modify fun p p' h => ?_) fun _ _ _ => .bind .state fun p p' h => ?_
  · obtain ⟨s, a⟩ := p
    obtain ⟨s', a'⟩ := p'
    obtain ⟨hs, -, rfl⟩ := h
    exact ⟨hs, nofun, rfl⟩
  · have hname : p'.2.name = p.2.name := h.2.eq ▸ rfl
    rw [hname]
    exact .onFirst (Session.follows_record _ _)

end TensorArray

/-! ### Queues -/

namespace Queue

/-- The queue with its tensors held by a device. -/
def on (b : Device) (q : Queue) : Queue := { q with tuples := q.tuples.map (List.map (Tensor.on b)) }

def OnHost (q : Queue) : Prop := ∀ t ∈ q.tuples, ∀ x ∈ t, x.device = .host

/-- A queue with tensors of the host, and the same one with its tensors held by the other backend. -/
structure Twin (q q' : Queue) : Prop where
  host : q.OnHost
  eq : q' = q.on .torch

variable {q q' : Queue} {xs : List Tensor}

/-- A queue without tuples is the same one on either backend. -/
theorem Twin.of_empty (h : q.tuples = []) : Twin q q := by
  refine ⟨fun t ht => ?_, ?_⟩
  · rw [h] at ht
    cases ht
  · rw [on, h, List.map_nil, ← h]

theorem Twin.push (h : Twin q q') (hxs : ∀ x ∈ xs, x.device = .host) :
    Twin (q.push xs) (q'.push (xs.map (Tensor.on .torch))) := by
  obtain ⟨hq, rfl⟩ := h
  refine ⟨fun t ht => ?_, ?_⟩
  · rcases List.mem_append.mp ht with ht | ht
    · exact hq t ht
    · rwa [List.mem_singleton.mp ht]
  · show { q with tuples := q.tuples.map (List.map (Tensor.on .torch)) ++ [xs.map (Tensor.on .torch)] } =
      ({ q with tuples := (q.tuples ++ [xs]).map (List.map (Tensor.on .torch)) } : Queue)
    rw [List.map_append]
    rfl

theorem Twin.drop (h : Twin q q') (n : Nat) : Twin (q.drop n) (q'.drop n) := by
  obtain ⟨hq, rfl⟩ := h
  refine ⟨fun t ht => hq t (List.mem_of_mem_drop ht), ?_⟩
  show { q with tuples := (q.tuples.map (List.map (Tensor.on .torch))).drop n } =
    ({ q with tuples := (q.tuples.drop n).map (List.map (Tensor.on .torch)) } : Queue)
  rw [List.map_drop]

theorem fails_refuse {α : Type} (cause : QueueRefusal) : (refuse cause : Action Queue α).Fails :=
  .bind_right fun _ => .throw _

theorem size_on (b : Device) (q : Queue) : (q.on b).size = q.size := List.length_map _

theorem checkComponents_on (b : Device) (q : Queue) (k : Nat) (xs : List Tensor)
    (cols : List (Value × PartialShape Nat)) :
    (q.on b).checkComponents k (((xs.map (Tensor.on b)).map .tensor).zip cols) =
      q.checkComponents k ((xs.map .tensor).zip cols) := by
  induction xs generalizing k cols with
  | nil => rfl
  | cons x xs ih =>
    cases cols with
    | nil => rfl
    | cons col cols =>
      simp only [List.map_cons, List.zip_cons_cons, checkComponents, ih]
      rfl

theorem checkAsked_on (b : Device) (q : Queue) (k : Nat) (l : List (Value × Value)) :
    (q.on b).checkAsked k l = q.checkAsked k l := by
  induction l generalizing k with
  | nil => rfl
  | cons p l ih =>
    simp only [checkAsked, ih]
    rfl

theorem due_on (b : Device) (num dtypes : Value) (q : Queue) : (q.on b).due num dtypes = q.due num dtypes := by
  have hdtypes : (q.on b).checkDTypes dtypes = q.checkDTypes dtypes := by
    cases dtypes with
    | nothing => rfl
    | _ =>
      simp only [checkDTypes, checkAsked_on]
      rfl
  rw [due, due, hdtypes, size_on]
  rfl

theorem follows_enqueue (hxs : ∀ x ∈ xs, x.device = .host) :
    Follows Twin Eq (enqueue (xs.map .tensor)) (enqueue ((xs.map (Tensor.on .torch)).map .tensor)) := by
  refine .bind .state fun q q' h => ?_
  obtain ⟨-, rfl⟩ := h
  rw [List.length_map, List.length_map, List.length_map, size_on]
  refine .refusal (fails_refuse _) fun _ => .bind (.lift (.refl _)) fun bounded bounded' hbounded => ?_
  obtain rfl := hbounded
  have hrest : Follows Twin Eq
      (do
        q.checkComponents 0 ((xs.map .tensor).zip q.columns)
        let ts ← Value.toTensors (xs.map .tensor)
        modify (push ts))
      (do
        (q.on .torch).checkComponents 0 (((xs.map (Tensor.on .torch)).map .tensor).zip q.columns)
        let ts ← Value.toTensors ((xs.map (Tensor.on .torch)).map .tensor)
        modify (push ts)) := by
    rw [checkComponents_on, Value.toTensors_map, Value.toTensors_map]
    exact .bind (.lift (.refl _)) fun _ _ _ => .modify fun _ _ h => h.push hxs
  refine .ite (fun _ => .bind (.lift (.refl _)) fun full full' hfull => ?_) fun _ => hrest
  obtain rfl := hfull
  exact .refusal (fails_refuse _) fun _ => hrest

theorem follows_column {tuples : List (List Tensor)} (h : ∀ t ∈ tuples, ∀ x ∈ t, x.device = .host) (k : Nat) :
    (column tuples k).Follows Tensor.Twin (column (tuples.map (List.map (Tensor.on .torch))) k) := by
  have hmoved : (tuples.map (List.map (Tensor.on .torch))).filterMap (·[k]?) =
      (tuples.filterMap (·[k]?)).map (Tensor.on .torch) := by
    rw [List.filterMap_map, List.map_filterMap]
    exact List.filterMap_congr fun t _ => List.getElem?_map
  rw [column, column, hmoved]
  refine Tensor.follows_stack fun x hx => ?_
  obtain ⟨t, ht, hget⟩ := List.mem_filterMap.mp hx
  exact h t ht x (List.mem_of_getElem? hget)

theorem follows_collected (h : Twin q q') (n : Nat) :
    Follows Session.Parallel (List.Forall₂ Tensor.Agrees) (q.collected (q.tuples.take n))
      (q'.collected (q'.tuples.take n)) := by
  obtain ⟨hq, rfl⟩ := h
  have htaken : (q.on .torch).tuples.take n = (q.tuples.take n).map (List.map (Tensor.on .torch)) := List.map_take.symm
  rw [htaken, collected, collected, List.isEmpty_map]
  refine .ite (fun _ => ?_) fun _ => .lift ?_
  · exact .mapM (List.forall₂_same.mpr fun col _ => Session.follows_empty _ _)
  · have hhost : ∀ t ∈ q.tuples.take n, ∀ x ∈ t, x.device = .host := fun t ht => hq t (List.mem_of_mem_take ht)
    exact .mapM (List.forall₂_same.mpr fun k _ => (follows_column hhost k).mono fun _ _ h => h.agrees)

theorem follows_served (n : Nat) (num : Value) (h : Twin q q') :
    Follows Session.Parallel (List.Forall₂ Tensor.Agrees) (q.served n num) (q'.served n num) := by
  have hrecord := Session.follows_record .queue (takenLine n num (q.drop n))
  have htext : takenLine n num (q'.drop n) = takenLine n num (q.drop n) := by
    obtain ⟨-, rfl⟩ := h
    rfl
  rw [served, served, htext]
  exact .bind hrecord fun _ _ _ => follows_collected h n

/-- Sessions and queues of either backend. -/
def Parallel : Session × Queue → Session × Queue → Prop := Both Session.Parallel Twin

theorem follows_dequeueUpTo (num dtypes : Value) :
    Follows Parallel (List.Forall₂ Tensor.Agrees) (dequeueUpTo num dtypes) (dequeueUpTo num dtypes) := by
  rintro ⟨s, q⟩ ⟨t, q'⟩ ⟨hst, hq⟩ xs hxs
  have hq : Twin q q' := hq
  have hdue : q'.due num dtypes = q.due num dtypes := by rw [hq.eq, due_on]
  rw [dequeueUpTo_served] at hxs ⊢
  rw [dequeueUpTo_served, hdue]
  cases hn : q.due num dtypes with
  | error e =>
    rw [hn] at hxs
    cases hxs
  | ok n =>
    rw [hn] at hxs
    obtain ⟨ys, hys, hagree, hsession⟩ := follows_served n num hq s t hst xs hxs
    exact ⟨ys, hys, hagree, hsession, hq.drop n⟩

end Queue

end Dataflow
