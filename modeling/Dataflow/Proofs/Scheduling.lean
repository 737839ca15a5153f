import Dataflow.Proofs.Objects

/-! The order of visits. Visits that work on different objects, or on none, do not see each other and can be exchanged;
    so the order of visits only matters among those that work on one and the same object. -/

namespace Dataflow

namespace Context

variable {c d e : Context} {o : Option Object}

theorem eq_of_objects (hframes : d.frames = c.frames) (hids : d.ids = c.ids) (hlast : d.lastId = c.lastId)
    (harrays : ∀ k : Nat, d.arrays[k]? = c.arrays[k]?) (hqueues : ∀ k : Nat, d.queues[k]? = c.queues[k]?) : d = c := by
  have harrays : d.arrays = c.arrays := List.ext_getElem? harrays
  have hqueues : d.queues = c.queues := List.ext_getElem? hqueues
  cases d
  cases c
  cases hframes
  cases hids
  cases hlast
  cases harrays
  cases hqueues
  rfl

/-- Changes of the same object to the same end lead to the same context. -/
theorem Touched.eq_of_agrees (hd : c.Touched o d) (he : c.Touched o e) (h : d.Agrees o e) : d = e := by
  refine eq_of_objects (hd.frames.trans he.frames.symm) (hd.ids.trans he.ids.symm) (hd.lastId.trans he.lastId.symm)
    (fun k => ?_) fun k => ?_
  · by_cases hk : o = some (.array k)
    · exact h.array k hk
    · exact (hd.arrays k hk).trans (he.arrays k hk).symm
  · by_cases hk : o = some (.queue k)
    · exact h.queue k hk
    · exact (hd.queues k hk).trans (he.queues k hk).symm

end Context

namespace Node

variable {m n : Node} {values : Values} {s : Session} {c : Context}

/-- Two nodes do not work on the same object. -/
def Independent (m n : Node) (values : Values) (c : Context) : Prop :=
  ∀ x, m.object? values c = some x → n.object? values c ≠ some x

theorem Independent.symm (h : m.Independent n values c) : n.Independent m values c := fun x hn hm => h x hm hn

theorem object?_visit (hm : m.Local) (n : Node) (values : Values) (s : Session) (c : Context) :
    n.object? values (m.visit values (s, c)).2.2 = n.object? values c :=
  (object?_agrees (o := none) ((touched_visit hm values s c).2.agrees fun _ _ => nofun)).symm

/-- Visits that do not work on the same object do not see each other, and lead to the same context in either order. -/
theorem Independent.exchange (h : m.Independent n values c) (hm : m.Local) (hn : n.Local) (s : Session) :
    let afterM := (m.visit values (s, c)).2
    let afterN := (n.visit values (s, c)).2
    (m.visit values (s, c)).1 = (m.visit values afterN).1 ∧ (n.visit values (s, c)).1 = (n.visit values afterM).1 ∧
      (n.visit values afterM).2.1.Alike (m.visit values afterN).2.1 ∧
      (n.visit values afterM).2.2 = (m.visit values afterN).2.2 := by
  intro afterM afterN
  obtain ⟨hsm, hcm⟩ := touched_visit hm values s c
  obtain ⟨hsn, hcn⟩ := touched_visit hn values s c
  obtain ⟨hsmn, hcmn⟩ := touched_visit hn values afterM.1 afterM.2
  obtain ⟨hsnm, hcnm⟩ := touched_visit hm values afterN.1 afterN.2
  rw [object?_visit hm] at hcmn
  rw [object?_visit hn] at hcnm
  -- Each of the two answers the same before the other as after it, because it does not see what the other has changed.
  obtain ⟨hanswerM, -, hagreeM⟩ := m.agrees_visit hm values hsn (hcn.agrees h.symm)
  obtain ⟨hanswerN, -, hagreeN⟩ := n.agrees_visit hn values hsm (hcm.agrees h)
  refine ⟨hanswerM, hanswerN, hsmn.symm.trans (hsm.symm.trans (hsn.trans hsnm)), ?_⟩
  refine Context.eq_of_objects ?_ ?_ ?_ (fun k => ?_) fun k => ?_
  · exact (hcmn.frames.trans hcm.frames).trans (hcnm.frames.trans hcn.frames).symm
  · exact (hcmn.ids.trans hcm.ids).trans (hcnm.ids.trans hcn.ids).symm
  · exact (hcmn.lastId.trans hcm.lastId).trans (hcnm.lastId.trans hcn.lastId).symm
  -- An object that one of the nodes works on is as this node leaves it, and any other is as it was.
  · by_cases hk : m.object? values c = some (.array k)
    · exact (hcmn.arrays k (h _ hk)).trans (hagreeM.array k hk)
    by_cases hk' : n.object? values c = some (.array k)
    · exact (hagreeN.array k hk').symm.trans (hcnm.arrays k hk).symm
    · exact (hcmn.arrays k hk').trans ((hcm.arrays k hk).trans ((hcnm.arrays k hk).trans (hcn.arrays k hk')).symm)
  · by_cases hk : m.object? values c = some (.queue k)
    · exact (hcmn.queues k (h _ hk)).trans (hagreeM.queue k hk)
    by_cases hk' : n.object? values c = some (.queue k)
    · exact (hagreeN.queue k hk').symm.trans (hcnm.queues k hk).symm
    · exact (hcmn.queues k hk').trans ((hcm.queues k hk).trans ((hcnm.queues k hk).trans (hcn.queues k hk')).symm)

end Node

namespace Schedule

variable {ι : Type} {node : ι → Node} {values : Values} {s t : Session} {c d : Context} {i j : ι} {xs ys : List ι}

/-- The answers of visits one after another, those that fail included, and the state that they lead to. -/
def visitEach (node : ι → Node) (values : Values) :
    List ι → Session × Context → List (ι × Outcome (Option Outputs)) × Session × Context
  | [], p => ([], p)
  | i :: order, p =>
    let (answer, q) := (node i).visit values p
    let (answers, r) := visitEach node values order q
    ((i, answer) :: answers, r)

/-- Every visit answers the same, and the context at the end is the same. -/
structure Matches (x y : List (ι × Outcome (Option Outputs)) × Session × Context) : Prop where
  answers : x.1.Perm y.1
  session : x.2.1.Alike y.2.1
  context : x.2.2 = y.2.2

theorem Matches.refl (x : List (ι × Outcome (Option Outputs)) × Session × Context) : Matches x x :=
  ⟨.refl _, .refl _, rfl⟩

theorem Matches.trans {x y z : List (ι × Outcome (Option Outputs)) × Session × Context} (h : Matches x y)
    (h' : Matches y z) : Matches x z :=
  ⟨h.answers.trans h'.answers, h.session.trans h'.session, h.context.trans h'.context⟩

theorem visitEach_cons (i : ι) (xs : List ι) (p : Session × Context) :
    visitEach node values (i :: xs) p =
      ((i, ((node i).visit values p).1) :: (visitEach node values xs ((node i).visit values p).2).1,
        (visitEach node values xs ((node i).visit values p).2).2) := rfl

theorem Matches.cons {p q : Session × Context} (i : ι)
    (hanswer : ((node i).visit values p).1 = ((node i).visit values q).1)
    (h : Matches (visitEach node values xs ((node i).visit values p).2)
      (visitEach node values ys ((node i).visit values q).2)) :
    Matches (visitEach node values (i :: xs) p) (visitEach node values (i :: ys) q) := by
  rw [visitEach_cons, visitEach_cons, hanswer]
  exact ⟨h.answers.cons _, h.session, h.context⟩

/-- Nothing depends on the log, nor on which settings have been looked up before. -/
theorem matches_of_alike (values : Values) {p q : Session × Context} (hlocal : ∀ i ∈ xs, (node i).Local)
    (hsession : p.1.Alike q.1) (hcontext : p.2 = q.2) : Matches (visitEach node values xs p) (visitEach node values xs q) := by
  induction xs generalizing p q with
  | nil => exact ⟨.refl _, hsession, hcontext⟩
  | cons i xs ih =>
    obtain ⟨hi, hxs⟩ := List.forall_mem_cons.mp hlocal
    obtain ⟨s, c⟩ := p
    obtain ⟨t, d⟩ := q
    obtain rfl : c = d := hcontext
    have hself : c.Agrees ((node i).object? values c) c := ⟨rfl, rfl, rfl, fun _ _ => rfl, fun _ _ => rfl⟩
    obtain ⟨hanswer, hafter, hagrees⟩ := (node i).agrees_visit hi values hsession hself
    have hsame := (Node.touched_visit hi values s c).2.eq_of_agrees (Node.touched_visit hi values t c).2 hagrees
    exact .cons i hanswer (ih hxs hafter hsame)

/-- Two visits that do not work on the same object can be exchanged. -/
theorem matches_swap (hlocal : ∀ k ∈ i :: j :: xs, (node k).Local) (hij : (node i).Independent (node j) values c) :
    Matches (visitEach node values (i :: j :: xs) (s, c)) (visitEach node values (j :: i :: xs) (s, c)) := by
  obtain ⟨hi, hlocal⟩ := List.forall_mem_cons.mp hlocal
  obtain ⟨hj, hxs⟩ := List.forall_mem_cons.mp hlocal
  obtain ⟨hanswerI, hanswerJ, hsession, hcontext⟩ := hij.exchange hi hj s
  have hrest := matches_of_alike values hxs hsession hcontext
  simp only [visitEach_cons]
  rw [← hanswerI, ← hanswerJ]
  exact ⟨(List.Perm.swap _ _ _).trans ((hrest.answers.cons _).cons _), hrest.session, hrest.context⟩

/-- A visit can be brought before visits that do not work on its object. -/
theorem matches_front {before : List ι} (hlocal : ∀ k ∈ before ++ i :: xs, (node k).Local)
    (hbefore : ∀ j ∈ before, (node j).Independent (node i) values c) :
    Matches (visitEach node values (before ++ i :: xs) (s, c)) (visitEach node values (i :: (before ++ xs)) (s, c)) := by
  induction before generalizing s c with
  | nil => exact .refl _
  | cons j before ih =>
    obtain ⟨hj, hrest⟩ := List.forall_mem_cons.mp hlocal
    obtain ⟨hji, hbefore⟩ := List.forall_mem_cons.mp hbefore
    have hlater : ∀ k ∈ before, (node k).Independent (node i) values ((node j).visit values (s, c)).2.2 := by
      intro k hk x
      rw [Node.object?_visit hj, Node.object?_visit hj]
      exact hbefore k hk x
    refine (Matches.cons j rfl (ih hrest hlater)).trans (matches_swap ?_ hji)
    intro k hk
    refine hlocal k ?_
    simp only [List.mem_cons, List.cons_append, List.mem_append] at hk ⊢
    tauto

/-- The visits that work on an object. -/
def workingOn (node : ι → Node) (values : Values) (c : Context) (x : Object) (order : List ι) : List ι :=
  order.filter fun i => (node i).object? values c = some x

/-- Visits that make no object and do not move the stack can be made in any order that keeps the order among those that
    work on the same tensor array or queue: each visit answers the same, whether it fails or not, and the context is the
    same at the end. -/
theorem order_of_independent_visits {node : ι → Node} {values : Values} {xs ys : List ι}
    (hlocal : ∀ i ∈ xs, (node i).Local) (hperm : ys.Perm xs) (s : Session) (c : Context)
    (horder : ∀ x, workingOn node values c x ys = workingOn node values c x xs) :
    Matches (visitEach node values ys (s, c)) (visitEach node values xs (s, c)) := by
  induction xs generalizing ys s c with
  | nil =>
    rw [hperm.eq_nil]
    exact .refl _
  | cons i xs ih =>
    obtain ⟨before, after, rfl, hnew⟩ := List.eq_append_cons_of_mem (hperm.mem_iff.mpr List.mem_cons_self)
    have hys : ∀ k ∈ before ++ i :: after, (node k).Local := fun k hk => hlocal k (hperm.mem_iff.mp hk)
    obtain ⟨hi, hxs⟩ := List.forall_mem_cons.mp hlocal
    -- The first visit of the one order comes in the other before all visits that work on its object.
    have hbefore : ∀ j ∈ before, (node j).Independent (node i) values c := by
      intro j hj x hjx hix
      have hsame := horder x
      rw [workingOn, workingOn, List.filter_append, List.filter_cons_of_pos (by simpa using hix),
        List.filter_cons_of_pos (by simpa using hix)] at hsame
      have hmem : j ∈ before.filter fun k => (node k).object? values c = some x := List.mem_filter.mpr ⟨hj, by simpa⟩
      obtain ⟨k, rest, hk⟩ := List.exists_cons_of_ne_nil (List.ne_nil_of_mem hmem)
      rw [hk, List.cons_append] at hsame
      have hik : k ∈ before := (List.mem_filter.mp (hk ▸ List.mem_cons_self)).1
      rw [(List.cons.inj hsame).1] at hik
      exact hnew hik
    refine (matches_front hys hbefore).trans (.cons i rfl (ih hxs ?_ _ _ fun x => ?_))
    · exact (List.perm_middle.symm.trans hperm).cons_inv
    · have hsame := horder x
      simp only [workingOn, Node.object?_visit hi, List.filter_append, List.filter_cons] at hsame ⊢
      split at hsame
      · rename_i hx
        have hnone : before.filter (fun k => (node k).object? values c = some x) = [] := by
          refine List.filter_eq_nil_iff.mpr fun j hj hjx => ?_
          exact hbefore j hj x (by simpa using hjx) (by simpa using hx)
        rw [hnone, List.nil_append] at hsame ⊢
        exact (List.cons.inj hsame).2
      · exact hsame

/-- A size that is asked for after a write to the same array, and a close of another array before both or after. -/
theorem order_of_independent_visits_close_first :
    let node (op : ControlOp) : Node :=
      ⟨"n", .text op.name, ["x"], [("tensor", ⟨0, none, .tensor⟩)],
        [("tensorArrayId", .int (if op = .tensorArrayClose then 1 else 0)), ("index", .int 0)]⟩
    let values : Values := [("x", [some (.scalar .host .float32 (.real (.ofInt 1)))])]
    let array : TensorArray := TensorArray.Making.array ⟨"a", "float32", 0, none, false, true, true⟩
    let c : Context := { Context.initial with arrays := [Context.numbered 0 array, Context.numbered 1 array] }
    let s := Session.initial [] false false
    let xs := [ControlOp.tensorArrayWrite, .tensorArraySize, .tensorArrayClose]
    let ys := [ControlOp.tensorArrayClose, .tensorArrayWrite, .tensorArraySize]
    (∀ i ∈ xs, (node i).Local) ∧ ys.Perm xs ∧ (∀ x, workingOn node values c x ys = workingOn node values c x xs) ∧
      Matches (visitEach node values ys (s, c)) (visitEach node values xs (s, c)) := by
  intro node values array c s xs ys
  have hlocal : ∀ i ∈ xs, (node i).Local := by
    unfold Node.Local
    decide
  have hperm : ys.Perm xs := by decide
  have hwrite : (node .tensorArrayWrite).object? values c = some (.array 0) := rfl
  have hsize : (node .tensorArraySize).object? values c = some (.array 0) := rfl
  have hclose : (node .tensorArrayClose).object? values c = some (.array 1) := rfl
  have horder : ∀ x, workingOn node values c x ys = workingOn node values c x xs := by
    intro x
    by_cases hx : x = .array 1
    · subst hx
      simp [workingOn, xs, ys, hwrite, hsize, hclose]
    · simp [workingOn, xs, ys, List.filter_cons, hclose, Ne.symm hx]
  exact ⟨hlocal, hperm, horder, order_of_independent_visits hlocal hperm s c horder⟩

end Schedule

end Dataflow
