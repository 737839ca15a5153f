import Dataflow.Proofs.Lifetimes

/-! What a tensor array looks like at every time. The tensors that it holds are of its element type and fit its element
    shape, although this may be fixed after they were asked for; and its size is that of its making, or as large as its
    writes have asked for. -/

namespace Dataflow.TensorArray

theorem events_after (l : Life) (c : Call) : l.events <+: (l.after c).events := List.prefix_append _ _

theorem events_of_append (s : Session) (a : TensorArray) (cs ds : List Call) :
    (Life.of s a cs).events <+: (Life.of s a (cs ++ ds)).events := by
  induction ds using List.reverseRecOn with
  | nil => simp
  | append_singleton ds d ih =>
    rw [← List.append_assoc, Life.of_concat]
    exact ih.trans (events_after _ d)

/-- After whatever calls, every tensor in a slot has the element type of the array and fits its element shape, and a
    slot that is cleared holds none. Where all elements are to have one shape, this is the shape of every tensor that
    has been written, from the first write on and for good; elsewhere the element shape stays as it was asked for. The
    size of an open array is the largest that its making and its writes have asked for. -/
theorem held_elements_fit {m : Making} {s : Session} {a : TensorArray} (hmake : ofArguments s m.arguments [] = .ok a)
    (cs : List Call) :
    let l := Life.of s a cs
    (∀ slot ∈ l.array.slots, ∀ x, slot.tensor = some x →
      l.array.dtype = .text x.dtype.name ∧ x.dtype.name = m.dtype ∧ l.array.elementShape.admits x.shape = true) ∧
    (∀ slot ∈ l.array.slots, slot.cleared = true → slot.tensor = none) ∧
    (m.identical = true → ∀ (i : Int) (x : Tensor), .write i x ∈ l.events →
      l.array.elementShape.isDefined = true ∧ l.array.elementShape = .ofShape x.shape ∧
        ∀ ds, (Life.of s a (cs ++ ds)).array.elementShape = l.array.elementShape) ∧
    (m.identical = false → l.array.elementShape = m.shape) ∧
    (l.array.closed = false →
      l.array.size = m.extent l.events ∧ (m.dynamicSize = false → l.array.size = m.size.toNat)) := by
  intro l
  obtain rfl := Making.eq_array hmake
  have inv : Inv m l.array l.events := inv_of m s cs
  refine ⟨fun slot hmem x hx => ?_, fun slot hmem hcleared => ?_, fun hid i x hx => ?_, inv.unpinned,
    fun hopen => ⟨inv.extent hopen, fun hfixed => ?_⟩⟩
  · obtain ⟨k, hk⟩ := List.mem_iff_getElem?.mp hmem
    obtain ⟨hname, hshape⟩ := inv.elements k slot x hk hx
    exact ⟨by rw [inv.dtype, hname], hname, hshape⟩
  · obtain ⟨k, hk⟩ := List.mem_iff_getElem?.mp hmem
    exact (inv.slots k slot hk).tensor_eq_none hcleared
  · have hshape := inv.pinned hid i x hx
    refine ⟨by rw [hshape, PartialShape.isDefined_ofShape], hshape, fun ds => ?_⟩
    rw [(inv_of m s (cs ++ ds)).pinned hid i x ((events_of_append s m.array cs ds).subset hx), hshape]
  · rw [inv.extent hopen, inv.fixed hfixed]

/-- An array that may grow does so for its first write, which fixes the shape of its elements. -/
theorem held_elements_fit_first_write :
    let m : Making := ⟨"a", "float32", 1, none, true, true, true⟩
    let x := Tensor.scalar .host .float32 (.real (.ofInt 1))
    let l := Life.of (.initial [] false false) m.array [.write 3 x]
    ofArguments (.initial [] false false) m.arguments [] = .ok m.array ∧ m.shape = none ∧
      l.array.elementShape = .ofShape [] ∧ l.array.size = 4 := by
  have hmake : ofArguments (.initial [] false false) (Making.mk "a" "float32" 1 none true true true).arguments [] =
      .ok (Making.mk "a" "float32" 1 none true true true).array := rfl
  obtain ⟨-, -, hshape, -, hsize⟩ :=
    held_elements_fit hmake [.write 3 (.scalar .host .float32 (.real (.ofInt 1)))]
  exact ⟨hmake, rfl, (hshape rfl 3 _ List.mem_cons_self).2.1, (hsize rfl).1⟩

end Dataflow.TensorArray
