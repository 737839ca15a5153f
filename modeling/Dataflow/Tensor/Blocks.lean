/-! Lists cut into blocks of one length. `blocks n c` cuts off `n` blocks of `c` elements; joining them gives back
    a list of `n * c` elements, and cutting the joined list gives back the blocks. -/

namespace Dataflow.Blocks

variable {α : Type}

/-- The first `n` blocks of `c` elements. -/
def blocks : Nat → Nat → List α → List (List α)
  | 0, _, _ => []
  | n + 1, c, l => l.take c :: blocks n c (l.drop c)

/-- There are `n` blocks, and each has `c` elements. -/
def Uniform (n c : Nat) (bs : List (List α)) : Prop :=
  bs.length = n ∧ ∀ b ∈ bs, b.length = c

@[simp] theorem length_blocks (n c : Nat) (l : List α) : (blocks n c l).length = n := by
  induction n generalizing l with
  | zero => rfl
  | succ n ih => simp [blocks, ih]

theorem uniform_blocks {n c : Nat} {l : List α} (h : l.length = n * c) : Uniform n c (blocks n c l) := by
  refine ⟨length_blocks n c l, ?_⟩
  induction n generalizing l with
  | zero => simp [blocks]
  | succ n ih =>
    intro b hb
    have hl : l.length = n * c + c := by rw [h, Nat.succ_mul]
    rcases List.mem_cons.mp hb with rfl | hb
    · rw [List.length_take, hl]; omega
    · exact ih (by rw [List.length_drop, hl]; omega) b hb

theorem flatten_blocks {n c : Nat} {l : List α} (h : l.length = n * c) : (blocks n c l).flatten = l := by
  induction n generalizing l with
  | zero => simp only [Nat.zero_mul] at h; simp [blocks, List.eq_nil_of_length_eq_zero h]
  | succ n ih =>
    have hl : l.length = n * c + c := by rw [h, Nat.succ_mul]
    rw [blocks, List.flatten_cons, ih (by rw [List.length_drop, hl]; omega), List.take_append_drop]

theorem blocks_flatten {n c : Nat} {bs : List (List α)} (h : Uniform n c bs) : blocks n c bs.flatten = bs := by
  induction bs generalizing n with
  | nil => obtain ⟨rfl, -⟩ := h; rfl
  | cons b bs ih =>
    obtain ⟨rfl, hc⟩ := h
    have hb : b.length = c := hc b List.mem_cons_self
    rw [List.length_cons, blocks, List.flatten_cons, List.take_left' hb, List.drop_left' hb,
      ih ⟨rfl, fun x hx => hc x (List.mem_cons_of_mem _ hx)⟩]

theorem length_flatten {n c : Nat} {bs : List (List α)} (h : Uniform n c bs) : bs.flatten.length = n * c := by
  obtain ⟨rfl, hc⟩ := h
  induction bs with
  | nil => simp
  | cons b bs ih =>
    rw [List.flatten_cons, List.length_append, ih fun x hx => hc x (List.mem_cons_of_mem _ hx),
      hc b List.mem_cons_self, List.length_cons, Nat.succ_mul, Nat.add_comm]

theorem length_flatMap {β : Type} {n : Nat} (l : List α) {f : α → List β} (h : ∀ a ∈ l, (f a).length = n) :
    (l.flatMap f).length = l.length * n := by
  induction l with
  | nil => simp
  | cons a l ih =>
    rw [List.flatMap_cons, List.length_append, h a List.mem_cons_self,
      ih fun b hb => h b (List.mem_cons_of_mem _ hb), List.length_cons, Nat.succ_mul, Nat.add_comm]

theorem Uniform.map {n c d : Nat} {bs : List (List α)} (h : Uniform n c bs) {f : List α → List α}
    (hf : ∀ b, b.length = c → (f b).length = d) : Uniform n d (bs.map f) := by
  refine ⟨by rw [List.length_map, h.1], fun b hb => ?_⟩
  obtain ⟨a, ha, rfl⟩ := List.mem_map.mp hb
  exact hf a (h.2 a ha)

/-- Two sequences of blocks, joined block by block. -/
theorem Uniform.zipWith_append {n c d : Nat} {xs ys : List (List α)} (hx : Uniform n c xs) (hy : Uniform n d ys) :
    Uniform n (c + d) (List.zipWith (· ++ ·) xs ys) := by
  refine ⟨by rw [List.length_zipWith, hx.1, hy.1, Nat.min_self], ?_⟩
  obtain ⟨-, hx⟩ := hx
  obtain ⟨-, hy⟩ := hy
  induction xs generalizing ys with
  | nil => simp
  | cons x xs ih =>
    cases ys with
    | nil => simp
    | cons y ys =>
      intro b hb
      rw [List.zipWith_cons_cons] at hb
      rcases List.mem_cons.mp hb with rfl | hb
      · rw [List.length_append, hx x List.mem_cons_self, hy y List.mem_cons_self]
      · exact ih (fun b h => hx b (List.mem_cons_of_mem _ h)) (fun b h => hy b (List.mem_cons_of_mem _ h)) b hb

end Dataflow.Blocks
