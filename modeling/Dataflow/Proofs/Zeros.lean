import Dataflow.Proofs.Devices
import Dataflow.Proofs.Effects
import Dataflow.Proofs.FirstInFirstOut

/-! Tensors of zeros. Where the host makes one, the other backend makes the same one, so that a session may leave their
    creation to either backend. -/

namespace Dataflow

open Dataflow.Action (Follows)

/-! ### Shapes that both backends have -/

namespace Shape

theorem size_map_max (s : Shape) : size (s.map (max 1 ·)) = span s := by
  induction s with
  | nil => rfl
  | cons n s ih =>
    rw [List.map_cons, size_cons, ih, span_cons]
    congr 1
    split <;> omega

theorem size_le_span (s : Shape) : size s ≤ span s := by
  induction s with
  | nil => exact Nat.le_refl 1
  | cons n s ih =>
    rw [size_cons, span_cons]
    exact Nat.mul_le_mul (by split <;> omega) ih

theorem span_tail_le (s : Shape) : span (s.drop 1) ≤ span s := by
  cases s with
  | nil => exact Nat.le_refl _
  | cons n s =>
    rw [List.drop_one, List.tail_cons, span_cons]
    exact Nat.le_mul_of_pos_left _ (by split <;> omega)

end Shape

section Kernels

variable {d : DType} {s : Shape} {x : Tensor}

namespace Host

theorem dimensions_eq_ok {dims : List Int} (h : dimensions (.tuple (s.map fun (n : Nat) => .int n)) = .ok dims) :
    s.length ≤ Shape.axisLimit ∧ dims = s.map fun (n : Nat) => (n : Int) := by
  rw [dimensions, List.length_map] at h
  split at h
  · cases h
  rename_i hrank
  refine ⟨Nat.not_lt.mp hrank, ?_⟩
  rw [List.mapM_map] at h
  have hnat (n : Nat) (_ : n ∈ s) (m : Int) (hm : (dimension ∘ fun (n : Nat) => Value.int n) n = .ok m) :
      (some ∘ fun (n : Nat) => (n : Int)) n = some m := by
    rw [Function.comp_apply, dimension] at hm
    split at hm <;> cases hm
    rfl
  rw [← Outcome.filterMap_of_mapM h hnat, List.filterMap_eq_map]

theorem fits_of_newShape {elementSize : Nat} {t : Shape}
    (h : newShape elementSize (s.map fun (n : Nat) => (n : Int)) = .ok t) : s.fits elementSize = true ∧ t = s := by
  have hnats : (s.map fun (n : Nat) => (n : Int)).map Int.toNat = s := by
    rw [List.map_map]
    exact List.map_id _
  rw [newShape, hnats] at h
  split at h <;> cases h
  rename_i hlimits
  refine ⟨?_, rfl⟩
  by_contra hroom
  exact hlimits (Or.inr (Or.inr (by simp [hroom])))

/-- The host makes the tensors of zeros that it has axes and room for. -/
theorem empty_iff (hd : d ∈ DType.standard) :
    empty (.tuple (s.map fun (n : Nat) => .int n)) (.text d.name) = .ok x ↔
      s.length ≤ Shape.axisLimit ∧ s.fits d.size = true ∧ x = .zeros .host d s := by
  refine ⟨fun h => ?_, fun ⟨hrank, hroom, hx⟩ => hx ▸ empty_ok hd hrank hroom⟩
  obtain ⟨dims, hdims, h⟩ := Outcome.bind_eq_ok.mp h
  obtain ⟨hrank, rfl⟩ := dimensions_eq_ok hdims
  rw [typeFor_standard hd, Outcome.ok_bind] at h
  change (do return Tensor.zeros .host d (← newShape d.size (s.map (fun (n : Nat) => (n : Int)) ++ []))) = _ at h
  obtain ⟨t, ht, hzeros⟩ := Outcome.bind_eq_ok.mp h
  rw [List.append_nil] at ht
  obtain ⟨hroom, rfl⟩ := fits_of_newShape ht
  exact ⟨hrank, hroom, (Except.ok.inj hzeros).symm⟩

end Host

namespace Torch

/-- The other backend makes all tensors of zeros that the host has room for. -/
theorem empty_ok (hd : d ∈ DType.standard) (hroom : s.fits d.size = true) :
    empty (.tuple (s.map fun (n : Nat) => .int n)) (.text d.name) = .ok (.zeros .torch d s) := by
  have hsize := Host.size_pos_of_standard hd
  have hbytes : Shape.span s * d.size < 2 ^ 63 := of_decide_eq_true hroom
  have hdims : dimensions (.tuple (s.map fun (n : Nat) => .int n)) = .ok (s.map fun (n : Nat) => (n : Int)) := by
    have hone (n : Nat) (hn : n ∈ s) : dimension (.int n) = .ok n := if_pos <|
      Host.holds_word (Int.natCast_nonneg n) (Int.ofNat_lt.mpr (Shape.lt_of_fits hroom hsize hn))
    cases s with
    | nil => rfl
    | cons n s =>
      have hlater (m : Nat) (hm : m ∈ s) : (laterDimension ∘ fun (n : Nat) => Value.int n) m = .ok (m : Int) :=
        hone m (List.mem_cons_of_mem n hm)
      rw [List.map_cons, dimensions, hone n List.mem_cons_self, Outcome.ok_bind, List.mapM_map, Outcome.mapM_ok hlater]
      rfl
  have hsteps : hasSteps s d.size = true := by
    have hinner : Shape.size ((s.drop 1).map (max 1 ·)) < 2 ^ 63 := by
      rw [Shape.size_map_max]
      calc Shape.span (s.drop 1)
        _ ≤ Shape.span s := Shape.span_tail_le s
        _ ≤ Shape.span s * d.size := Nat.le_mul_of_pos_right _ hsize
        _ < 2 ^ 63 := hbytes
    have hall : s.size * d.size < 2 ^ 63 := Nat.lt_of_le_of_lt (Nat.mul_le_mul_right _ s.size_le_span) hbytes
    rw [hasSteps, decide_eq_true hinner, decide_eq_true hall, Bool.and_self]
  have hnats : (s.map fun (n : Nat) => (n : Int)).map Int.toNat = s := by
    rw [List.map_map]
    exact List.map_id _
  have hnonneg : (s.map fun (n : Nat) => (n : Int)).any (· < 0) = false := by simp
  rw [empty, typeFor_standard hd, Outcome.ok_bind, hdims, Outcome.ok_bind, hnats, hnonneg]
  show (if false = true ∨ (!hasSteps s d.size) = true then _ else _) = _
  rw [hsteps]
  rfl

end Torch

end Kernels

/-! ### Sessions -/

namespace Session

/-- A session that creates its tensors on the other backend, beside one that does so on the host. -/
structure Moved (s t : Session) : Prop where
  host : s.config.value .device = Device.host.name
  torch : t.config.value .device = Device.torch.name
  loaded : t.torch = true
  standard : s.dtypes = DType.standard.map .ofDType
  dtypes : s.dtypes = t.dtypes
  logs : s.logs = t.logs

/-- A session beside one in which the same is done with tensors of the host. It may create its own tensors on the other
    backend, or wherever the other session does. -/
def Parallel (s t : Session) : Prop := s.Alike t ∨ Moved s t

namespace Parallel

variable {s t : Session}

theorem dtypes (h : Parallel s t) : s.dtypes = t.dtypes := h.elim Alike.dtypes Moved.dtypes

theorem logs (h : Parallel s t) : s.logs = t.logs := h.elim Alike.logs Moved.logs

theorem logging (h : Parallel s t) (source : LogSource) (text : String) :
    Parallel (s.logging source text) (t.logging source text) := by
  rcases h with halike | hmoved
  · exact Or.inl ((alike_logging source text s).symm.trans (halike.trans (alike_logging source text t)))
  · exact Or.inr ⟨hmoved.host, hmoved.torch, hmoved.loaded, hmoved.standard, hmoved.dtypes, hmoved.logs⟩

theorem settled (h : Parallel s t) (k : Setting) : Parallel (s.settled k) (t.settled k) := by
  rcases h with halike | hmoved
  · exact Or.inl (halike.settled k)
  · exact Or.inr {
      host := (Config.value_read k .device s.config).trans hmoved.host
      torch := (Config.value_read k .device t.config).trans hmoved.torch
      loaded := hmoved.loaded
      standard := hmoved.standard
      dtypes := hmoved.dtypes
      logs := hmoved.logs }

theorem dtypeInfo (h : Parallel s t) (name : Value) : s.dtypeInfo name = t.dtypeInfo name := by
  unfold Session.dtypeInfo registeredDType?
  rw [h.dtypes]

end Parallel

theorem follows_record (source : LogSource) (text : Outcome String) :
    Follows Parallel Eq (record source text) (record source text) := by
  rintro s t hst ⟨⟩ hs
  rw [record_apply] at hs ⊢
  rw [record_apply, ← hst.logs]
  by_cases hlogs : s.logs = true
  · rw [if_pos hlogs] at hs ⊢
    rw [if_pos hlogs]
    cases text with
    | error e => cases hs
    | ok line => exact ⟨(), rfl, rfl, hst.logging source line⟩
  · rw [if_neg hlogs, if_neg hlogs]
    exact ⟨(), rfl, rfl, hst⟩

/-- What the one session creates empty, the other one does as well. -/
theorem follows_empty (n : Shape) (dtype : Value) :
    Follows Parallel Tensor.Agrees (empty n.toValue dtype auto) (empty n.toValue dtype auto) := by
  rintro s t hst x hx
  rcases hst with halike | hmoved
  · obtain ⟨hanswer, hafter⟩ := (confined_empty n.toValue dtype auto).same s t halike
    exact ⟨x, hanswer ▸ hx, .refl x, Or.inl hafter⟩
  have htorch : .torch ∈ t.devices := by
    rw [devices, if_pos hmoved.loaded]
    exact List.mem_cons_of_mem _ List.mem_cons_self
  have hparallel : Parallel s t := Or.inr hmoved
  rw [empty_eq s.host_mem_devices hmoved.host rfl] at hx ⊢
  rw [empty_eq htorch hmoved.torch rfl, ← hparallel.dtypeInfo]
  cases hi : s.dtypeInfo dtype with
  | error e =>
    rw [hi] at hx
    cases hx
  | ok i =>
    rw [hi] at hx
    obtain ⟨d, hd, rfl⟩ := exists_standard hmoved.standard hi
    obtain ⟨y, hy, hx⟩ := Outcome.bind_eq_ok.mp hx
    obtain ⟨j, hj, hyx⟩ := Outcome.bind_eq_ok.mp hx
    obtain rfl : y = x := Except.ok.inj hyx
    obtain ⟨-, hroom, rfl⟩ := (Host.empty_iff hd).mp hy
    have hkernel : Kernel.empty .torch (.tuple (n.map fun (m : Nat) => .int m)) (.text d.name) =
        .ok (.zeros .torch d n) := Torch.empty_ok hd hroom
    refine ⟨.zeros .torch d n, ?_, ⟨rfl, rfl, rfl⟩, hparallel.settled .device⟩
    rw [hkernel, Outcome.ok_bind, ← hparallel.dtypeInfo]
    exact hj ▸ rfl

end Session

end Dataflow
