import Dataflow.DType
import Dataflow.Shape
import Dataflow.Tensor.Blocks

/-! Tensors: elements of one type in row-major order under a shape, held by a device. The structural operations
    cut a tensor into the blocks that an axis divides it into; each answers `none` where the tensor has no such
    part. -/

namespace Dataflow

/-- Who holds a tensor and computes with it. -/
inductive Device where
  | host
  | torch
deriving DecidableEq

def Device.name : Device → String
  | .host => "host"
  | .torch => "torch"

structure Tensor where
  device : Device
  dtype : DType
  shape : Shape
  data : List Element
  length_data : data.length = shape.size
deriving DecidableEq

namespace Tensor

open Blocks

def ofList? (device : Device) (dtype : DType) (shape : Shape) (data : List Element) : Option Tensor :=
  if h : data.length = shape.size then some ⟨device, dtype, shape, data, h⟩ else none

def scalar (device : Device) (dtype : DType) (e : Element) : Tensor :=
  ⟨device, dtype, [], [e], rfl⟩

def full (device : Device) (dtype : DType) (shape : Shape) (e : Element) : Tensor :=
  ⟨device, dtype, shape, List.replicate shape.size e, List.length_replicate⟩

def zeros (device : Device) (dtype : DType) (shape : Shape) : Tensor :=
  full device dtype shape (.zero dtype)

def rank (x : Tensor) : Nat := x.shape.length

def size (x : Tensor) : Nat := x.shape.size

/-- All elements along one axis. -/
def flat (x : Tensor) : Tensor :=
  ⟨x.device, x.dtype, [x.size], x.data, by simp [size, x.length_data]⟩

/-- Every element changed alike, and the type with them. -/
def mapAs (x : Tensor) (d : DType) (f : Element → Element) : Tensor :=
  ⟨x.device, d, x.shape, x.data.map f, by rw [List.length_map, x.length_data]⟩

/-- The elements converted to a type, where it is not the one that they have. -/
def cast (x : Tensor) (d : DType) : Tensor := if x.dtype = d then x else x.mapAs d (.cast d)

/-- One element overwritten, by its place in row-major order. -/
def set (x : Tensor) (i : Nat) (e : Element) : Tensor :=
  ⟨x.device, x.dtype, x.shape, x.data.set i e, by rw [List.length_set, x.length_data]⟩

/-- What an axis divides a shape into: the dimensions outside it, its own length and the dimensions inside. -/
structure Cut (s : Shape) where
  outer : Shape
  length : Nat
  inner : Shape
  shape_eq : s = outer ++ length :: inner

/-- The cut at an axis counted from the outermost. -/
def cut? : (s : Shape) → Nat → Option (Cut s)
  | [], _ => none
  | d :: s, 0 => some ⟨[], d, s, rfl⟩
  | d :: s, k + 1 => (cut? s k).map fun c => ⟨d :: c.outer, c.length, c.inner, congrArg (d :: ·) c.shape_eq⟩

/-- The blocks of a tensor at an axis, one for every position outside it. -/
def rows (x : Tensor) (c : Cut x.shape) : List (List Element) :=
  blocks c.outer.size (c.length * c.inner.size) x.data

theorem uniform_rows (x : Tensor) (c : Cut x.shape) : Uniform c.outer.size (c.length * c.inner.size) (x.rows c) := by
  refine uniform_blocks ?_
  rw [x.length_data]
  conv => lhs; rw [c.shape_eq]
  simp

/-- A tensor of the same device and type from its blocks at an axis of another length. -/
def ofRows (x : Tensor) (outer : Shape) (length : Nat) (inner : Shape) (bs : List (List Element))
    (h : Uniform outer.size (length * inner.size) bs) : Tensor :=
  ⟨x.device, x.dtype, outer ++ length :: inner, bs.flatten, by simp [length_flatten h]⟩

/-- The part at one position of an axis. -/
def select? (x : Tensor) (axis i : Nat) : Option Tensor :=
  match cut? x.shape axis with
  | none => none
  | some c =>
    if h : i < c.length then
      some ⟨x.device, x.dtype, c.outer ++ c.inner,
        ((x.rows c).map fun b => (b.drop (i * c.inner.size)).take c.inner.size).flatten, by
          rw [Shape.size_append]
          refine length_flatten ((uniform_rows x c).map fun b hb => ?_)
          have : (i + 1) * c.inner.size ≤ c.length * c.inner.size := Nat.mul_le_mul_right _ h
          rw [List.length_take, List.length_drop, hb]
          rw [Nat.succ_mul] at this
          omega⟩
    else none

/-- The parts at several positions of an axis, under a shape that takes the place of the axis. -/
def take? (x : Tensor) (axis : Nat) (s : Shape) (ks : List Nat) : Option Tensor :=
  match cut? x.shape axis with
  | none => none
  | some c =>
    if h : ks.length = s.size ∧ ∀ k ∈ ks, k < c.length then
      some ⟨x.device, x.dtype, c.outer ++ s ++ c.inner,
        ((x.rows c).map fun b => ks.flatMap fun k => (b.drop (k * c.inner.size)).take c.inner.size).flatten, by
          rw [List.append_assoc, Shape.size_append, Shape.size_append, ← h.1]
          refine length_flatten ((uniform_rows x c).map fun b hb => length_flatMap ks fun k hk => ?_)
          have : (k + 1) * c.inner.size ≤ c.length * c.inner.size := Nat.mul_le_mul_right _ (h.2 k hk)
          rw [List.length_take, List.length_drop, hb]
          rw [Nat.succ_mul] at this
          omega⟩
    else none

/-- The part from one position of an axis up to another; positions past the end stand for the end. -/
def slice? (x : Tensor) (axis start stop : Nat) : Option Tensor :=
  (cut? x.shape axis).map fun c =>
    let count := min stop c.length - start
    x.ofRows c.outer count c.inner
      ((x.rows c).map fun b => (b.drop (start * c.inner.size)).take (count * c.inner.size)) <| by
        refine (uniform_rows x c).map fun b hb => ?_
        rw [List.length_take, List.length_drop, hb]
        rcases Nat.lt_or_ge start (min stop c.length) with h | h
        · have : (count + start) * c.inner.size ≤ c.length * c.inner.size := Nat.mul_le_mul_right _ (by omega)
          rw [Nat.add_mul] at this
          omega
        · have : count = 0 := by omega
          simp [this]

/-- Two tensors one after the other along an axis, where they agree on every other dimension. -/
def append? (axis : Nat) (x y : Tensor) : Option Tensor :=
  match cut? x.shape axis, cut? y.shape axis with
  | some c, some d =>
    if h : c.outer = d.outer ∧ c.inner = d.inner then
      some <| x.ofRows c.outer (c.length + d.length) c.inner (List.zipWith (· ++ ·) (x.rows c) (y.rows d)) <| by
        have hy := uniform_rows y d
        rw [← h.1, ← h.2] at hy
        rw [Nat.add_mul]
        exact (uniform_rows x c).zipWith_append hy
    else none
  | _, _ => none

def concat? (axis : Nat) : List Tensor → Option Tensor
  | [] => none
  | [x] => (cut? x.shape axis).map fun _ => x
  | x :: y :: rest => (append? axis x y).bind fun z => rest.foldlM (append? axis) z

/-- The same elements with one more axis of length one. -/
def expand? (x : Tensor) (axis : Nat) : Option Tensor :=
  if axis ≤ x.rank then
    some ⟨x.device, x.dtype, x.shape.take axis ++ 1 :: x.shape.drop axis, x.data, by
      rw [Shape.size_append, Shape.size_cons, Nat.one_mul, ← Shape.size_append, List.take_append_drop,
        x.length_data]⟩
  else none

/-- Tensors of one shape along a new axis. -/
def stack? (axis : Nat) (xs : List Tensor) : Option Tensor :=
  (xs.mapM fun (x : Tensor) => x.expand? axis).bind (concat? axis)

end Tensor

end Dataflow
