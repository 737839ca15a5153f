import Dataflow.Number.Floating

/-! Shapes. A tensor's shape lists its dimensions; a partial shape leaves some of them, or all, open. -/

namespace Dataflow

/-- The dimensions of a tensor, the outermost first. -/
abbrev Shape := List Nat

namespace Shape

/-- The most axes that an array of the host has. -/
def axisLimit : Nat := 64

/-- The bytes that an array of the host never reaches. -/
def byteLimit : Nat := 2 ^ 63

def size : Shape → Nat
  | [] => 1
  | d :: s => d * size s

/-- The elements that the host makes room for: a dimension of zero counts like one of one. -/
def span (s : Shape) : Nat := size (s.filter (· ≠ 0))

/-- An array of the host can have the shape with elements of so many bytes. -/
def fits (s : Shape) (elementSize : Nat) : Bool := s.span * elementSize < byteLimit

@[simp] theorem size_nil : size [] = 1 := rfl

@[simp] theorem size_cons (d : Nat) (s : Shape) : size (d :: s) = d * size s := rfl

@[simp] theorem size_append (s t : Shape) : size (s ++ t) = size s * size t := by
  induction s with
  | nil => simp
  | cons d s ih => simp only [List.cons_append, size_cons, ih, Nat.mul_assoc]

end Shape

/-- A shape with open dimensions over some type of dimensions; `none` admits every shape. -/
abbrev PartialShape (α : Type) := Option (List (Option α))

namespace PartialShape

variable {α : Type}

def isDefined : PartialShape α → Bool
  | none => false
  | some dims => dims.all Option.isSome

/-- An open dimension admits every dimension, a known one its equals. -/
def admitsDim [BEq α] (expected : Option α) (actual : α) : Bool :=
  match expected with
  | none => true
  | some d => d == actual

/-- A shape of the same rank whose dimensions are admitted one by one. -/
def admits [BEq α] : PartialShape α → List α → Bool
  | none, _ => true
  | some dims, actual => dims.length == actual.length && (dims.zip actual).all fun p => admitsDim p.1 p.2

/-- The shape with nothing in its open dimensions; the unknown shape stands for that of a single element. -/
def collapse (zero : α) : PartialShape α → List α
  | none => []
  | some dims => dims.map (·.getD zero)

def ofShape (s : List α) : PartialShape α := some (s.map some)

@[simp] theorem isDefined_ofShape (s : List α) : (ofShape s).isDefined = true := by
  simp [ofShape, isDefined]

theorem ofShape_inj {s t : List α} (h : ofShape s = ofShape t) : s = t :=
  (List.map_inj_right fun _ _ => Option.some.inj).mp (Option.some.inj h)

theorem admits_cons [BEq α] (d : Option α) (ds : List (Option α)) (n : α) (s : List α) :
    admits (some (d :: ds)) (n :: s) = (admitsDim d n && admits (some ds) s) := by
  simp only [admits, List.length_cons, List.zip_cons_cons, List.all_cons]
  rw [show (ds.length + 1 == s.length + 1) = (ds.length == s.length) by simp, Bool.and_left_comm]

@[simp] theorem admits_ofShape [BEq α] [ReflBEq α] (s : List α) : (ofShape s).admits s = true := by
  unfold ofShape
  induction s with
  | nil => rfl
  | cons n s ih =>
    rw [List.map_cons, admits_cons, ih]
    simp [admitsDim]

/-- A shape without open dimensions admits no other. -/
theorem eq_ofShape_of_isDefined [BEq α] [LawfulBEq α] {e : PartialShape α} {s : List α} (h : e.isDefined = true)
    (hs : e.admits s = true) : e = ofShape s := by
  cases e with
  | none => cases h
  | some ds =>
    unfold ofShape
    congr 1
    induction ds generalizing s with
    | nil => cases s <;> simp_all [admits]
    | cons d ds ih =>
      cases s with
      | nil => simp [admits] at hs
      | cons n s =>
        rw [admits_cons, Bool.and_eq_true] at hs
        simp only [isDefined, List.all_cons, Bool.and_eq_true] at h
        obtain ⟨m, rfl⟩ := Option.isSome_iff_exists.mp h.1
        have hm : m = n := eq_of_beq hs.1
        rw [List.map_cons, hm, ih h.2 hs.2]

/-- A partial shape as it is written, given the text of a dimension. -/
def format (text : α → String) : PartialShape α → String
  | none => "<unknown>"
  | some dims => "[" ++ ",".intercalate (dims.map fun d => (d.map text).getD "?") ++ "]"

end PartialShape

def Shape.format (s : Shape) : String := PartialShape.format toString (.ofShape s)

end Dataflow
