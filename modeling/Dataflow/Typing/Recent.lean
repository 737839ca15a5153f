/-! What was made lately: values by the key that they were made of, the latest first, up to a number of them. Looking a
    value up makes it the latest again. -/

namespace Dataflow

structure Recent (κ ν : Type) where
  entries : List (κ × ν)

namespace Recent

variable {κ ν : Type}

def empty : Recent κ ν := ⟨[]⟩

def capacity : Nat := 128

/-- The value of the key that passes a test. -/
def find? (isKey : κ → Bool) (r : Recent κ ν) : Option ν := (r.entries.find? fun e => isKey e.1).map (·.2)

/-- The value of a key as the latest one; the oldest gives way to it where there are too many. -/
def put (k : κ) (v : ν) (r : Recent κ ν) : Recent κ ν := ⟨((k, v) :: r.entries).take capacity⟩

/-- The entry whose key passes a test as the latest one. -/
def touch (isKey : κ → Bool) (r : Recent κ ν) : Recent κ ν :=
  let (found, others) := r.entries.partition fun e => isKey e.1
  ⟨found ++ others⟩

theorem length_put_le (k : κ) (v : ν) (r : Recent κ ν) : (r.put k v).entries.length ≤ capacity :=
  List.length_take_le capacity _

theorem find?_put {isKey : κ → Bool} {k : κ} (h : isKey k = true) (v : ν) (r : Recent κ ν) :
    (r.put k v).find? isKey = some v := by
  simp [find?, put, capacity, h]

end Recent

end Dataflow
