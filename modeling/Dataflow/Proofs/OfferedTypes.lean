import Dataflow.Backend.Torch.Type
import Dataflow.DType.Coded
import Dataflow.Proofs.Numerals

/-! Families of element types that their names tell apart, as they have to be: what asks for a type, or compares two of
    them, goes by the names. Beyond the types of the library, a type has a name and the bytes of an element. The types
    that the backends offer are such a family, since there the name tells the bytes. -/

namespace Dataflow

open Text (valueOfDigits)

namespace DType

/-- Element types no two of which have one name. -/
structure Family where
  mem : DType → Prop
  eq_of_name : ∀ d e, mem d → mem e → d.name = e.name → d = e

instance : Membership DType Family := ⟨Family.mem⟩

theorem Family.eq_of_mem {T : Family} {d e : DType} (hd : d ∈ T) (he : e ∈ T) (h : d.name = e.name) : d = e :=
  T.eq_of_name d e hd he h

/-! ### The types of the backends -/

/-- A type of which a backend makes tensors: one of the library, or one that the backend knows beyond these. -/
inductive Offered : DType → Prop
  | own {d : DType} (h : d.name ∈ ownNames) : Offered d
  | host {t : CodedType} (h : t.own? = none) : Offered t.toDType
  | torch {t : Torch.ElementType} (h : t ∈ Torch.ElementType.all) : Offered t.dtype

/-- The bytes of an element that the name of a type tells. -/
def sizeOfName : List Char → Nat
  | 'b' :: 'y' :: 't' :: 'e' :: 's' :: ds | 's' :: 't' :: 'r' :: ds | 'v' :: 'o' :: 'i' :: 'd' :: ds =>
    valueOfDigits (ds.map fun c => c.toNat - 48) / 8
  | 'd' :: 'a' :: 't' :: 'e' :: _ | 't' :: 'i' :: 'm' :: 'e' :: _ => 8
  | cs => ((fixed.find? fun d => d.name.toList = cs).map size).getD 0
where
  /-- The types whose names do not vary. -/
  fixed : List DType :=
    [CodedType.longReal, .longComplex, .object, .anyText].map CodedType.toDType ++
      Torch.ElementType.all.map Torch.ElementType.dtype

end DType

namespace CodedType

/-- A name that ends in the bits of an element tells the bytes. -/
theorem bytes_of_bits (n : Nat) :
    valueOfDigits ((toString (8 * n)).toList.map fun c => c.toNat - 48) / 8 = n := by
  have hdigits : (toString (8 * n)).toList = Nat.toDigits 10 (8 * n) := String.toList_ofList
  rw [hdigits, Numeral.valueOfDigits_toDigits, Nat.mul_div_cancel_left n (by decide)]

theorem sizeOfName_name {t : CodedType} (h : t.own? = none) : DType.sizeOfName t.name.toList = t.size := by
  have hblock (n : Nat) : DType.sizeOfName (if n = 0 then "void" else "void" ++ toString (8 * n)).toList = n := by
    split
    · subst n
      rfl
    · rw [String.toList_append]
      exact bytes_of_bits n
  cases t with
  | element => cases h
  | longReal | longComplex | object | anyText => decide
  | bytes n | text n =>
    rw [name, String.toList_append]
    exact bytes_of_bits n
  | moment u | duration u =>
    rw [name, String.toList_append]
    rfl
  | block | record | several => exact hblock _

end CodedType

namespace DType

variable {d e : DType}

theorem Offered.size_eq (h : d.Offered) (hd : d.name ∉ ownNames) : d.size = sizeOfName d.name.toList := by
  cases h with
  | own hown => exact absurd hown hd
  | @host t hown =>
    have htype : t.toDType = .other t.name t.size (CodedType.name_not_own hown) := by
      unfold CodedType.toDType
      split
      · rename_i d hd
        rw [hown] at hd
        cases hd
      · rfl
    rw [htype]
    exact (CodedType.sizeOfName_name hown).symm
  | torch ht =>
    have hall : ∀ t ∈ Torch.ElementType.all, t.dtype.name ∉ ownNames →
        t.dtype.size = sizeOfName t.dtype.name.toList := by decide
    exact hall _ ht hd

/-- Of the types that the backends offer, no two have one name. -/
theorem Offered.eq_of_name (hd : d.Offered) (he : e.Offered) (h : d.name = e.name) : d = e := by
  have hown : ∀ d : DType, d.name ∈ ownNames → d ∈ .complex64 :: .complex128 :: standard := by
    intro d hd
    cases d with
    | other name size hname => exact absurd hd hname
    | _ => decide
  by_cases hmem : d.name ∈ ownNames
  · have hlibrary : ∀ d ∈ complex64 :: .complex128 :: standard, ∀ e ∈ complex64 :: .complex128 :: standard,
        d.name = e.name → d = e := by decide
    exact hlibrary d (hown d hmem) e (hown e (h ▸ hmem)) h
  · have hsize : d.size = e.size := by rw [hd.size_eq hmem, he.size_eq (h ▸ hmem), h]
    cases d with
    | other name size hname =>
      cases e with
      | other name' size' hname' =>
        obtain rfl : name = name' := h
        obtain rfl : size = size' := hsize
        rfl
      | _ => exact absurd (h.symm ▸ (by decide : _ ∈ ownNames)) hmem
    | _ => exact absurd (by decide : _ ∈ ownNames) hmem

/-- All the types of which the backends make tensors. -/
def Family.offered : Family := ⟨Offered, fun _ _ => Offered.eq_of_name⟩

theorem Family.mem_offered : d ∈ offered ↔ d.Offered := Iff.rfl

end DType

end Dataflow
