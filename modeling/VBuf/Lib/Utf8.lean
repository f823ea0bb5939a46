import Mathlib.Data.List.Lex
import Mathlib.Data.List.Sort

/-!
# Text as bytes

A checked text is a `String`; its bytes and the checked conversion back are
inverse to each other.  Texts are compared byte by byte, as unsigned numbers.
-/

namespace VBuf.Lib

/-- `s.as_bytes()`. -/
def utf8 (s : String) : List UInt8 := s.toByteArray.data.toList

/-- `String::from_utf8`. -/
def fromUtf8 (bytes : List UInt8) : Option String := String.fromUTF8? ⟨bytes.toArray⟩

/-- The bytes as numbers, for the lexicographic order. -/
def byteKey (s : String) : List Nat := (utf8 s).map UInt8.toNat

theorem fromUtf8_eq_some_iff {bytes : List UInt8} {s : String} :
    fromUtf8 bytes = some s ↔ utf8 s = bytes := by
  unfold fromUtf8 utf8 String.fromUTF8?
  constructor
  · intro h
    split at h
    · cases h
      rfl
    · cases h
  · intro h
    subst h
    have hvalid : (⟨s.toByteArray.data.toList.toArray⟩ : ByteArray).IsValidUTF8 := s.isValidUTF8
    rw [dif_pos hvalid]
    rfl

@[simp] theorem fromUtf8_utf8 (s : String) : fromUtf8 (utf8 s) = some s :=
  fromUtf8_eq_some_iff.2 rfl

theorem utf8_injective : Function.Injective utf8 := by
  intro a b h
  have hb := fromUtf8_utf8 b
  rw [← h, fromUtf8_utf8] at hb
  exact Option.some.inj hb

theorem byteKey_injective : Function.Injective byteKey := by
  intro a b h
  apply utf8_injective
  exact List.map_injective_iff.2 (fun _ _ => UInt8.toNat_inj.1) h

end VBuf.Lib
