import Mathlib.Data.List.GetD
import Mathlib.Data.Set.Basic
import Mathlib.Order.Interval.Set.Basic
import VBuf.Lib.ByteSink

/-!
# Files written at positions

A file is a byte list read through `byteAt`, zero past its end.  `put` writes at
a position and `resize` sets the length.
-/

namespace VBuf.Lib

open ByteSink (put)

/-- The byte at a position, zero past the end. -/
def byteAt (file : List UInt8) (position : Nat) : UInt8 := file.getD position 0

/-- `set_len` of a file. -/
def resize (file : List UInt8) (length : Nat) : List UInt8 :=
  file.take length ++ List.replicate (length - file.length) 0

theorem byteAt_of_length_le {file : List UInt8} {p : Nat} (h : file.length ≤ p) :
    byteAt file p = 0 := by
  rw [byteAt, List.getD_eq_default _ _ h]

theorem byteAt_eq_getElem {file : List UInt8} {p : Nat} (h : p < file.length) :
    byteAt file p = file[p] := by
  rw [byteAt, List.getD_eq_getElem _ _ h]

theorem byteAt_append (a b : List UInt8) (p : Nat) :
    byteAt (a ++ b) p = if p < a.length then byteAt a p else byteAt b (p - a.length) := by
  unfold byteAt
  split
  next h => rw [List.getD_append _ _ _ _ h]
  next h => rw [List.getD_append_right _ _ _ _ (Nat.le_of_not_lt h)]

@[simp] theorem byteAt_nil (p : Nat) : byteAt [] p = 0 := rfl

@[simp] theorem byteAt_replicate_zero (n p : Nat) : byteAt (List.replicate n 0) p = 0 := by
  rcases Nat.lt_or_ge p n with h | h
  · rw [byteAt_eq_getElem (by rwa [List.length_replicate]), List.getElem_replicate]
  · rw [byteAt_of_length_le (by rwa [List.length_replicate])]

theorem byteAt_take (file : List UInt8) (n p : Nat) :
    byteAt (file.take n) p = if p < n then byteAt file p else 0 := by
  unfold byteAt
  rw [List.getD_eq_getElem?_getD, List.getD_eq_getElem?_getD, List.getElem?_take]
  split <;> simp

theorem byteAt_drop (file : List UInt8) (n p : Nat) :
    byteAt (file.drop n) p = byteAt file (n + p) := by
  rw [byteAt, byteAt, List.getD_eq_getElem?_getD, List.getD_eq_getElem?_getD, List.getElem?_drop]

/-- Two files of one length with the same bytes are equal. -/
theorem ext_byteAt {a b : List UInt8} (hlength : a.length = b.length)
    (h : ∀ p, p < a.length → byteAt a p = byteAt b p) : a = b := by
  apply List.ext_getElem hlength
  intro p hp hp'
  rw [← byteAt_eq_getElem hp, ← byteAt_eq_getElem hp', h p hp]

theorem length_put (file bytes : List UInt8) (offset : Nat) :
    (put file offset bytes).length =
      if bytes = [] then file.length else max file.length (offset + bytes.length) := by
  unfold put
  split
  next => rfl
  next =>
      have hfill : (file ++ List.replicate (offset - file.length) 0).length =
          max file.length offset := by
        simp only [List.length_append, List.length_replicate]
        omega
      rw [patch_length_eq_max (by rw [hfill]; exact Nat.le_max_right _ _), hfill]
      omega

/-- A write changes the bytes of its range only. -/
theorem byteAt_put (file bytes : List UInt8) (offset p : Nat) :
    byteAt (put file offset bytes) p =
      if offset ≤ p ∧ p < offset + bytes.length then byteAt bytes (p - offset)
      else byteAt file p := by
  unfold put
  split
  next hnil =>
      subst hnil
      rw [if_neg (by simp)]
  next =>
      have hfill : ∀ q, byteAt (file ++ List.replicate (offset - file.length) 0) q =
          byteAt file q := by
        intro q
        rw [byteAt_append, byteAt_replicate_zero]
        split
        next => rfl
        next h => rw [byteAt_of_length_le (Nat.le_of_not_lt h)]
      have hlength : ((file ++ List.replicate (offset - file.length) 0).take offset).length =
          offset := by
        simp only [List.length_take, List.length_append, List.length_replicate]
        omega
      rw [patch, byteAt_append, byteAt_append, List.length_append, hlength, byteAt_take, hfill,
        byteAt_drop, hfill]
      by_cases hlow : p < offset
      · rw [if_pos (by omega), if_pos hlow, if_pos hlow, if_neg (by omega)]
      · by_cases hhigh : p < offset + bytes.length
        · rw [if_pos hhigh, if_neg hlow, if_pos (by omega)]
        · rw [if_neg hhigh, if_neg (by omega)]
          congr 1
          omega

@[simp] theorem resize_length (file : List UInt8) (length : Nat) :
    (resize file length).length = length := by
  simp only [resize, List.length_append, List.length_take, List.length_replicate]
  omega

/-! ### Parts of a target -/

end VBuf.Lib
