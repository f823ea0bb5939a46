import Mathlib.Data.List.Basic
import Mathlib.Data.List.Infix
import Mathlib.Data.List.TakeDrop

/-!
# Contiguous pieces of a list

`slice` names the piece of a list at an offset; `range?` is the checked form
that a bounds-checked indexing expression computes.  `ZeroOn` says that a range
holds only zero bytes, and `patch` overwrites in place.
-/

namespace VBuf.Lib

variable {α : Type*}

/-- The `len` elements starting at `offset` (fewer at the end of the list). -/
def slice (xs : List α) (offset len : Nat) : List α := (xs.drop offset).take len

/-- Bounds-checked `xs[start..stop]`. -/
def range? (xs : List α) (start stop : Nat) : Option (List α) :=
  if start ≤ stop ∧ stop ≤ xs.length then some (slice xs start (stop - start)) else none

/-- Overwrite the elements at `offset` by `ys`, leaving the others in place. -/
def patch (xs : List α) (offset : Nat) (ys : List α) : List α :=
  xs.take offset ++ ys ++ xs.drop (offset + ys.length)

theorem slice_length (xs : List α) (offset len : Nat) :
    (slice xs offset len).length = min len (xs.length - offset) := by
  simp [slice]

theorem slice_length_of_le {xs : List α} {offset len : Nat} (h : offset + len ≤ xs.length) :
    (slice xs offset len).length = len := by
  rw [slice_length]
  omega

@[simp] theorem slice_zero_length (xs : List α) (offset : Nat) : slice xs offset 0 = [] := by
  simp [slice]

theorem range?_eq_some_iff {xs piece : List α} {start stop : Nat} :
    range? xs start stop = some piece ↔
      start ≤ stop ∧ stop ≤ xs.length ∧ piece = slice xs start (stop - start) := by
  unfold range?
  by_cases h : start ≤ stop ∧ stop ≤ xs.length
  · rw [if_pos h]
    constructor
    · intro heq
      exact ⟨h.1, h.2, (Option.some.inj heq).symm⟩
    · rintro ⟨-, -, rfl⟩
      rfl
  · rw [if_neg h]
    constructor
    · intro heq
      cases heq
    · rintro ⟨h₁, h₂, -⟩
      exact absurd ⟨h₁, h₂⟩ h

theorem range?_of_le {xs : List α} {start stop : Nat} (hle : start ≤ stop)
    (hstop : stop ≤ xs.length) : range? xs start stop = some (slice xs start (stop - start)) :=
  range?_eq_some_iff.2 ⟨hle, hstop, rfl⟩

theorem range?_eq_none_iff {xs : List α} {start stop : Nat} :
    range? xs start stop = none ↔ ¬ (start ≤ stop ∧ stop ≤ xs.length) := by
  unfold range?
  by_cases h : start ≤ stop ∧ stop ≤ xs.length <;> simp [h]

theorem slice_append_middle (xs ys zs : List α) :
    slice (xs ++ ys ++ zs) xs.length ys.length = ys := by
  simp [slice, List.append_assoc]

/-- A piece of a piece is a piece at the summed offset. -/
theorem slice_slice {xs : List α} {offset len inner innerLen : Nat}
    (hfits : inner + innerLen ≤ len) :
    slice (slice xs offset len) inner innerLen = slice xs (offset + inner) innerLen := by
  rw [slice, slice, slice, List.drop_take, List.take_take, List.drop_drop]
  congr 1
  omega

theorem getElem?_slice {xs : List α} {offset len i : Nat} (hi : i < len) :
    (slice xs offset len)[i]? = xs[offset + i]? := by
  rw [slice, List.getElem?_take_of_lt hi, List.getElem?_drop]

/-- Every byte of `[start, stop)` is present and zero. -/
def ZeroOn (bytes : List UInt8) (start stop : Nat) : Prop :=
  ∀ i, start ≤ i → i < stop → bytes[i]? = some 0

theorem zeroOn_iff_slice {bytes : List UInt8} {start stop : Nat} (hle : start ≤ stop)
    (hstop : stop ≤ bytes.length) :
    ZeroOn bytes start stop ↔ slice bytes start (stop - start) =
      List.replicate (stop - start) 0 := by
  have hlen : (slice bytes start (stop - start)).length = stop - start :=
    slice_length_of_le (by omega)
  constructor
  · intro hzero
    apply List.ext_getElem?
    intro i
    by_cases hi : i < stop - start
    · rw [getElem?_slice hi, hzero (start + i) (by omega) (by omega), List.getElem?_replicate,
        if_pos hi]
    · rw [List.getElem?_eq_none (by omega), List.getElem?_replicate, if_neg hi]
  · intro hslice i hstart hi
    have hget : (slice bytes start (stop - start))[i - start]? = bytes[start + (i - start)]? :=
      getElem?_slice (by omega)
    have hsum : start + (i - start) = i := by omega
    rw [hslice, List.getElem?_replicate, if_pos (by omega), hsum] at hget
    exact hget.symm

theorem zeroOn_of_empty (bytes : List UInt8) {start stop : Nat} (hle : stop ≤ start) :
    ZeroOn bytes start stop := by
  intro i hstart hstop
  omega

/-- The list `piece` stands at `offset`. -/
def Holds (xs : List α) (offset : Nat) (piece : List α) : Prop :=
  slice xs offset piece.length = piece

theorem holds_self (xs : List α) : Holds xs 0 xs := by simp [Holds, slice]

/-- A list as long as another that stands at its start is that one. -/
theorem eq_of_holds {xs ys : List α} (h : Holds xs 0 ys) (hlength : ys.length = xs.length) :
    xs = ys := by
  rw [Holds, hlength, slice, List.drop_zero, List.take_length] at h
  exact h

theorem slice_of_holds {xs piece : List α} {offset width : Nat} (h : Holds xs offset piece)
    (hwidth : piece.length = width) : slice xs offset width = piece := by
  subst hwidth
  exact h

theorem slice_add (xs : List α) (offset m n : Nat) :
    slice xs offset (m + n) = slice xs offset m ++ slice xs (offset + m) n := by
  rw [slice, List.take_add, List.drop_drop]
  rfl

theorem holds_nil (xs : List α) (offset : Nat) : Holds xs offset [] := slice_zero_length xs offset

theorem holds_append {xs a b : List α} {offset : Nat} :
    Holds xs offset (a ++ b) ↔ Holds xs offset a ∧ Holds xs (offset + a.length) b := by
  unfold Holds
  rw [List.length_append, slice_add]
  constructor
  · intro h
    have hlen := congrArg List.length h
    rw [List.length_append, List.length_append] at hlen
    have ha := slice_length xs offset a.length
    have hb := slice_length xs (offset + a.length) b.length
    exact List.append_inj h (by omega)
  · rintro ⟨ha, hb⟩
    rw [ha, hb]

theorem Holds.length_le {xs piece : List α} {offset : Nat} (h : Holds xs offset piece)
    (hoffset : offset ≤ xs.length) : offset + piece.length ≤ xs.length := by
  have hlen := congrArg List.length h
  rw [slice_length] at hlen
  omega

/-- What follows an offset decides the pieces there. -/
theorem holds_of_drop_eq {xs piece rest : List α} {offset : Nat}
    (h : xs.drop offset = piece ++ rest) :
    Holds xs offset piece ∧ xs.drop (offset + piece.length) = rest := by
  constructor
  · rw [Holds, slice, h, List.take_left']
    rfl
  · rw [← List.drop_drop, h, List.drop_left']
    rfl

theorem Holds.drop_eq {xs piece : List α} {offset : Nat} (h : Holds xs offset piece) :
    xs.drop offset = piece ++ xs.drop (offset + piece.length) := by
  rw [← List.drop_drop]
  conv_lhs => rw [← List.take_append_drop piece.length (xs.drop offset)]
  exact congrArg (· ++ _) h

theorem zeroOn_iff_holds {bytes : List UInt8} {start stop : Nat} (hle : start ≤ stop) :
    ZeroOn bytes start stop ↔ Holds bytes start (List.replicate (stop - start) 0) := by
  unfold Holds
  rw [List.length_replicate]
  rcases Nat.lt_or_ge start stop with hlt | hge
  · rcases Nat.lt_or_ge bytes.length stop with hshort | hlong
    · refine iff_of_false ?_ ?_
      · intro hzero
        have hget := hzero (stop - 1) (by omega) (by omega)
        rw [List.getElem?_eq_none (by omega)] at hget
        cases hget
      · intro hslice
        have hlen := congrArg List.length hslice
        rw [slice_length, List.length_replicate] at hlen
        omega
    · exact zeroOn_iff_slice hle hlong
  · have heq : stop - start = 0 := by omega
    rw [heq]
    exact iff_of_true (zeroOn_of_empty bytes hge) (slice_zero_length bytes start)

@[simp] theorem patch_length {xs ys : List α} {offset : Nat}
    (hfits : offset + ys.length ≤ xs.length) : (patch xs offset ys).length = xs.length := by
  simp [patch]
  omega

theorem patch_nil (xs : List α) (offset : Nat) : patch xs offset [] = xs := by
  simp [patch]

theorem patch_at_end (xs ys : List α) : patch xs xs.length ys = xs ++ ys := by
  have hdrop : xs.drop (xs.length + ys.length) = [] := List.drop_eq_nil_of_le (by omega)
  rw [patch, List.take_length, hdrop, List.append_nil]

theorem patch_length_eq_max {xs ys : List α} {offset : Nat} (hoffset : offset ≤ xs.length) :
    (patch xs offset ys).length = max xs.length (offset + ys.length) := by
  simp only [patch, List.length_append, List.length_take, List.length_drop]
  omega

/-- Overwriting a middle part of the same length. -/
theorem patch_append_middle (xs ys ys' zs : List α) (hlength : ys.length = ys'.length) :
    patch (xs ++ ys ++ zs) xs.length ys' = xs ++ ys' ++ zs := by
  have hdrop : (xs ++ ys ++ zs).drop (xs.length + ys'.length) = zs := by
    rw [← hlength, ← List.length_append, List.drop_left']
    rfl
  rw [patch, hdrop, List.append_assoc xs, List.take_left']
  rfl

/-- An overwritten list, entry by entry. -/
theorem getElem?_patch {xs ys : List α} {offset : Nat}
    (hfits : offset + ys.length ≤ xs.length) (i : Nat) :
    (patch xs offset ys)[i]? =
      if offset ≤ i ∧ i < offset + ys.length then ys[i - offset]? else xs[i]? := by
  have htake : (xs.take offset).length = offset := List.length_take_of_le (by omega)
  rw [patch, List.append_assoc]
  split
  next hin =>
    rw [List.getElem?_append_right (by omega), List.getElem?_append_left (by omega), htake]
  next hout =>
    rcases Nat.lt_or_ge i offset with hbefore | hafter
    · rw [List.getElem?_append_left (by omega), List.getElem?_take_of_lt hbefore]
    · rw [List.getElem?_append_right (by omega), List.getElem?_append_right (by omega),
        List.getElem?_drop]
      congr 1
      omega

/-- What was overwritten is read back. -/
theorem slice_patch_self {xs ys : List α} {offset : Nat} (h : offset ≤ xs.length) :
    slice (patch xs offset ys) offset ys.length = ys := by
  have htake : (xs.take offset).length = offset := List.length_take_of_le h
  have hslice := slice_append_middle (xs.take offset) ys (xs.drop (offset + ys.length))
  rwa [htake] at hslice

/-- What lies before or behind is kept. -/
theorem slice_patch_disjoint {xs ys : List α} {offset start len : Nat}
    (h : offset + ys.length ≤ xs.length)
    (hdisjoint : start + len ≤ offset ∨ offset + ys.length ≤ start) :
    slice (patch xs offset ys) start len = slice xs start len := by
  refine List.ext_getElem? fun i => ?_
  rcases Nat.lt_or_ge i len with hi | hi
  · rw [getElem?_slice hi, getElem?_slice hi, getElem?_patch h, if_neg (by omega)]
  · rw [List.getElem?_eq_none, List.getElem?_eq_none]
    · rw [slice_length]
      omega
    · rw [slice_length]
      omega

end VBuf.Lib
