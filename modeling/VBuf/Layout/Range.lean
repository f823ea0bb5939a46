import VBuf.V06.Wire

/-!
# Checked byte ranges

A `ByteRange` cannot overflow and a `CheckedRange` cannot leave its mapping: both
carry the fact as a field, and their constructors are the source's checks.
-/

namespace VBuf.Layout

open VBuf.Lib VBuf.V06

/-- `RangeError`. -/
inductive RangeError
  | overflow
  | endBeforeStart
  | outsideMapping
  | outsideParent
  | hostIndexOverflow
  | invalidAlignment
  | misaligned
  deriving DecidableEq, Repr

/-- `ByteRange`: the end is a `u64`. -/
@[ext] structure ByteRange where
  offset : Nat
  length : Nat
  fits : offset + length < u64Bound
  deriving DecidableEq

namespace ByteRange

/-- `ByteRange::end`. -/
def stop (range : ByteRange) : Nat := range.offset + range.length

/-- `ByteRange::new`. -/
def new (offset length : Nat) : Except RangeError ByteRange :=
  if h : offset + length < u64Bound then .ok ⟨offset, length, h⟩ else .error .overflow

/-- `ByteRange::from_end`. -/
def fromEnd (offset stop : Nat) : Except RangeError ByteRange := do
  rejectIf (stop < offset) RangeError.endBeforeStart
  new offset (stop - offset)

/-- `ByteRange::contains`. -/
def Contains (range child : ByteRange) : Prop :=
  range.offset ≤ child.offset ∧ child.stop ≤ range.stop

instance (range child : ByteRange) : Decidable (range.Contains child) :=
  inferInstanceAs (Decidable (_ ∧ _))

/-- `ByteRange::refine`. -/
def refine (range : ByteRange) (relativeOffset length : Nat) : Except RangeError ByteRange := do
  rejectIf (u64Bound ≤ range.offset + relativeOffset) RangeError.overflow
  let child ← new (range.offset + relativeOffset) length
  rejectIf (¬ range.Contains child) RangeError.outsideParent
  pure child

theorem new_eq_ok_iff {offset length : Nat} {range : ByteRange} :
    new offset length = .ok range ↔ range.offset = offset ∧ range.length = length := by
  unfold new
  split
  next h =>
    constructor
    · intro heq
      cases heq
      exact ⟨rfl, rfl⟩
    · rintro ⟨rfl, rfl⟩
      rfl
  next h =>
    constructor
    · intro heq
      cases heq
    · rintro ⟨rfl, rfl⟩
      exact absurd range.fits h

theorem fromEnd_eq_ok_iff {offset stop : Nat} {range : ByteRange} :
    fromEnd offset stop = .ok range ↔ range.offset = offset ∧ range.stop = stop := by
  simp only [fromEnd, bind_eq_ok_iff, rejectIf_eq_ok_iff, new_eq_ok_iff, not_lt]
  constructor
  · rintro ⟨-, hle, rfl, hlength⟩
    refine ⟨rfl, ?_⟩
    unfold ByteRange.stop
    omega
  · rintro ⟨rfl, rfl⟩
    unfold ByteRange.stop
    exact ⟨(), Nat.le_add_right _ _, rfl, by omega⟩

/-- A refinement that succeeds is the sub-range at the relative offset. -/
theorem refine_eq_ok_iff {range child : ByteRange} {relativeOffset length : Nat} :
    range.refine relativeOffset length = .ok child ↔
      child.offset = range.offset + relativeOffset ∧ child.length = length ∧
        relativeOffset + length ≤ range.length := by
  simp only [refine, bind_eq_ok_iff, rejectIf_eq_ok_iff, new_eq_ok_iff, pure_eq_ok_iff, not_le,
    not_not]
  constructor
  · rintro ⟨-, -, c, ⟨hoffset, hlength⟩, -, ⟨hle, hstop⟩, rfl⟩
    refine ⟨hoffset, hlength, ?_⟩
    unfold stop at hstop
    omega
  · rintro ⟨hoffset, hlength, hinside⟩
    have hfits := child.fits
    refine ⟨(), by omega, child, ⟨hoffset, hlength⟩, (), ⟨by omega, ?_⟩, rfl⟩
    unfold stop
    omega

end ByteRange

/-- `CheckedRange`: a range inside its mapping. -/
structure CheckedRange where
  mapping : List UInt8
  range : ByteRange
  bounded : range.stop ≤ mapping.length
  deriving DecidableEq

namespace CheckedRange

/-- `CheckedRange::from_mapping`; the host conversions are the identity. -/
def fromMapping (mapping : List UInt8) (range : ByteRange) : Except RangeError CheckedRange :=
  if h : range.stop ≤ mapping.length then .ok ⟨mapping, range, h⟩ else .error .outsideMapping

def offset (checked : CheckedRange) : Nat := checked.range.offset

def length (checked : CheckedRange) : Nat := checked.range.length

/-- `CheckedRange::end`. -/
def stop (checked : CheckedRange) : Nat := checked.range.stop

/-- `CheckedRange::bytes`; the field `bounded` is its `expect`. -/
def bytes (checked : CheckedRange) : List UInt8 :=
  slice checked.mapping checked.offset checked.length

/-- `CheckedRange::refine`. -/
def refine (checked : CheckedRange) (relativeOffset length : Nat) :
    Except RangeError CheckedRange := do
  let child ← checked.range.refine relativeOffset length
  fromMapping checked.mapping child

theorem fromMapping_eq_ok_iff {mapping : List UInt8} {range : ByteRange} {checked : CheckedRange} :
    fromMapping mapping range = .ok checked ↔
      checked.mapping = mapping ∧ checked.range = range := by
  unfold fromMapping
  split
  next h =>
    constructor
    · intro heq
      cases heq
      exact ⟨rfl, rfl⟩
    · rintro ⟨rfl, rfl⟩
      rfl
  next h =>
    constructor
    · intro heq
      cases heq
    · rintro ⟨rfl, rfl⟩
      exact absurd checked.bounded h

/-- A child lies inside its parent, at the relative offset of the same mapping;
the bounds check on the mapping cannot fail there. -/
theorem refine_eq_ok_iff {checked child : CheckedRange} {relativeOffset length : Nat} :
    checked.refine relativeOffset length = .ok child ↔
      child.mapping = checked.mapping ∧ child.offset = checked.offset + relativeOffset ∧
        child.length = length ∧ relativeOffset + length ≤ checked.length := by
  simp only [refine, bind_eq_ok_iff, fromMapping_eq_ok_iff, ByteRange.refine_eq_ok_iff]
  constructor
  · rintro ⟨range, hrange, hmapping, rfl⟩
    exact ⟨hmapping, hrange⟩
  · rintro ⟨hmapping, hrange⟩
    exact ⟨_, hrange, hmapping, rfl⟩

/-- A finite chain of `refine` calls, each on the previous result. -/
def refineChain (checked : CheckedRange) : List (Nat × Nat) → Except RangeError CheckedRange
  | [] => .ok checked
  | (relativeOffset, length) :: rest => do
      let child ← checked.refine relativeOffset length
      refineChain child rest

/-- The sum of the relative offsets of a chain. -/
def totalOffset (chain : List (Nat × Nat)) : Nat := (chain.map Prod.fst).sum

/-- The length that a chain ends with. -/
def finalLength : Nat → List (Nat × Nat) → Nat
  | initial, [] => initial
  | _, (_, length) :: rest => finalLength length rest

/-- Whatever the chain, its result is the sub-range at the summed offset. -/
theorem refineChain_eq_ok {checked child : CheckedRange} {chain : List (Nat × Nat)}
    (h : checked.refineChain chain = .ok child) :
    child.mapping = checked.mapping ∧ child.offset = checked.offset + totalOffset chain ∧
      child.length = finalLength checked.length chain ∧
      totalOffset chain + child.length ≤ checked.length := by
  induction chain generalizing checked with
  | nil =>
      cases h
      exact ⟨rfl, rfl, rfl, Nat.le_of_eq (Nat.zero_add _)⟩
  | cons link rest ih =>
      obtain ⟨relativeOffset, length⟩ := link
      simp only [refineChain, bind_eq_ok_iff, refine_eq_ok_iff] at h
      obtain ⟨middle, ⟨hmapping, hoffset, hlength, hinside⟩, hrest⟩ := h
      obtain ⟨hmapping', hoffset', hlength', hinside'⟩ := ih hrest
      have htotal : totalOffset ((relativeOffset, length) :: rest) =
          relativeOffset + totalOffset rest := by
        simp [totalOffset]
      refine ⟨hmapping'.trans hmapping, ?_, ?_, ?_⟩
      · rw [hoffset', hoffset, htotal, Nat.add_assoc]
      · rw [hlength', hlength]
        rfl
      · rw [htotal]
        omega

/-- The bytes of a child are a piece of its parent's. -/
theorem bytes_of_inside {checked child : CheckedRange} {relativeOffset : Nat}
    (hmapping : child.mapping = checked.mapping)
    (hoffset : child.offset = checked.offset + relativeOffset)
    (hinside : relativeOffset + child.length ≤ checked.length) :
    child.bytes = slice checked.bytes relativeOffset child.length := by
  unfold bytes
  rw [slice_slice hinside, hmapping, hoffset]

end CheckedRange

end VBuf.Layout
