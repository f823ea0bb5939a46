import Mathlib.Data.Nat.Bitwise
import VBuf.V06.Wire

/-!
# The packed block anchor

Every canonical block starts with one 64-bit anchor.  `AnchorFields.pack` is the
writer's shift-and-or expression, `AnchorFields.unpack` the reader's
shift-and-mask one.  Both are related to the positional value `fieldSum`, on
which they are inverse to each other.
-/

namespace VBuf.V06

/-- The eight fields of a block anchor, as unsigned numbers. -/
structure AnchorFields where
  semanticCode : Nat
  physicalCode : Nat
  continuation : Bool
  count64 : Bool
  payloadShift : Nat
  keyId : Nat
  bitWidth : Nat
  inlineCount : Nat
  deriving DecidableEq, Repr

namespace AnchorFields

/-- Each field fits its bits. -/
structure Fits (fields : AnchorFields) : Prop where
  semanticCode_lt : fields.semanticCode < 2 ^ 4
  physicalCode_lt : fields.physicalCode < 2 ^ 4
  payloadShift_lt : fields.payloadShift < 2 ^ 6
  keyId_lt : fields.keyId < 2 ^ 16
  bitWidth_lt : fields.bitWidth < 2 ^ 16
  inlineCount_lt : fields.inlineCount < 2 ^ 16

/-- The writer's anchor expression. -/
def pack (fields : AnchorFields) : Nat :=
  fields.semanticCode
    ||| fields.physicalCode <<< 4
    ||| fields.continuation.toNat <<< 8
    ||| fields.count64.toNat <<< 9
    ||| fields.payloadShift <<< 10
    ||| fields.keyId <<< 16
    ||| fields.bitWidth <<< 32
    ||| fields.inlineCount <<< 48

/-- The reader's field extraction. -/
def unpack (anchor : Nat) : AnchorFields where
  semanticCode := anchor &&& 0x0f
  physicalCode := (anchor >>> 4) &&& 0x0f
  continuation := decide (anchor &&& (1 <<< 8) ≠ 0)
  count64 := decide (anchor &&& (1 <<< 9) ≠ 0)
  payloadShift := (anchor >>> 10) &&& 0x3f
  keyId := (anchor >>> 16) &&& 0xffff
  bitWidth := (anchor >>> 32) &&& 0xffff
  inlineCount := (anchor >>> 48) &&& 0xffff

/-- The positional value of the fields. -/
def fieldSum (fields : AnchorFields) : Nat :=
  fields.semanticCode + fields.physicalCode * 2 ^ 4 + fields.continuation.toNat * 2 ^ 8 +
    fields.count64.toNat * 2 ^ 9 + fields.payloadShift * 2 ^ 10 + fields.keyId * 2 ^ 16 +
    fields.bitWidth * 2 ^ 32 + fields.inlineCount * 2 ^ 48

private theorem or_shiftLeft_eq_add {low shift : Nat} (hlow : low < 2 ^ shift) (high : Nat) :
    low ||| high <<< shift = low + high * 2 ^ shift := by
  rw [Nat.or_comm, ← Nat.shiftLeft_add_eq_or_of_lt hlow, Nat.shiftLeft_eq, Nat.add_comm]

theorem pack_eq_fieldSum {fields : AnchorFields} (h : fields.Fits) :
    fields.pack = fields.fieldSum := by
  have hc := Bool.toNat_le fields.continuation
  have he := Bool.toNat_le fields.count64
  obtain ⟨h₁, h₂, h₃, h₄, h₅, h₆⟩ := h
  unfold pack fieldSum
  -- Each disjunct lies strictly above the bits already placed.
  rw [or_shiftLeft_eq_add h₁, @or_shiftLeft_eq_add _ 8 (by omega),
    @or_shiftLeft_eq_add _ 9 (by omega), @or_shiftLeft_eq_add _ 10 (by omega),
    @or_shiftLeft_eq_add _ 16 (by omega), @or_shiftLeft_eq_add _ 32 (by omega),
    @or_shiftLeft_eq_add _ 48 (by omega)]

theorem fieldSum_lt {fields : AnchorFields} (h : fields.Fits) : fields.fieldSum < u64Bound := by
  have hc := Bool.toNat_le fields.continuation
  have he := Bool.toNat_le fields.count64
  obtain ⟨h₁, h₂, h₃, h₄, h₅, h₆⟩ := h
  unfold fieldSum u64Bound
  omega

theorem pack_lt {fields : AnchorFields} (h : fields.Fits) : fields.pack < u64Bound := by
  rw [pack_eq_fieldSum h]
  exact fieldSum_lt h

private theorem and_mask (value width : Nat) : value &&& (2 ^ width - 1) = value % 2 ^ width :=
  Nat.and_two_pow_sub_one_eq_mod value width

private theorem and_bit_ne_zero (value bit : Nat) :
    (value &&& (1 <<< bit) ≠ 0) ↔ value / 2 ^ bit % 2 = 1 := by
  have hbit : value.testBit bit = decide (value &&& (1 <<< bit) ≠ 0) := by
    rw [Nat.one_shiftLeft, Nat.and_two_pow]
    cases value.testBit bit <;> simp
  rw [Nat.testBit_eq_decide_div_mod_eq] at hbit
  exact (decide_eq_decide.1 hbit).symm

/-- Field extraction as quotients and remainders. -/
theorem unpack_eq (anchor : Nat) :
    unpack anchor =
      { semanticCode := anchor % 2 ^ 4
        physicalCode := anchor / 2 ^ 4 % 2 ^ 4
        continuation := decide (anchor / 2 ^ 8 % 2 = 1)
        count64 := decide (anchor / 2 ^ 9 % 2 = 1)
        payloadShift := anchor / 2 ^ 10 % 2 ^ 6
        keyId := anchor / 2 ^ 16 % 2 ^ 16
        bitWidth := anchor / 2 ^ 32 % 2 ^ 16
        inlineCount := anchor / 2 ^ 48 % 2 ^ 16 } := by
  unfold unpack
  simp only [and_bit_ne_zero, Nat.shiftRight_eq_div_pow]
  rw [show (0x0f : Nat) = 2 ^ 4 - 1 by rfl, show (0x3f : Nat) = 2 ^ 6 - 1 by rfl,
    show (0xffff : Nat) = 2 ^ 16 - 1 by rfl]
  simp only [and_mask]

theorem unpack_fits (anchor : Nat) : (unpack anchor).Fits := by
  rw [unpack_eq]
  constructor <;> exact Nat.mod_lt _ (by decide)

private theorem toNat_decide (value : Nat) : (decide (value % 2 = 1)).toNat = value % 2 := by
  rcases Nat.mod_two_eq_zero_or_one value with h | h <;> simp [h]

private theorem decide_eq_of_toNat {value : Nat} {bit : Bool} (h : value = bit.toNat) :
    decide (value = 1) = bit := by
  subst h
  cases bit <;> rfl

/-- Packing undoes unpacking on every 64-bit anchor. -/
theorem pack_unpack {anchor : Nat} (hanchor : anchor < u64Bound) : (unpack anchor).pack = anchor := by
  rw [pack_eq_fieldSum (unpack_fits anchor), unpack_eq]
  unfold fieldSum
  simp only [toNat_decide]
  unfold u64Bound at hanchor
  omega

/-- Unpacking undoes packing when each field fits. -/
theorem unpack_pack {fields : AnchorFields} (h : fields.Fits) : unpack fields.pack = fields := by
  have hc := Bool.toNat_le fields.continuation
  have he := Bool.toNat_le fields.count64
  rw [pack_eq_fieldSum h, unpack_eq]
  obtain ⟨h₁, h₂, h₃, h₄, h₅, h₆⟩ := h
  obtain ⟨semanticCode, physicalCode, continuation, count64, payloadShift, keyId, bitWidth,
    inlineCount⟩ := fields
  simp only [fieldSum] at *
  congr 1
  · omega
  · omega
  · exact decide_eq_of_toNat (by omega)
  · exact decide_eq_of_toNat (by omega)
  all_goals omega

end AnchorFields

end VBuf.V06
