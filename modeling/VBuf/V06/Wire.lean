import VBuf.Lib.Align
import VBuf.Lib.LittleEndian
import VBuf.Lib.Result
import VBuf.Lib.Slice

/-!
# v0.6 wire vocabulary

Error codes, header and block descriptors, checked `u64` arithmetic and the
packed 64-bit block anchor.  A `u64` quantity is a `Nat`; the checked operations
fail at `2 ^ 64`, as `checked_add` and `checked_mul` do.
-/

namespace VBuf.V06

open VBuf.Lib

/-- `V06ErrorCode`. -/
inductive ErrorCode
  | tooShort
  | badMagic
  | unsupportedVersion
  | invalidBaseShift
  | invalidFlags
  | invalidHeaderSize
  | invalidReserved
  | invalidExtension
  | unknownRequiredExtension
  | lengthMismatch
  | arithmeticOverflow
  | truncatedBlock
  | invalidAnchor
  | invalidRepresentation
  | nonCanonicalCount
  | invalidContinuation
  | nonZeroPadding
  | misaligned
  | notFound
  | typeMismatch
  | hostUnsupported
  | invalidNestedStream
  deriving DecidableEq, Repr

/-- `V06Error`: a code, the offending byte offset when there is one, a text. -/
structure Error where
  code : ErrorCode
  offset : Option Nat
  detail : String
  deriving DecidableEq, Repr

def Error.at (code : ErrorCode) (offset : Nat) (detail : String) : Error :=
  { code, offset := some offset, detail }

def Error.global (code : ErrorCode) (detail : String) : Error :=
  { code, offset := none, detail }

/-- `V06Semantic`; the constructor order is the wire code. -/
inductive Semantic
  | unsigned
  | float
  | signed
  | opaqueBytes
  deriving DecidableEq, Repr

/-- `semantic as u64`. -/
def Semantic.code : Semantic → Nat
  | .unsigned => 0
  | .float => 1
  | .signed => 2
  | .opaqueBytes => 3

/-- `V06Physical`; the constructor order is the wire code. -/
inductive Physical
  | scalar
  | array
  deriving DecidableEq, Repr

/-- `physical as u64`. -/
def Physical.code : Physical → Nat
  | .scalar => 0
  | .array => 1

theorem Semantic.code_lt (semantic : Semantic) : semantic.code < 16 := by
  cases semantic <;> simp [Semantic.code]

theorem Physical.code_lt (physical : Physical) : physical.code < 16 := by
  cases physical <;> simp [Physical.code]

/-- `V06Header`. -/
structure Header where
  baseShift : Nat
  baseStep : Nat
  indefinite : Bool
  headerSize : Nat
  dataRegionStart : Nat
  dataRegionSize : Nat
  dataRegionEnd : Nat
  deriving DecidableEq, Repr

/-- `V06Block`. -/
structure Block where
  blockStart : Nat
  payloadStart : Nat
  payloadLen : Nat
  payloadEnd : Nat
  nextBlockStart : Nat
  keyId : UInt16
  semantic : Semantic
  physical : Physical
  continuation : Bool
  bitWidth : Nat
  count : Nat
  payloadAlignment : Nat
  deriving DecidableEq, Repr

/-- `continuation.then_some(key_id)`. -/
def Block.continuationKey (block : Block) : Option UInt16 :=
  if block.continuation then some block.keyId else none

/-- `V06_MAGIC`: the bytes `VBUF`. -/
def magic : List UInt8 := [0x56, 0x42, 0x55, 0x46]

/-- `V06_VERSION`. -/
def version : Nat := 0x00060000

/-- `MIN_HEADER_SIZE`. -/
def minHeaderSize : Nat := 24

/-- One past the largest `u64`. -/
def u64Bound : Nat := 2 ^ 64

theorem u64Bound_eq : u64Bound = 256 ^ 8 := by
  norm_num [u64Bound]

/-- `isize::MAX`, the largest length of a Rust slice. -/
def isizeMax : Nat := 2 ^ 63 - 1

/-- A Rust `&[u8]`: no slice is longer than `isize::MAX` bytes. -/
structure ByteSlice where
  toList : List UInt8
  length_le : toList.length ≤ isizeMax

/-- `checked_add`. -/
def checkedAdd (a b : Nat) : Except Error Nat :=
  if a + b < u64Bound then .ok (a + b)
  else .error (Error.global .arithmeticOverflow "u64 addition overflow")

/-- `checked_mul`. -/
def checkedMul (a b : Nat) : Except Error Nat :=
  if a * b < u64Bound then .ok (a * b)
  else .error (Error.global .arithmeticOverflow "u64 multiplication overflow")

/-- `!value` on a `u64`. -/
def complement64 (value : Nat) : Nat := u64Bound - 1 - value

/-- `align_up` of the reader, which also rejects a bad alignment. -/
def alignUp (value alignment : Nat) : Except Error Nat := do
  rejectIf (alignment = 0 ∨ ¬ alignment.isPowerOfTwo)
    (Error.global .misaligned "invalid alignment")
  let sum ← checkedAdd value (alignment - 1)
  pure (sum &&& complement64 (alignment - 1))

@[simp] theorem checkedAdd_eq_ok_iff {a b r : Nat} :
    checkedAdd a b = .ok r ↔ a + b < u64Bound ∧ r = a + b := by
  unfold checkedAdd
  by_cases h : a + b < u64Bound <;> simp [h, eq_comm]

@[simp] theorem checkedMul_eq_ok_iff {a b r : Nat} :
    checkedMul a b = .ok r ↔ a * b < u64Bound ∧ r = a * b := by
  unfold checkedMul
  by_cases h : a * b < u64Bound <;> simp [h, eq_comm]

theorem and_complement64_eq_roundUp {value shift : Nat} (hshift : shift ≤ 64)
    (hfits : value + (2 ^ shift - 1) < u64Bound) :
    (value + (2 ^ shift - 1)) &&& complement64 (2 ^ shift - 1) = roundUp value (2 ^ shift) :=
  mask_add_eq_roundUp hshift hfits

/-- `align_up` to a power of two succeeds exactly when the sum fits, and then
it rounds up. -/
theorem alignUp_eq_ok_iff {value shift r : Nat} (hshift : shift ≤ 63) :
    alignUp value (2 ^ shift) = .ok r ↔
      value + (2 ^ shift - 1) < u64Bound ∧ r = roundUp value (2 ^ shift) := by
  have hvalid : ¬ (2 ^ shift = 0 ∨ ¬ (2 ^ shift).isPowerOfTwo) := by
    rintro (hzero | hpow)
    · exact absurd hzero (Nat.two_pow_pos shift).ne'
    · exact hpow ⟨shift, rfl⟩
  simp only [alignUp, bind_eq_ok_iff, rejectIf_eq_ok_iff, checkedAdd_eq_ok_iff, pure_eq_ok_iff]
  constructor
  · rintro ⟨-, -, sum, ⟨hfits, rfl⟩, rfl⟩
    exact ⟨hfits, and_complement64_eq_roundUp (by omega) hfits⟩
  · rintro ⟨hfits, rfl⟩
    exact ⟨(), hvalid, _, ⟨hfits, rfl⟩, and_complement64_eq_roundUp (by omega) hfits⟩

end VBuf.V06
