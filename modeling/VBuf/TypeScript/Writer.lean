import VBuf.TypeScript.Reader
import VBuf.V06.Writer

/-!
# The TypeScript writer

`VBufV06Writer` collects chunks and pads with `Number` arithmetic.  A call takes
the arguments of a `write_block` call; the checks that an argument is an integer
of its range stay where the types do not already make them.
-/

namespace VBuf.TypeScript

open VBuf.Lib VBuf.V06

/-- `VBufV06Writer`. -/
structure VBufV06Writer where
  chunks : List (List UInt8)
  baseShift : Nat
  baseStep : Nat
  dataRegionStart : Nat
  indefinite : Bool
  requiredContinuationKey : Option Nat
  blockCount : Nat

namespace VBufV06Writer

/-- The header chunk: the fields up to the header size, then the zeros of the
fresh array. -/
def headerChunk (baseShift dataRegionStart : Nat) (indefinite : Bool) : List UInt8 :=
  [0x56, 0x42, 0x55, 0x46] ++ leBytes 4 0x00060000 ++ leBytes 1 baseShift ++
    leBytes 1 (if indefinite then 1 else 0) ++ leBytes 2 24 ++
    List.replicate (dataRegionStart - 12) 0

/-- `new VBufV06Writer(baseShift, indefinite)`. -/
def construct (baseShift : Nat) (indefinite : Bool) : Except ValidationError VBufV06Writer := do
  rejectIf (baseShift < 3 ∨ 8 < baseShift) ⟨"invalid_base_shift", "BaseShift is outside 3..=8"⟩
  let baseStep := 2 ^ baseShift
  let dataRegionStart ← alignUp 24 baseStep
  pure
    { chunks := [headerChunk baseShift dataRegionStart indefinite]
      baseShift
      baseStep
      dataRegionStart
      indefinite
      requiredContinuationKey := none
      blockCount := 0 }

/-- `offset`. -/
def offset (w : VBufV06Writer) : Except ValidationError Nat :=
  let offset := (w.chunks.map List.length).sum
  if offset < safeBound then .ok offset
  else .error ⟨"arithmetic_overflow", "writer offset exceeds JavaScript exact integer range"⟩

/-- `this.chunks.push`. -/
def push (w : VBufV06Writer) (chunk : List UInt8) : VBufV06Writer :=
  { w with chunks := w.chunks ++ [chunk] }

/-- `padTo`. -/
def padTo (w : VBufV06Writer) (alignment : Nat) : Except ValidationError VBufV06Writer := do
  let offset ← w.offset
  let padding := (alignment - offset % alignment) % alignment
  pure (if padding ≠ 0 then w.push (List.replicate padding 0) else w)

/-- `validateRepresentation` of the writer. -/
def validateRepresentation (semantic physical width count : Nat) : Except ValidationError Unit :=
  rejectIf (¬ ((((semantic = 0 ∨ semantic = 2) ∧ width ∈ [8, 16, 32, 64]) ∨
        (semantic = 1 ∧ width ∈ [32, 64]) ∨ (semantic = 3 ∧ width = 8)) ∧
      ((physical = 0 ∧ count = 1) ∨ physical = 1)))
    ⟨"invalid_representation", "invalid semantic/physical/count/width combination"⟩

/-- The header chunk of a block; the anchor is the expression of
`AnchorFields.pack`. -/
def blockHeader (call : BlockWrite) : List UInt8 :=
  leBytes 8 (Writer.anchorFields call).pack ++
    if 65535 < call.count then leBytes 8 call.count else []

/-- The padding of `writeBlock` before any block but the first. -/
def padToBlockStart (w : VBufV06Writer) : Except ValidationError VBufV06Writer :=
  if 0 < w.blockCount then w.padTo w.baseStep else pure w

/-- `writeBlock`. -/
def writeBlock (w : VBufV06Writer) (call : BlockWrite) : Except ValidationError VBufV06Writer := do
  let keyId := call.options.keyId.toNat
  let payloadShift := call.options.payloadShift
  rejectIf (0xffff < keyId) ⟨"invalid_key", "KeyID is outside u16"⟩
  rejectIf (w.requiredContinuationKey.isSome ∧ w.requiredContinuationKey ≠ some keyId)
    ⟨"continuation_mismatch", "continued block has a different KeyID"⟩
  rejectIf (63 < w.baseShift + payloadShift)
    ⟨"invalid_payload_shift", "payload shift exceeds 63"⟩
  validateRepresentation call.semantic.code call.options.physical.code call.bitWidth call.count
  let payloadBits ← checkedMul call.count call.bitWidth
  let expected := payloadBits / 8 + (if payloadBits % 8 = 0 then 0 else 1)
  rejectIf (expected ≠ call.payload.length)
    ⟨"payload_length_mismatch", "payload length differs from count and width"⟩
  let payloadAlignment := 2 ^ (w.baseShift + payloadShift)
  rejectIf (safeBound ≤ payloadAlignment)
    ⟨"arithmetic_overflow", "payload alignment exceeds JavaScript exact integer range"⟩
  let w ← w.padToBlockStart
  let w ← (w.push (blockHeader call)).padTo payloadAlignment
  let w := w.push call.payload
  pure
    { w with
      blockCount := w.blockCount + 1
      requiredContinuationKey := if call.options.continuation then some keyId else none }

/-- `finish`. -/
def finish (w : VBufV06Writer) : Except ValidationError (List UInt8) := do
  rejectIf w.requiredContinuationKey.isSome
    ⟨"unterminated_continuation", "final block has Continuation set"⟩
  let length ← w.offset
  let output := w.chunks.flatten
  pure (if w.indefinite then output else patch output 16 (leBytes 8 (length - w.dataRegionStart)))

/-- A sequence of `writeBlock` calls that stops at the first error. -/
def writeBlocks (w : VBufV06Writer) : List BlockWrite → Except ValidationError VBufV06Writer
  | [] => .ok w
  | call :: rest => do
      let w ← w.writeBlock call
      w.writeBlocks rest

/-- Construct, write the blocks, finish. -/
def writeStream (baseShift : Nat) (indefinite : Bool) (calls : List BlockWrite) :
    Except ValidationError (List UInt8) := do
  let w ← construct baseShift indefinite
  let w ← w.writeBlocks calls
  w.finish

end VBufV06Writer

end VBuf.TypeScript
