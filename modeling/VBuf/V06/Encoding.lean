import VBuf.V06.Grammar
import VBuf.V06.Writer

/-!
# The canonical encoding

What a sequence of block writes means, without a sink: `encodeStream` is the
byte string, `Encodable` the condition under which every position in it is a
`u64`, and `layoutBlocks` the descriptors at the positions the encoding puts
them.  The writer is related to this encoding, and the encoding to the grammar.
-/

namespace VBuf.V06

open VBuf.Lib

namespace BlockWrite

/-- The anchor, and the count in its extended form. -/
def headerBytes (call : BlockWrite) : List UInt8 :=
  leBytes 8 (Writer.anchorFields call).pack ++
    if 65535 < call.count then leBytes 8 call.count else []

/-- The shift of the payload alignment. -/
def combinedShift (baseShift : Nat) (call : BlockWrite) : Nat :=
  baseShift + call.options.payloadShift

/-- Where the header of a block ends that starts at `start`. -/
def headerEnd (start : Nat) (call : BlockWrite) : Nat := start + call.headerBytes.length

def payloadStart (baseShift start : Nat) (call : BlockWrite) : Nat :=
  roundUp (call.headerEnd start) (2 ^ call.combinedShift baseShift)

def payloadEnd (baseShift start : Nat) (call : BlockWrite) : Nat :=
  call.payloadStart baseShift start + call.payload.length

/-- The header and the zero padding before the payload. -/
def paddedHeader (baseShift start : Nat) (call : BlockWrite) : List UInt8 :=
  call.headerBytes ++ List.replicate (call.payloadStart baseShift start - call.headerEnd start) 0

/-- The key that the next block must have. -/
def continuationKey (call : BlockWrite) : Option UInt16 :=
  if call.options.continuation then some call.options.keyId else none

/-- A call that the writer's own checks let through, whatever its position. -/
structure Valid (baseShift : Nat) (call : BlockWrite) : Prop where
  legalWidth : call.semantic.LegalWidth call.bitWidth
  legalCount : call.options.physical.LegalCount call.count
  combinedShift_le : call.combinedShift baseShift ≤ 63
  payloadBits_lt : call.count * call.bitWidth < u64Bound
  payload_ge : call.count * call.bitWidth ≤ 8 * call.payload.length
  payload_lt : 8 * call.payload.length < call.count * call.bitWidth + 8

/-- The positions of a block that is written at or after `position`. -/
structure FitsAt (baseShift position : Nat) (call : BlockWrite) : Prop where
  start_fits : position + (2 ^ baseShift - 1) < u64Bound
  payload_fits : call.headerEnd (roundUp position (2 ^ baseShift)) +
    (2 ^ call.combinedShift baseShift - 1) < u64Bound

/-- The descriptor of a block that starts at `start`. -/
def block (baseShift start : Nat) (call : BlockWrite) : Block where
  blockStart := start
  payloadStart := call.payloadStart baseShift start
  payloadLen := call.payload.length
  payloadEnd := call.payloadEnd baseShift start
  nextBlockStart := roundUp (call.payloadEnd baseShift start) (2 ^ baseShift)
  keyId := call.options.keyId
  semantic := call.semantic
  physical := call.options.physical
  continuation := call.options.continuation
  bitWidth := call.bitWidth
  count := call.count
  payloadAlignment := 2 ^ call.combinedShift baseShift

end BlockWrite

/-- The blocks of a stream from `position` on, each with the zero gap before it. -/
def encodeBlocks (baseShift : Nat) : Nat → List BlockWrite → List UInt8
  | _, [] => []
  | position, call :: rest =>
      let start := roundUp position (2 ^ baseShift)
      List.replicate (start - position) 0 ++ (call.paddedHeader baseShift start ++ call.payload) ++
        encodeBlocks baseShift (call.payloadEnd baseShift start) rest

/-- The descriptors of these blocks. -/
def layoutBlocks (baseShift : Nat) : Nat → List BlockWrite → List Block
  | _, [] => []
  | position, call :: rest =>
      let start := roundUp position (2 ^ baseShift)
      call.block baseShift start :: layoutBlocks baseShift (call.payloadEnd baseShift start) rest

/-- Where the blocks end. -/
def blocksEnd (baseShift : Nat) : Nat → List BlockWrite → Nat
  | position, [] => position
  | position, call :: rest =>
      blocksEnd baseShift (call.payloadEnd baseShift (roundUp position (2 ^ baseShift))) rest

/-- The calls are valid in order, obey the continuation rule from `required` on
and end every chain, and every position is a `u64`. -/
def Encodable (baseShift : Nat) : Option UInt16 → Nat → List BlockWrite → Prop
  | required, _, [] => required = none
  | required, position, call :: rest =>
      call.Valid baseShift ∧ (∀ key, required = some key → call.options.keyId = key) ∧
        call.FitsAt baseShift position ∧
        Encodable baseShift call.continuationKey
          (call.payloadEnd baseShift (roundUp position (2 ^ baseShift))) rest

/-- The end of the header and of its padding. -/
def dataStart (baseShift : Nat) : Nat := roundUp 24 (2 ^ baseShift)

/-- The global header with its size field. -/
def encodeHeader (baseShift : Nat) (mode : StreamMode) (dataSize : Nat) : List UInt8 :=
  magic ++ leBytes 4 version ++ leBytes 1 baseShift ++
    leBytes 1 (if mode = .indefinite then 1 else 0) ++ leBytes 2 24 ++ leBytes 4 0 ++
    leBytes 8 (if mode = .indefinite then 0 else dataSize)

/-- A whole stream. -/
def encodeStream (baseShift : Nat) (mode : StreamMode) (calls : List BlockWrite) : List UInt8 :=
  encodeHeader baseShift mode (blocksEnd baseShift (dataStart baseShift) calls - dataStart baseShift) ++
    List.replicate (dataStart baseShift - 24) 0 ++ encodeBlocks baseShift (dataStart baseShift) calls

@[simp] theorem encodeHeader_length (baseShift : Nat) (mode : StreamMode) (dataSize : Nat) :
    (encodeHeader baseShift mode dataSize).length = 24 := by
  simp [encodeHeader, magic]

namespace BlockWrite

theorem headerBytes_length (call : BlockWrite) :
    call.headerBytes.length = if 65535 < call.count then 16 else 8 := by
  unfold headerBytes
  split <;> simp

theorem headerEnd_le_payloadStart (baseShift start : Nat) (call : BlockWrite) :
    call.headerEnd start ≤ call.payloadStart baseShift start :=
  le_roundUp (Nat.two_pow_pos _)

theorem lt_payloadEnd (baseShift start : Nat) (call : BlockWrite) :
    start + 8 ≤ call.payloadEnd baseShift start := by
  have hstart := call.headerEnd_le_payloadStart baseShift start
  have hlen := call.headerBytes_length
  unfold headerEnd at hstart
  unfold payloadEnd
  split at hlen <;> omega

/-- A block's bytes fill the positions from its start to its payload end. -/
theorem encoded_length (baseShift start : Nat) (call : BlockWrite) :
    (call.paddedHeader baseShift start ++ call.payload).length =
      call.payloadEnd baseShift start - start := by
  have hstart := call.headerEnd_le_payloadStart baseShift start
  unfold headerEnd at hstart
  simp only [paddedHeader, payloadEnd, headerEnd, List.length_append, List.length_replicate]
  omega

end BlockWrite

theorem blocksEnd_eq (baseShift position : Nat) (calls : List BlockWrite) :
    blocksEnd baseShift position calls =
      position + (encodeBlocks baseShift position calls).length := by
  induction calls generalizing position with
  | nil => rfl
  | cons call rest ih =>
      have hround := @le_roundUp position _ (Nat.two_pow_pos baseShift)
      have hend := call.lt_payloadEnd baseShift (roundUp position (2 ^ baseShift))
      rw [blocksEnd, ih, encodeBlocks, List.length_append, List.length_append,
        BlockWrite.encoded_length, List.length_replicate]
      omega

theorem dataStart_ge (baseShift : Nat) : 24 ≤ dataStart baseShift :=
  le_roundUp (Nat.two_pow_pos baseShift)

theorem encodeStream_length (baseShift : Nat) (mode : StreamMode) (calls : List BlockWrite) :
    (encodeStream baseShift mode calls).length =
      blocksEnd baseShift (dataStart baseShift) calls := by
  have hstart := dataStart_ge baseShift
  rw [blocksEnd_eq, encodeStream, List.length_append, List.length_append, encodeHeader_length,
    List.length_replicate]
  omega

end VBuf.V06
