import Mathlib.Data.Nat.Bitwise
import VBuf.V06.Anchor

/-!
# The TypeScript reader

The constructor of `VBufV06` in the order of the source.  Its `BigInt` values
are never negative, so they are natural numbers, and `x & ~m` is the bitwise
difference.  Positions that leave as `Number` pass `toSafeNumber` first.
-/

namespace VBuf.TypeScript

open VBuf.Lib VBuf.V06

/-- What the constructor throws: a `V06ValidationError`, or the `RangeError` of
a `DataView` access. -/
structure ValidationError where
  code : String
  message : String
  deriving DecidableEq, Repr

/-- One past `Number.MAX_SAFE_INTEGER`. -/
def safeBound : Nat := 2 ^ 53

/-- `V06Block`. -/
structure Block where
  blockStart : Nat
  payloadStart : Nat
  payloadLength : Nat
  payloadEnd : Nat
  nextBlockStart : Nat
  keyId : Nat
  semantic : Nat
  physical : Nat
  continuation : Bool
  bitWidth : Nat
  count : Nat
  payloadAlignment : Nat
  deriving DecidableEq, Repr

/-- `VBufV06`. -/
structure VBufV06 where
  mem : List UInt8
  baseShift : Nat
  baseStep : Nat
  indefinite : Bool
  headerSize : Nat
  dataRegionStart : Nat
  dataRegionSize : Nat
  validatedBlocks : List Block
  deriving DecidableEq, Repr

/-- `checkedAdd`; its operands are not negative. -/
def checkedAdd (a b : Nat) : Except ValidationError Nat :=
  if a + b < u64Bound then .ok (a + b)
  else .error ⟨"arithmetic_overflow", "u64 addition overflow"⟩

/-- `checkedMul`. -/
def checkedMul (a b : Nat) : Except ValidationError Nat :=
  if a * b < u64Bound then .ok (a * b)
  else .error ⟨"arithmetic_overflow", "u64 multiplication overflow"⟩

/-- `alignUp`. -/
def alignUp (value alignment : Nat) : Except ValidationError Nat := do
  rejectIf (alignment = 0 ∨ alignment &&& (alignment - 1) ≠ 0) ⟨"misaligned", "invalid alignment"⟩
  let sum ← checkedAdd value (alignment - 1)
  pure (Nat.ldiff sum (alignment - 1))

/-- `DataView` access, little-endian. -/
def getUint (width : Nat) (mem : List UInt8) (offset : Nat) : Except ValidationError Nat :=
  match range? mem offset (offset + width) with
  | some raw => .ok (ofLeBytes raw)
  | none => .error ⟨"RangeError", "Offset is outside the bounds of the DataView"⟩

/-- `toSafeNumber`: a `BigInt` from `2 ^ 53` on rounds to an unsafe `Number`. -/
def toSafeNumber (value : Nat) : Except ValidationError Nat :=
  if value < safeBound then .ok value
  else .error ⟨"arithmetic_overflow", "offset exceeds JavaScript exact integer range"⟩

/-- `toIndex`. -/
def toIndex (mem : List UInt8) (value : Nat) : Except ValidationError Nat := do
  rejectIf (mem.length < value) ⟨"too_short", "offset lies outside input"⟩
  toSafeNumber value

/-- `requireRange`. -/
def requireRange (mem : List UInt8) (start stop : Nat) (message : String) :
    Except ValidationError Unit :=
  rejectIf (stop < start ∨ mem.length < stop) ⟨"too_short", message⟩

/-- `requireZero`. -/
def requireZero (mem : List UInt8) (start stop : Nat) : Except ValidationError Unit := do
  requireRange mem start stop "padding outside input"
  let first ← toIndex mem start
  let last ← toIndex mem stop
  rejectIf ((slice mem first (last - first)).any (fun byte => byte != 0) = true)
    ⟨"nonzero_padding", "non-zero canonical padding"⟩

/-- The semantic half of `validateRepresentation`. -/
def semanticValid (semantic width : Nat) : Bool :=
  decide ((semantic = 0 ∧ width ∈ [8, 16, 32, 64]) ∨ (semantic = 1 ∧ width ∈ [32, 64]) ∨
    (semantic = 2 ∧ width ∈ [8, 16, 32, 64]) ∨ (semantic = 3 ∧ width = 8))

/-- The physical half of `validateRepresentation`. -/
def physicalValid (physical count : Nat) : Bool :=
  decide ((physical = 0 ∧ count = 1) ∨ physical = 1)

/-- `validateRepresentation` of the reader. -/
def validateRepresentation (semantic physical width count : Nat) : Except ValidationError Unit := do
  rejectIf (semanticValid semantic width = false)
    ⟨"invalid_representation", "invalid semantic/width combination"⟩
  rejectIf (physicalValid physical count = false)
    ⟨"invalid_representation", "invalid physical/count combination"⟩

/-- One iteration of the extension loop. -/
def extensionStep (mem : List UInt8) (headerSize extensionOffset : Nat) :
    Except ValidationError Nat := do
  let offset ← toIndex mem extensionOffset
  let recordEnd ← checkedAdd extensionOffset 8
  requireRange mem extensionOffset recordEnd "truncated extension header"
  let extensionFlags ← getUint 2 mem (offset + 2)
  let extensionSize ← getUint 4 mem (offset + 4)
  -- `extensionFlags & ~1` on a 16-bit value.
  rejectIf (Nat.ldiff extensionFlags 1 ≠ 0 ∨ extensionSize < 8 ∨ extensionSize % 8 ≠ 0)
    ⟨"invalid_extension", "invalid extension framing"⟩
  let extensionEnd ← checkedAdd extensionOffset extensionSize
  rejectIf (headerSize < extensionEnd) ⟨"invalid_extension", "extension exceeds HeaderSize"⟩
  rejectIf (extensionFlags &&& 1 ≠ 0)
    ⟨"unknown_required_extension", "unknown required extension"⟩
  pure extensionEnd

/-- `while (extensionOffset < headerSizeBig)`; each record takes eight bytes or
more, so the header size is fuel enough. -/
def extensionLoop (mem : List UInt8) (headerSize : Nat) : Nat → Nat → Except ValidationError Unit
  | 0, _ => .ok ()
  | fuel + 1, extensionOffset =>
      if extensionOffset < headerSize then do
        let extensionEnd ← extensionStep mem headerSize extensionOffset
        extensionLoop mem headerSize fuel extensionEnd
      else .ok ()

/-- The binding of `dataEnd` with the check that follows it. -/
def parseDataEnd (mem : List UInt8) (indefinite : Bool) (dataStart declaredSize : Nat) :
    Except ValidationError Nat :=
  if indefinite then pure mem.length
  else do
    let dataEnd ← checkedAdd dataStart declaredSize
    rejectIf (dataEnd ≠ mem.length)
      ⟨"length_mismatch", "known DataRegionSize differs from input"⟩
    pure dataEnd

/-- The constructor before the block loop. -/
def parseHeader (mem : List UInt8) : Except ValidationError VBufV06 := do
  rejectIf (mem.length < 24) ⟨"too_short", "v0.6 header is shorter than 24 bytes"⟩
  rejectIf (mem.getD 0 0 ≠ 0x56 ∨ mem.getD 1 0 ≠ 0x42 ∨ mem.getD 2 0 ≠ 0x55 ∨ mem.getD 3 0 ≠ 0x46)
    ⟨"bad_magic", "invalid vBuf magic"⟩
  let fileVersion ← getUint 4 mem 4
  rejectIf (fileVersion ≠ 0x00060000) ⟨"unsupported_version", "unsupported vBuf version"⟩
  let baseShift := (mem.getD 8 0).toNat
  rejectIf (baseShift < 3 ∨ 8 < baseShift) ⟨"invalid_base_shift", "BaseShift is outside 3..=8"⟩
  let baseStep := 2 ^ baseShift
  let flags := (mem.getD 9 0).toNat
  rejectIf (Nat.ldiff flags 1 ≠ 0) ⟨"invalid_flags", "unknown global flags"⟩
  let indefinite := decide (flags &&& 1 ≠ 0)
  let headerSize ← getUint 2 mem 10
  rejectIf (headerSize < 24 ∨ headerSize % 8 ≠ 0) ⟨"invalid_header_size", "invalid HeaderSize"⟩
  rejectIf (mem.length < headerSize) ⟨"too_short", "truncated extended header"⟩
  let reserved ← getUint 4 mem 12
  rejectIf (reserved ≠ 0) ⟨"invalid_reserved", "reserved global field is non-zero"⟩
  let declaredSize ← getUint 8 mem 16
  rejectIf (indefinite ∧ declaredSize ≠ 0)
    ⟨"length_mismatch", "indefinite stream has non-zero size"⟩
  extensionLoop mem headerSize headerSize 24
  let dataStart ← alignUp headerSize baseStep
  requireRange mem headerSize dataStart "global padding is outside input"
  requireZero mem headerSize dataStart
  let dataRegionStart ← toIndex mem dataStart
  let dataEnd ← parseDataEnd mem indefinite dataStart declaredSize
  pure
    { mem
      baseShift
      baseStep
      indefinite
      headerSize
      dataRegionStart
      dataRegionSize := dataEnd - dataStart
      validatedBlocks := [] }

/-- The count of a block and the size of its header. -/
def parseCount (mem : List UInt8) (blockStart : Nat) (fields : AnchorFields) :
    Except ValidationError (Nat × Nat) :=
  if fields.count64 then do
    let extendedEnd ← checkedAdd blockStart 16
    requireRange mem blockStart extendedEnd "truncated extended count"
    rejectIf (fields.inlineCount ≠ 0) ⟨"noncanonical_count", "extended count has inline value"⟩
    let countOffset ← toIndex mem (blockStart + 8)
    let count ← getUint 8 mem countOffset
    rejectIf (count ≤ 65535) ⟨"noncanonical_count", "small count uses extended form"⟩
    pure (count, 16)
  else pure (fields.inlineCount, 8)

/-- The loop body up to the assignment of `requiredContinuationKey`.  The anchor
fields are the shift-and-mask expressions of `AnchorFields.unpack`. -/
def parseBlock (mem : List UInt8) (baseShift baseStep dataStart dataEnd blockStart : Nat)
    (requiredContinuationKey : Option Nat) : Except ValidationError Block := do
  rejectIf (blockStart % baseStep ≠ 0 ∨ (blockStart - dataStart) % baseStep ≠ 0)
    ⟨"misaligned", "unaligned block start"⟩
  let anchorEnd ← checkedAdd blockStart 8
  requireRange mem blockStart anchorEnd "truncated block anchor"
  let anchorOffset ← toIndex mem blockStart
  let anchor ← getUint 8 mem anchorOffset
  rejectIf (anchor = 0) ⟨"invalid_anchor", "zero block anchor"⟩
  let fields := AnchorFields.unpack anchor
  rejectIf (requiredContinuationKey.isSome ∧ requiredContinuationKey ≠ some fields.keyId)
    ⟨"invalid_continuation", "continued block does not match preceding KeyID"⟩
  let (count, blockHeaderSize) ← parseCount mem blockStart fields
  validateRepresentation fields.semanticCode fields.physicalCode fields.bitWidth count
  let combinedShift := baseShift + fields.payloadShift
  rejectIf (63 < combinedShift) ⟨"misaligned", "payload shift exceeds 63"⟩
  let payloadAlignment := 2 ^ combinedShift
  let headerEnd ← checkedAdd blockStart blockHeaderSize
  let payloadStart ← alignUp headerEnd payloadAlignment
  requireRange mem headerEnd payloadStart "payload padding is outside input"
  requireZero mem headerEnd payloadStart
  let payloadBits ← checkedMul count fields.bitWidth
  let payloadLength := payloadBits / 8 + (if payloadBits % 8 = 0 then 0 else 1)
  let payloadEnd ← checkedAdd payloadStart payloadLength
  rejectIf (dataEnd < payloadEnd) ⟨"truncated_block", "declared payload exceeds data region"⟩
  let nextBlockStart ← alignUp payloadEnd baseStep
  let blockStartIndex ← toIndex mem blockStart
  let payloadStartIndex ← toIndex mem payloadStart
  let payloadLengthIndex ← toIndex mem payloadLength
  let payloadEndIndex ← toIndex mem payloadEnd
  let nextBlockStartNumber ← toSafeNumber nextBlockStart
  rejectIf (fields.continuation ∧ (payloadEnd = dataEnd ∨ dataEnd ≤ nextBlockStart))
    ⟨"invalid_continuation", "final physical block cannot continue"⟩
  pure
    { blockStart := blockStartIndex
      payloadStart := payloadStartIndex
      payloadLength := payloadLengthIndex
      payloadEnd := payloadEndIndex
      nextBlockStart := nextBlockStartNumber
      keyId := fields.keyId
      semantic := fields.semanticCode
      physical := fields.physicalCode
      continuation := fields.continuation
      bitWidth := fields.bitWidth
      count
      payloadAlignment }

/-- `while (blockStart < dataEnd)`, returning the pushed blocks; the byte count
is fuel enough. -/
def blockLoop (mem : List UInt8) (baseShift baseStep dataStart dataEnd : Nat) :
    Nat → Nat → Option Nat → Except ValidationError (List Block)
  | 0, _, _ => .ok []
  | fuel + 1, blockStart, requiredContinuationKey =>
      if blockStart < dataEnd then do
        let block ← parseBlock mem baseShift baseStep dataStart dataEnd blockStart
          requiredContinuationKey
        if block.payloadEnd = dataEnd then pure [block]
        else do
          rejectIf (dataEnd ≤ block.nextBlockStart)
            ⟨"length_mismatch", "final tail padding is not canonical"⟩
          requireZero mem block.payloadEnd block.nextBlockStart
          let rest ← blockLoop mem baseShift baseStep dataStart dataEnd fuel block.nextBlockStart
            (if block.continuation then some block.keyId else none)
          pure (block :: rest)
      else .ok []

/-- `new VBufV06(mem)`. -/
def VBufV06.construct (mem : List UInt8) : Except ValidationError VBufV06 := do
  let instance_ ← parseHeader mem
  let dataStart := instance_.dataRegionStart
  let validatedBlocks ← blockLoop mem instance_.baseShift instance_.baseStep dataStart
    (dataStart + instance_.dataRegionSize) mem.length dataStart none
  pure { instance_ with validatedBlocks }

end VBuf.TypeScript
