import VBuf.V06.Anchor

/-!
# The v0.6 reader

`parseV06` in the order of the source: the fixed header, the extension records,
the data-region bounds, then the block loop.  Every rejection keeps its code,
offset and text.  The host is 64-bit, so `to_usize` is the identity on the `u64`
quantities used here.

The two `while` loops are structural in a fuel argument.  Each iteration moves
its cursor forward by at least eight bytes, so the byte count is enough fuel
(`extensionLoop_fuel_irrelevant`, `blockLoop_fuel_irrelevant`).
-/

namespace VBuf.V06

open VBuf.Lib

/-- The common body of `read_u16`, `read_u32` and `read_u64`. -/
def readLe (width : Nat) (detail : String) (bytes : List UInt8) (offset : Nat) :
    Except Error Nat :=
  match range? bytes offset (offset + width) with
  | some raw => .ok (ofLeBytes raw)
  | none => .error (Error.at .tooShort offset detail)

def readU16 : List UInt8 → Nat → Except Error Nat := readLe 2 "truncated u16"

def readU32 : List UInt8 → Nat → Except Error Nat := readLe 4 "truncated u32"

def readU64 : List UInt8 → Nat → Except Error Nat := readLe 8 "truncated u64"

/-- `require_zero`: the range must lie inside the input and hold zero bytes. -/
def requireZero (bytes : List UInt8) (start stop : Nat) : Except Error Unit :=
  match range? bytes start stop with
  | none => .error (Error.at .lengthMismatch start "padding lies outside input")
  | some range =>
      match range.findIdx? (fun byte => byte != 0) with
      | none => .ok ()
      | some relative => do
          let offset ← checkedAdd start relative
          .error (Error.at .nonZeroPadding offset "non-zero canonical padding")

/-- The semantic match of `validate_representation`, with its width guards. -/
def semanticOfCode? (code bitWidth : Nat) : Option Semantic :=
  match code with
  | 0 => if bitWidth ∈ [8, 16, 32, 64] then some .unsigned else none
  | 1 => if bitWidth ∈ [32, 64] then some .float else none
  | 2 => if bitWidth ∈ [8, 16, 32, 64] then some .signed else none
  | 3 => if bitWidth = 8 then some .opaqueBytes else none
  | _ => none

/-- The physical match of `validate_representation`, with its count guard. -/
def physicalOfCode? (code count : Nat) : Option Physical :=
  match code with
  | 0 => if count = 1 then some .scalar else none
  | 1 => some .array
  | _ => none

/-- `validate_representation` of the reader. -/
def validateRepresentation (semantic physical bitWidth count offset : Nat) :
    Except Error (Semantic × Physical) := do
  let semantic ← okOr (semanticOfCode? semantic bitWidth)
    (Error.at .invalidRepresentation offset "invalid semantic/bit-width combination")
  let physical ← okOr (physicalOfCode? physical count)
    (Error.at .invalidRepresentation offset "invalid physical/count combination")
  pure (semantic, physical)

/-- One iteration of the extension loop: validate the record at `offset` and
return where it ends. -/
def extensionStep (bytes : List UInt8) (headerSize offset : Nat) : Except Error Nat := do
  let _extensionType ← readU16 bytes offset
  let extensionFlags ← readU16 bytes (offset + 2)
  let extensionSize ← readU32 bytes (offset + 4)
  rejectIf (extensionFlags &&& 0xfffe ≠ 0 ∨ extensionSize < 8 ∨ extensionSize % 8 ≠ 0)
    (Error.at .invalidExtension offset "invalid extension framing")
  let extensionEnd ← checkedAdd offset extensionSize
  rejectIf (headerSize < extensionEnd)
    (Error.at .invalidExtension offset "extension exceeds HeaderSize")
  rejectIf (extensionFlags &&& 1 ≠ 0)
    (Error.at .unknownRequiredExtension offset "unknown required extension")
  pure extensionEnd

/-- `while extension_offset < header_size`, returning the final offset. -/
def extensionLoop (bytes : List UInt8) (headerSize : Nat) : Nat → Nat → Except Error Nat
  | 0, offset => .ok offset
  | fuel + 1, offset =>
      if offset < headerSize then do
        let extensionEnd ← extensionStep bytes headerSize offset
        extensionLoop bytes headerSize fuel extensionEnd
      else .ok offset

/-- The binding of `data_region_end`. -/
def parseRegionEnd (bytes : List UInt8) (indefinite : Bool) (dataRegionStart declaredSize : Nat) :
    Except Error Nat :=
  if indefinite then pure bytes.length
  else do
    let regionEnd ← checkedAdd dataRegionStart declaredSize
    rejectIf (regionEnd ≠ bytes.length)
      (Error.global .lengthMismatch "known DataRegionSize does not equal physical input")
    pure regionEnd

/-- `parse_v06` up to the block loop. -/
def parseHeader (bytes : List UInt8) : Except Error Header := do
  rejectIf (bytes.length < minHeaderSize)
    (Error.global .tooShort "v0.6 header is shorter than 24 bytes")
  rejectIf (slice bytes 0 4 ≠ magic) (Error.global .badMagic "invalid vBuf magic")
  let fileVersion ← readU32 bytes 4
  rejectIf (fileVersion ≠ version)
    (Error.global .unsupportedVersion "unsupported vBuf version")
  let baseShift := (bytes.getD 8 0).toNat
  rejectIf (¬ (3 ≤ baseShift ∧ baseShift ≤ 8))
    (Error.global .invalidBaseShift "BaseShift is outside 3..=8")
  -- `checked_shl` fails from a shift of 64 on, which the range check excludes.
  let baseStep := 2 ^ baseShift
  let flags := (bytes.getD 9 0).toNat
  rejectIf (flags &&& 0xfe ≠ 0) (Error.global .invalidFlags "unknown v0.6 global flags")
  let indefinite := decide (flags &&& 1 ≠ 0)
  let headerSize ← readU16 bytes 10
  rejectIf (headerSize < minHeaderSize ∨ headerSize % 8 ≠ 0)
    (Error.global .invalidHeaderSize "invalid v0.6 HeaderSize")
  rejectIf (bytes.length < headerSize)
    (Error.global .tooShort "truncated extended global header")
  let reserved ← readU32 bytes 12
  rejectIf (reserved ≠ 0)
    (Error.global .invalidReserved "global reserved field is non-zero")
  let declaredSize ← readU64 bytes 16
  rejectIf (indefinite ∧ declaredSize ≠ 0)
    (Error.global .lengthMismatch "indefinite stream has non-zero DataRegionSize")
  let extensionEnd ← extensionLoop bytes headerSize headerSize minHeaderSize
  rejectIf (extensionEnd ≠ headerSize)
    (Error.global .invalidExtension "extensions do not fill HeaderSize")
  let dataRegionStart ← alignUp headerSize baseStep
  rejectIf (dataRegionStart % baseStep ≠ 0) (Error.global .misaligned "unaligned data region")
  rejectIf (u64Bound ≤ bytes.length)
    (Error.global .arithmeticOverflow "input length exceeds u64")
  rejectIf (bytes.length < dataRegionStart)
    (Error.global .tooShort "data-region start is outside input")
  requireZero bytes headerSize dataRegionStart
  let dataRegionEnd ← parseRegionEnd bytes indefinite dataRegionStart declaredSize
  pure
    { baseShift
      baseStep
      indefinite
      headerSize
      dataRegionStart
      dataRegionSize := dataRegionEnd - dataRegionStart
      dataRegionEnd }

/-- The count of a block and the size of its header. -/
def parseCount (bytes : List UInt8) (dataRegionEnd blockStart : Nat) (fields : AnchorFields) :
    Except Error (Nat × Nat) :=
  if fields.count64 then do
    let extendedEnd ← checkedAdd blockStart 16
    rejectIf (dataRegionEnd < extendedEnd)
      (Error.at .truncatedBlock blockStart "truncated extended count")
    rejectIf (fields.inlineCount ≠ 0)
      (Error.at .nonCanonicalCount blockStart "extended count has non-zero inline count")
    let countOffset ← checkedAdd blockStart 8
    let count ← readU64 bytes countOffset
    rejectIf (count ≤ 65535)
      (Error.at .nonCanonicalCount blockStart "small count uses extended form")
    pure (count, 16)
  else pure (fields.inlineCount, 8)

/-- The loop body of `parse_v06` up to the `blocks.push` and the check that a
final block does not continue. -/
def parseBlock (bytes : List UInt8) (header : Header) (blockStart : Nat)
    (requiredContinuationKey : Option UInt16) : Except Error Block := do
  rejectIf (blockStart % header.baseStep ≠ 0 ∨
      (blockStart - header.dataRegionStart) % header.baseStep ≠ 0)
    (Error.at .misaligned blockStart "unaligned canonical block start")
  let anchorEnd ← checkedAdd blockStart 8
  rejectIf (header.dataRegionEnd < anchorEnd)
    (Error.at .truncatedBlock blockStart "truncated block anchor")
  let anchor ← readU64 bytes blockStart
  rejectIf (anchor = 0) (Error.at .invalidAnchor blockStart "zero block anchor")
  let fields := AnchorFields.unpack anchor
  let keyId := UInt16.ofNat fields.keyId
  rejectIf (requiredContinuationKey.isSome ∧ requiredContinuationKey ≠ some keyId)
    (Error.at .invalidContinuation blockStart
      "continued block does not match the preceding KeyID")
  let (count, blockHeaderSize) ← parseCount bytes header.dataRegionEnd blockStart fields
  let (semantic, physical) ← validateRepresentation fields.semanticCode fields.physicalCode
    fields.bitWidth count blockStart
  let combinedShift := header.baseShift + fields.payloadShift
  rejectIf (63 < combinedShift)
    (Error.at .misaligned blockStart "payload alignment shift exceeds 63")
  let payloadAlignment := 2 ^ combinedShift
  rejectIf (payloadAlignment < header.baseStep ∨ payloadAlignment % header.baseStep ≠ 0)
    (Error.at .misaligned blockStart "payload alignment contradicts BaseStep")
  let headerEnd ← checkedAdd blockStart blockHeaderSize
  let payloadStart ← alignUp headerEnd payloadAlignment
  requireZero bytes headerEnd payloadStart
  let payloadBits ← checkedMul count fields.bitWidth
  let payloadLen := payloadBits / 8 + (if payloadBits % 8 ≠ 0 then 1 else 0)
  let payloadEnd ← checkedAdd payloadStart payloadLen
  rejectIf (header.dataRegionEnd < payloadEnd)
    (Error.at .truncatedBlock blockStart "declared payload exceeds data region")
  rejectIf (payloadStart % header.baseStep ≠ 0 ∨ payloadStart % payloadAlignment ≠ 0)
    (Error.at .misaligned payloadStart "payload is misaligned")
  let nextBlockStart ← alignUp payloadEnd header.baseStep
  rejectIf (fields.continuation ∧
      (payloadEnd = header.dataRegionEnd ∨ header.dataRegionEnd ≤ nextBlockStart))
    (Error.at .invalidContinuation blockStart "final physical block cannot continue")
  pure
    { blockStart
      payloadStart
      payloadLen
      payloadEnd
      nextBlockStart
      keyId
      semantic
      physical
      continuation := fields.continuation
      bitWidth := fields.bitWidth
      count
      payloadAlignment }

/-- `while block_start < data_region_end`, returning the pushed blocks. -/
def blockLoop (bytes : List UInt8) (header : Header) :
    Nat → Nat → Option UInt16 → Except Error (List Block)
  | 0, _, _ => .ok []
  | fuel + 1, blockStart, requiredContinuationKey =>
      if blockStart < header.dataRegionEnd then do
        let block ← parseBlock bytes header blockStart requiredContinuationKey
        if block.payloadEnd = header.dataRegionEnd then pure [block]
        else do
          rejectIf (header.dataRegionEnd ≤ block.nextBlockStart)
            (Error.at .lengthMismatch block.payloadEnd "final tail padding is not canonical")
          requireZero bytes block.payloadEnd block.nextBlockStart
          let rest ← blockLoop bytes header fuel block.nextBlockStart block.continuationKey
          pure (block :: rest)
      else .ok []

/-- `ValidatedV06`. -/
structure Validated where
  bytes : List UInt8
  header : Header
  blocks : List Block
  deriving DecidableEq, Repr

/-- `parse_v06`. -/
def parseV06 (bytes : List UInt8) : Except Error Validated := do
  let header ← parseHeader bytes
  let blocks ← blockLoop bytes header bytes.length header.dataRegionStart none
  pure { bytes, header, blocks }

end VBuf.V06
