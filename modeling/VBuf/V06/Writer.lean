import VBuf.Lib.ByteSink
import VBuf.V06.Anchor

/-!
# The v0.6 writer

`VBufV06Writer` as a state that survives errors: `writeBlock` returns the writer
together with its result, so that what a failed call leaves behind can be
stated.  The sink is a bounded byte vector; position queries and seeks on it do
not fail.
-/

namespace VBuf.V06

open VBuf.Lib

/-- The `std::io::Error` inside `WriterError::Io`: the sink's own, or one that
the writer makes with `Error::other`. -/
inductive IoError
  | sink
  | other (detail : String)
  deriving DecidableEq, Repr

/-- `WriterError`. -/
inductive WriterError
  | io (error : IoError)
  | invalidBaseShift
  | invalidPayloadShift
  | invalidRepresentation
  | arithmeticOverflow
  | payloadLengthMismatch
  | continuationMismatch
  | unterminatedContinuation
  | nonEmptySink
  deriving DecidableEq, Repr

/-- `StreamMode`. -/
inductive StreamMode
  | knownSize
  | indefinite
  deriving DecidableEq, Repr

/-- `BlockOptions`. -/
structure BlockOptions where
  keyId : UInt16
  physical : Physical
  continuation : Bool
  payloadShift : Nat
  deriving DecidableEq, Repr

/-- The arguments of one `write_block` call. -/
structure BlockWrite where
  options : BlockOptions
  semantic : Semantic
  bitWidth : Nat
  count : Nat
  payload : List UInt8
  deriving DecidableEq, Repr

/-- A `Write + Seek` with a `u64` cursor. -/
abbrev Sink := ByteSink u64Bound

/-- `VBufV06Writer`. -/
structure Writer where
  inner : Sink
  baseShift : Nat
  baseStep : Nat
  dataRegionStart : Nat
  mode : StreamMode
  blocksWritten : Nat
  requiredContinuationKey : Option UInt16

/-- A `&mut self` method. -/
abbrev WriterM := EStateM WriterError Writer

namespace Writer

/-- `checked_add` of the writer. -/
def checkedAdd (a b : Nat) : Except WriterError Nat :=
  if a + b < u64Bound then .ok (a + b) else .error .arithmeticOverflow

/-- `checked_mul` of the writer. -/
def checkedMul (a b : Nat) : Except WriterError Nat :=
  if a * b < u64Bound then .ok (a * b) else .error .arithmeticOverflow

/-- `align_up` of the writer. -/
def alignUp (value alignment : Nat) : Except WriterError Nat := do
  let sum ← checkedAdd value (alignment - 1)
  pure (sum &&& complement64 (alignment - 1))

/-- The semantic half of `validate_representation`. -/
def semanticValid (semantic : Semantic) (width : Nat) : Bool :=
  match semantic with
  | .unsigned | .signed => decide (width ∈ [8, 16, 32, 64])
  | .float => decide (width ∈ [32, 64])
  | .opaqueBytes => decide (width = 8)

/-- The physical half of `validate_representation`. -/
def physicalValid (physical : Physical) (count : Nat) : Bool :=
  match physical with
  | .scalar => decide (count = 1)
  | .array => true

/-- `validate_representation` of the writer. -/
def validateRepresentation (semantic : Semantic) (physical : Physical) (width count : Nat) :
    Except WriterError Unit :=
  if semanticValid semantic width && physicalValid physical count then .ok ()
  else .error .invalidRepresentation

/-- `write_zeros`: chunks of at most 4096 zero bytes. -/
def writeZeros (count : Nat) : EStateM Unit Sink Unit :=
  if _h : 0 < count then do
    let chunk := min count 4096
    ByteSink.writeAll (List.replicate chunk 0)
    writeZeros (count - chunk)
  else pure ()
termination_by count

/-- The writer with another sink state. -/
def withInner (w : Writer) (inner : Sink) : Writer := { w with inner }

/-- `self.inner` in a method: a sink failure is `WriterError::Io`. -/
def onInner (action : EStateM Unit Sink Unit) : WriterM Unit := fun w =>
  match action w.inner with
  | .ok () inner => .ok () (w.withInner inner)
  | .error () inner => .error (.io .sink) (w.withInner inner)

/-- The 24 header bytes that `new` writes; the size field stays zero. -/
def headerBytes (baseShift : Nat) (mode : StreamMode) : List UInt8 :=
  magic ++ leBytes 4 version ++ leBytes 1 baseShift ++
    leBytes 1 (if mode = .indefinite then 1 else 0) ++ leBytes 2 24 ++ List.replicate 12 0

/-- `VBufV06Writer::new`. -/
def new (inner : Sink) (baseShift : Nat) (mode : StreamMode) : Except WriterError Writer := do
  rejectIf (¬ (3 ≤ baseShift ∧ baseShift ≤ 8)) .invalidBaseShift
  let baseStep := 2 ^ baseShift
  let dataRegionStart ← alignUp 24 baseStep
  let initialPosition := inner.streamPosition
  let inner := inner.seekEnd
  let existingLength := inner.streamPosition
  rejectIf (initialPosition ≠ 0 ∨ existingLength ≠ 0) .nonEmptySink
  let inner := inner.seekStart 0
  let writeHeader : EStateM Unit Sink Unit := do
    ByteSink.writeAll (headerBytes baseShift mode)
    writeZeros (dataRegionStart - 24)
  match writeHeader inner with
  | .error () _ => .error (.io .sink)
  | .ok () inner =>
      .ok
        { inner
          baseShift
          baseStep
          dataRegionStart
          mode
          blocksWritten := 0
          requiredContinuationKey := none }

/-- The checks of `write_block` before it touches the sink. -/
def checkBlock (w : Writer) (call : BlockWrite) : Except WriterError Unit := do
  validateRepresentation call.semantic call.options.physical call.bitWidth call.count
  rejectIf (w.requiredContinuationKey.isSome ∧
      w.requiredContinuationKey ≠ some call.options.keyId) .continuationMismatch
  rejectIf (63 < w.baseShift + call.options.payloadShift) .invalidPayloadShift
  let payloadBits ← checkedMul call.count call.bitWidth
  let expectedPayload := payloadBits / 8 + (if payloadBits % 8 ≠ 0 then 1 else 0)
  rejectIf (expectedPayload ≠ call.payload.length) .payloadLengthMismatch

/-- `write_block` before the first anchor check: the first block goes to the
start of the data region, a later one to the next multiple of `base_step`. -/
def padToBlockStart : WriterM Unit := do
  let w ← get
  let position := w.inner.streamPosition
  if w.blocksWritten = 0 then
    liftResult (rejectIf (position ≠ w.dataRegionStart)
      (.io (.other "unexpected first block offset")))
  else do
    let blockStart ← liftResult (alignUp position w.baseStep)
    onInner (writeZeros (blockStart - position))

/-- `write_block` up to the anchor.  The local `position` of the source is the
cursor after the padding. -/
def seekBlockStart : WriterM Unit := do
  padToBlockStart
  let w ← get
  liftResult (rejectIf (w.inner.streamPosition % w.baseStep ≠ 0)
    (.io (.other "unaligned block start")))

/-- The fields of the anchor that `write_block` packs. -/
def anchorFields (call : BlockWrite) : AnchorFields where
  semanticCode := call.semantic.code
  physicalCode := call.options.physical.code
  continuation := call.options.continuation
  count64 := decide (65535 < call.count)
  payloadShift := call.options.payloadShift
  keyId := call.options.keyId.toNat
  bitWidth := call.bitWidth
  inlineCount := if 65535 < call.count then 0 else call.count

/-- The anchor of `write_block`, and its count in the extended form. -/
def emitHeader (call : BlockWrite) : WriterM Unit := do
  onInner (ByteSink.writeAll (leBytes 8 (anchorFields call).pack))
  if 65535 < call.count then
    onInner (ByteSink.writeAll (leBytes 8 call.count))

/-- `write_block` after the header: padding, payload, the writer's own fields. -/
def emitPayload (call : BlockWrite) : WriterM Unit := do
  let w ← get
  let headerEnd := w.inner.streamPosition
  let payloadAlignment := 2 ^ (w.baseShift + call.options.payloadShift)
  let payloadStart ← liftResult (alignUp headerEnd payloadAlignment)
  onInner (writeZeros (payloadStart - headerEnd))
  onInner (ByteSink.writeAll call.payload)
  let w ← get
  let blocksWritten ← liftResult (checkedAdd w.blocksWritten 1)
  set
    { w with
      blocksWritten
      requiredContinuationKey :=
        if call.options.continuation then some call.options.keyId else none }

/-- `VBufV06Writer::write_block`. -/
def writeBlock (call : BlockWrite) : WriterM Unit := do
  let w ← get
  liftResult (checkBlock w call)
  seekBlockStart
  emitHeader call
  emitPayload call

/-- `VBufV06Writer::finish`; the flush has no effect on the bytes. -/
def finish (w : Writer) : Except WriterError Sink := do
  rejectIf w.requiredContinuationKey.isSome .unterminatedContinuation
  let stop := w.inner.streamPosition
  if w.mode = .knownSize then do
    rejectIf (stop < w.dataRegionStart) .arithmeticOverflow
    let dataSize := stop - w.dataRegionStart
    match ByteSink.writeAll (leBytes 8 dataSize) (w.inner.seekStart 16) with
    | .error () _ => .error (.io .sink)
    | .ok () inner => pure (inner.seekStart stop)
  else pure w.inner

/-- A sequence of `write_block` calls that stops at the first error. -/
def writeBlocks : List BlockWrite → WriterM Unit
  | [] => pure ()
  | call :: rest => do
      writeBlock call
      writeBlocks rest

/-- Open a writer, write the blocks, finish; the first error ends the run. -/
def writeStream (inner : Sink) (baseShift : Nat) (mode : StreamMode) (calls : List BlockWrite) :
    Except WriterError Sink := do
  let w ← new inner baseShift mode
  match writeBlocks calls w with
  | .error e _ => .error e
  | .ok () w => finish w

end Writer

end VBuf.V06
