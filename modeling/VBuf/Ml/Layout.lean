import Mathlib.Data.List.Sort
import VBuf.V06.Writer

/-!
# The placement planner

`LayoutPlan.buildLengths` chooses block order and positions from payload lengths
alone; `write` sends the blocks through the canonical writer and compares every
position with the plan.  Where the source adds without a check, the sum wraps at
`2 ^ 64`.
-/

namespace VBuf.Ml

open VBuf.Lib VBuf.V06

/-- `LayoutClass`; the constructor order is the placement order. -/
inductive LayoutClass
  | bootstrap
  | modelMetadata
  | tensorDirectory
  | tokenizerControl
  | tokenizerPayload
  | tensorPayload
  | auxiliary
  deriving DecidableEq, Repr

/-- `class as u8`. -/
def LayoutClass.rank : LayoutClass → Nat
  | .bootstrap => 0
  | .modelMetadata => 1
  | .tensorDirectory => 2
  | .tokenizerControl => 3
  | .tokenizerPayload => 4
  | .tensorPayload => 5
  | .auxiliary => 6

/-- `PlacementLengthRequest`. -/
structure PlacementLengthRequest where
  layoutClass : LayoutClass
  order : Nat
  keyId : UInt16
  semantic : Semantic
  physical : Physical
  bitWidth : Nat
  count : Nat
  payloadAlignment : Nat
  payloadLen : Nat
  deriving DecidableEq, Repr

/-- `PlacementRequest`. -/
structure PlacementRequest where
  layoutClass : LayoutClass
  order : Nat
  keyId : UInt16
  semantic : Semantic
  physical : Physical
  bitWidth : Nat
  count : Nat
  payloadAlignment : Nat
  payload : List UInt8
  deriving DecidableEq, Repr

/-- The planning half of a request. -/
def PlacementRequest.lengthRequest (request : PlacementRequest) : PlacementLengthRequest where
  layoutClass := request.layoutClass
  order := request.order
  keyId := request.keyId
  semantic := request.semantic
  physical := request.physical
  bitWidth := request.bitWidth
  count := request.count
  payloadAlignment := request.payloadAlignment
  payloadLen := request.payload.length

/-- `PlannedBlock`. -/
structure PlannedBlock where
  requestIndex : Nat
  keyId : UInt16
  occurrence : Nat
  payloadShift : Nat
  blockStart : Nat
  payloadStart : Nat
  payloadEnd : Nat
  blockPadding : Nat
  innerPadding : Nat
  deriving DecidableEq, Repr

/-- `LayoutError`; a writer error keeps its value instead of its text. -/
inductive LayoutError
  | invalidBaseShift
  | invalidPayloadAlignment
  | alignmentExceedsEncoding
  | duplicateOrder
  | keyOccurrenceOverflow
  | writer (detail : String)
  | ofWriter (error : WriterError)
  deriving DecidableEq, Repr

/-- `a + b` on `u64` without a check. -/
def wrappingAdd (a b : Nat) : Nat := (a + b) % u64Bound

/-- `a - b` on `u64` without a check. -/
def wrappingSub (a b : Nat) : Nat := (a + (u64Bound - b)) % u64Bound

/-- `(value + alignment - 1) & !(alignment - 1)`; the addition comes first. -/
def wrappingAlignUp (value alignment : Nat) : Nat :=
  wrappingSub (wrappingAdd value alignment) 1 &&& complement64 (wrappingSub alignment 1)

/-- `checked_add(..).ok_or(LayoutError::Writer(detail))`. -/
def layoutAdd (a b : Nat) (detail : String) : Except LayoutError Nat :=
  if a + b < u64Bound then .ok (a + b) else .error (.writer detail)

/-- `trailing_zeros` of a `u64`: the lowest set bit. -/
def trailingZeros (value : Nat) : Nat :=
  ((List.range 64).find? (fun bit => value.testBit bit)).getD 64

/-- `payload_shift`. -/
def payloadShift (baseShift requestedAlignment : Nat) : Except LayoutError Nat := do
  rejectIf (¬ (3 ≤ baseShift ∧ baseShift ≤ 8)) .invalidBaseShift
  let baseStep := 2 ^ baseShift
  rejectIf (requestedAlignment < baseStep ∨ ¬ requestedAlignment.isPowerOfTwo ∨
    requestedAlignment % baseStep ≠ 0) .invalidPayloadAlignment
  let shift := trailingZeros requestedAlignment - baseShift
  rejectIf (63 < baseShift + shift) .alignmentExceedsEncoding
  pure shift

/-- `LayoutPlan`. -/
structure LayoutPlan where
  entries : List PlannedBlock
  dataRegionStart : Nat
  finalSize : Nat
  payloadBytes : Nat
  headerBytes : Nat
  paddingBytes : Nat
  deriving DecidableEq, Repr

namespace LayoutPlan

/-- The loop variables of `build_lengths`. -/
structure Cursor where
  cursor : Nat
  occurrences : UInt16 → Nat
  payloadBytes : Nat
  headerBytes : Nat

/-- The sort key of `build_lengths`. -/
def SortsBefore (a b : PlacementLengthRequest × Nat) : Prop :=
  a.1.layoutClass.rank < b.1.layoutClass.rank ∨
    a.1.layoutClass.rank = b.1.layoutClass.rank ∧ a.1.order ≤ b.1.order

instance : DecidableRel SortsBefore :=
  fun a b => inferInstanceAs (Decidable (a.1.layoutClass.rank < b.1.layoutClass.rank ∨
    a.1.layoutClass.rank = b.1.layoutClass.rank ∧ a.1.order ≤ b.1.order))

/-- The requests with their indices, in placement order. -/
def sorted (requests : List PlacementLengthRequest) : List (PlacementLengthRequest × Nat) :=
  requests.zipIdx.insertionSort SortsBefore

/-- One iteration of the placement loop. -/
def planBlock (baseShift : Nat) (request : PlacementLengthRequest) (requestIndex : Nat)
    (state : Cursor) : Except LayoutError (PlannedBlock × Cursor) := do
  let baseStep := 2 ^ baseShift
  let shift ← payloadShift baseShift request.payloadAlignment
  let occurrence := state.occurrences request.keyId
  rejectIf (65535 < occurrence) .keyOccurrenceOverflow
  let blockStart := wrappingAlignUp state.cursor baseStep
  let blockPadding := wrappingSub blockStart state.cursor
  let headerBytesForBlock := if 65535 < request.count then 16 else 8
  let headerEnd ← layoutAdd blockStart headerBytesForBlock "layout overflow"
  -- `checked_shl` fails from a shift of 64 on, which `payloadShift` excludes.
  let alignment := 2 ^ (baseShift + shift)
  let payloadStart := wrappingAlignUp headerEnd alignment
  let innerPadding := wrappingSub payloadStart headerEnd
  let payloadEnd ← layoutAdd payloadStart request.payloadLen "layout payload overflow"
  let payloadBytes ← layoutAdd state.payloadBytes request.payloadLen "layout payload overflow"
  pure
    ({ requestIndex
       keyId := request.keyId
       occurrence
       payloadShift := shift
       blockStart
       payloadStart
       payloadEnd
       blockPadding
       innerPadding },
     { cursor := payloadEnd
       occurrences := fun key =>
         if key = request.keyId then occurrence + 1 else state.occurrences key
       payloadBytes
       headerBytes := wrappingAdd state.headerBytes headerBytesForBlock })

/-- The placement loop. -/
def planBlocks (baseShift : Nat) :
    List (PlacementLengthRequest × Nat) → Cursor → Except LayoutError (List PlannedBlock × Cursor)
  | [], state => .ok ([], state)
  | (request, requestIndex) :: rest, state => do
      let (entry, state) ← planBlock baseShift request requestIndex state
      let (entries, state) ← planBlocks baseShift rest state
      pure (entry :: entries, state)

/-- `LayoutPlan::build_lengths`. -/
def buildLengths (requests : List PlacementLengthRequest) (baseShift : Nat) :
    Except LayoutError LayoutPlan := do
  rejectIf (¬ (3 ≤ baseShift ∧ baseShift ≤ 8)) .invalidBaseShift
  rejectIf (¬ (requests.map (fun request => request.order)).Nodup) .duplicateOrder
  let dataRegionStart := wrappingAlignUp 24 (2 ^ baseShift)
  let (entries, state) ← planBlocks baseShift (sorted requests)
    { cursor := dataRegionStart, occurrences := fun _ => 0, payloadBytes := 0, headerBytes := 0 }
  let finalSize := state.cursor
  pure
    { entries
      dataRegionStart
      finalSize
      payloadBytes := state.payloadBytes
      headerBytes := state.headerBytes
      paddingBytes := wrappingSub (wrappingSub (wrappingSub finalSize 24) state.payloadBytes)
        state.headerBytes }

/-- The operands of the additions that one iteration does without a check. -/
def uncheckedSums (baseShift : Nat) (request : PlacementLengthRequest) (entry : PlannedBlock)
    (state : Cursor) : List (Nat × Nat) :=
  let headerBytesForBlock := if 65535 < request.count then 16 else 8
  [(state.cursor, 2 ^ baseShift),
    (entry.blockStart + headerBytesForBlock, 2 ^ (baseShift + entry.payloadShift)),
    (state.headerBytes, headerBytesForBlock)]

/-- Those of the placement loop, up to the iteration that fails. -/
def loopSums (baseShift : Nat) : List (PlacementLengthRequest × Nat) → Cursor → List (Nat × Nat)
  | [], _ => []
  | (request, requestIndex) :: rest, state =>
      match planBlock baseShift request requestIndex state with
      | .error _ => []
      | .ok (entry, next) =>
          uncheckedSums baseShift request entry state ++ loopSums baseShift rest next

/-- Those of `build_lengths`. -/
def buildSums (requests : List PlacementLengthRequest) (baseShift : Nat) : List (Nat × Nat) :=
  (24, 2 ^ baseShift) :: loopSums baseShift (sorted requests)
    { cursor := wrappingAlignUp 24 (2 ^ baseShift), occurrences := fun _ => 0
      payloadBytes := 0, headerBytes := 0 }

/-- `LayoutPlan::build`. -/
def build (requests : List PlacementRequest) (baseShift : Nat) : Except LayoutError LayoutPlan :=
  buildLengths (requests.map PlacementRequest.lengthRequest) baseShift

end LayoutPlan

/-- The `write_block` call of a placed request. -/
def PlacementRequest.toWrite (request : PlacementRequest) (payloadShift : Nat) : BlockWrite where
  options :=
    { keyId := request.keyId, physical := request.physical, continuation := false, payloadShift }
  semantic := request.semantic
  bitWidth := request.bitWidth
  count := request.count
  payload := request.payload

/-- One iteration of the loop of `write`. -/
def writeEntry (requests : List PlacementRequest) (entry : PlannedBlock) (writer : Writer) :
    Except LayoutError Writer := do
  -- An index outside the list panics; the planner returns none.
  let request ← okOr requests[entry.requestIndex]? (.writer "request index out of bounds")
  rejectIf (entry.blockStart < writer.inner.streamPosition)
    (.writer "writer position exceeds placement plan")
  match Writer.writeBlock (request.toWrite entry.payloadShift) writer with
  | .error error _ => .error (.ofWriter error)
  | .ok () writer => do
      rejectIf (writer.inner.streamPosition ≠ entry.payloadEnd)
        (.writer "emitted placement differs from plan")
      pure writer

/-- The loop of `write`. -/
def writeEntries (requests : List PlacementRequest) :
    List PlannedBlock → Writer → Except LayoutError Writer
  | [], writer => .ok writer
  | entry :: rest, writer => do
      let writer ← writeEntry requests entry writer
      writeEntries requests rest writer

/-- `write`. -/
def write (inner : Sink) (baseShift : Nat) (requests : List PlacementRequest) (mode : StreamMode) :
    Except LayoutError Sink := do
  let plan ← LayoutPlan.build requests baseShift
  let writer ← mapErr .ofWriter (Writer.new inner baseShift mode)
  let writer ← writeEntries requests plan.entries writer
  rejectIf (writer.inner.streamPosition ≠ plan.finalSize)
    (.writer "emitted final size differs from plan")
  mapErr .ofWriter writer.finish

/-- `write_known_size`. -/
def writeKnownSize (inner : Sink) (baseShift : Nat) (requests : List PlacementRequest) :
    Except LayoutError Sink :=
  write inner baseShift requests .knownSize

end VBuf.Ml
