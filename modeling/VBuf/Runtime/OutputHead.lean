import VBuf.Lib.Slice
import VBuf.Ml.TensorDirectory
import VBuf.Runtime.ExpertGraph

/-!
# The output head of the block runner

`get_bf16_rows` reads rows of a BF16 tensor, and `project_logits` multiplies the hidden states
with the output head a chunk of rows at a time and scatters each product into the logits.
What a BF16 word stands for is a parameter.  Sizes are those of a host with 64 bits; what ends
the program is an error here.
-/

namespace VBuf.Runtime

open VBuf.Lib VBuf.Ml

/-! ### The materializer -/

/-- `KEY_ID`. -/
def headKeyId : UInt16 := 512

/-- `TensorDirectory::get_by_identity`. -/
def getByIdentity (directory : TensorDirectory) (keyId occurrence : UInt16) :
    Option TensorDescriptor :=
  directory.tensors.find? fun tensor => tensor.keyId == keyId && tensor.occurrence == occurrence

/-- The words of a BF16 payload, low byte first. -/
def bf16Values {F : Type} (decode : UInt16 → F) : List UInt8 → List F
  | low :: high :: rest =>
      decode (UInt16.ofNat (low.toNat + 256 * high.toNat)) :: bf16Values decode rest
  | _ => []

/-- `Materializer`, as far as the output head needs it; `reads` lists the ranges of `payload`
that were read. -/
structure Materializer (F : Type) where
  directory : TensorDirectory
  payload : List UInt8
  cache : AssocMap UInt32 (GenericTensor F)
  touched : Finset UInt32
  touchedRanges : AssocMap UInt32 (List (UInt64 × UInt64))
  sourceBytes : UInt64
  reads : List (Nat × Nat)

namespace Materializer

variable {F : Type}

/-- `cache_f32_bytes`. -/
def cacheF32Bytes (m : Materializer F) : Nat :=
  AssocMap.total (fun _ tensor => tensor.values.length * 4) m.cache

/-- `record_range`. -/
def recordRange (id : UInt32) (start length : UInt64) (m : Materializer F) : Materializer F :=
  { m with
    touchedRanges := m.touchedRanges.insert id
      ((m.touchedRanges.lookup id).getD [] ++ [(start, length)]) }

/-- `get_bf16_rows`; an error leaves the materializer as it was. -/
def getBf16Rows (decode : UInt16 → F) (id : UInt32) (rowStart rowCount : Nat)
    (m : Materializer F) : Except String (GenericTensor F × Materializer F) := do
  let descriptor ← okOr (getByIdentity m.directory headKeyId id.toUInt16)
    ("tensor identity 512:" ++ toString id ++ " is absent")
  rejectIf (descriptor.representation ≠ .bf16 ∨ descriptor.dimensions.length ≠ 2)
    "BF16 row tensor geometry is invalid"
  rejectIf (descriptor.payload.sourceId ≠ ⟨1⟩)
    "output head chunk does not resolve to the authoritative source"
  let totalRows := descriptor.dimensions.getD 0 0
  let hidden := descriptor.dimensions.getD 1 0
  rejectIf (2 ^ 64 ≤ totalRows * hidden * 2) "BF16 row tensor payload length overflows"
  rejectIf (descriptor.payload.length ≠ totalRows * hidden * 2)
    "BF16 row tensor payload length is invalid"
  rejectIf (2 ^ 64 ≤ rowStart + rowCount) "output head row range overflows"
  rejectIf (totalRows < rowStart + rowCount) "BF16 row range is outside tensor"
  rejectIf (2 ^ 64 ≤ hidden * 2) "output head row size overflows"
  let rowBytes := hidden * 2
  rejectIf (2 ^ 64 ≤ rowStart * rowBytes) "output head byte range overflows"
  let byteStart := rowStart * rowBytes
  rejectIf (2 ^ 64 ≤ rowCount * rowBytes) "output head chunk length overflows"
  let byteLength := rowCount * rowBytes
  rejectIf (2 ^ 64 ≤ descriptor.payload.offset + byteStart) "output head source range overflows"
  let payloadStart := descriptor.payload.offset + byteStart
  rejectIf (2 ^ 64 ≤ payloadStart + byteLength) "output head source range overflows"
  let payloadEnd := payloadStart + byteLength
  let bytes ← okOr (range? m.payload payloadStart payloadEnd)
    "output head chunk is outside payload"
  rejectIf (bytes.length % 2 ≠ 0) "output head chunk has odd BF16 length"
  .ok (⟨[UInt64.ofNat rowCount, UInt64.ofNat hidden], bf16Values decode bytes⟩,
    recordRange id (UInt64.ofNat byteStart) (UInt64.ofNat bytes.length)
      { m with
        sourceBytes := UInt64.ofNat (min (m.sourceBytes.toNat + bytes.length) (2 ^ 64 - 1))
        touched := insert id m.touched
        reads := m.reads ++ [(payloadStart, payloadEnd)] })

/-- `bytes`. -/
def bytes (id : UInt32) (m : Materializer F) :
    Except String (List UInt8 × List Nat × TensorRepresentation) := do
  let descriptor ← okOr (getByIdentity m.directory headKeyId id.toUInt16)
    ("tensor identity 512:" ++ toString id ++ " is absent")
  rejectIf (descriptor.payload.sourceId ≠ ⟨1⟩)
    "block tensor does not resolve to the authoritative source"
  let start := descriptor.payload.offset
  rejectIf (2 ^ 64 ≤ start + descriptor.payload.length) "source range overflows"
  let bytes ← okOr (range? m.payload start (start + descriptor.payload.length))
    "source range is outside payload"
  .ok (bytes, descriptor.dimensions, descriptor.representation)

/-- A BF16 tensor as `get` reads it as a whole. -/
def wholeBf16 (decode : UInt16 → F) (id : UInt32) (m : Materializer F) :
    Except String (GenericTensor F) := do
  let (bytes, dimensions, representation) ← m.bytes id
  rejectIf (representation ≠ .bf16) "unsupported block tensor representation"
  rejectIf (bytes.length % 2 ≠ 0) "BF16 payload has odd length"
  let tensor : GenericTensor F := ⟨dimensions.map UInt64.ofNat, bf16Values decode bytes⟩
  let _ ← tensor.elements
  .ok tensor

end Materializer

/-! ### The projection -/

/-- `HIDDEN`, `VOCAB` and `OUTPUT_HEAD_CHUNK_ROWS`. -/
structure ProjectionSizes where
  hidden : UInt64
  vocab : Nat
  outputHeadChunkRows : Nat
  chunkRows_pos : 0 < outputHeadChunkRows

/-- The sizes of the block runner. -/
def blockSizes : ProjectionSizes := ⟨4096, 151552, 8192, by decide⟩

section Projection

variable {F : Type} [Field F] [LinearOrder F] (math : ExactMath F) (kernels : GenericKernels F)
  (decode : UInt16 → F) (get : UInt32 → Except String (GenericTensor F))

/-- `build_output_projection_graph`. -/
def buildOutputProjectionGraph (headId : UInt32) : PortableProgram × PortableRegion F :=
  ({ tensorBindings := [⟨"model.lm_head.weight", headId⟩], stateRefs := [] },
    { id := "portable-lm-head-chunk"
      input := 0
      output := 1
      operations := [matmulOperation "lm_head_chunk" 0 "model.lm_head.weight" 1] })

/-- The variables of the loop of `project_logits`. -/
structure ProjectionLoop (F : Type) where
  logitsValues : List F
  peakCacheBytes : Nat
  materializer : Materializer F
  outputState : GenericExecutionState F

/-- The copy of the row of a token. -/
def copyToken (chunk : List F) (vocabulary rowStart rowCount : Nat) (logits : List F)
    (token : Nat) : Except String (List F) := do
  let sourceStart := token * rowCount
  let destinationStart := token * vocabulary + rowStart
  rejectIf (logits.length < destinationStart + rowCount) "range end index out of range"
  let source ← okOr (range? chunk sourceStart (sourceStart + rowCount))
    "range end index out of range"
  .ok (patch logits destinationStart source)

/-- A turn of the loop; the graph reads no tensor but the head, and is always lowered. -/
def projectChunk (sizes : ProjectionSizes) (input : GenericTensor F) (headId : UInt32)
    (sequence : Nat) (loop : ProjectionLoop F) (rowStart : Nat) :
    Except String (ProjectionLoop F) := do
  let rowCount := min sizes.outputHeadChunkRows (sizes.vocab - rowStart)
  let (headChunk, materializer) ←
    loop.materializer.getBf16Rows decode headId rowStart rowCount
  let (program, region) := buildOutputProjectionGraph (F := F) headId
  let graph ← mapErr (fun _ => "LM head chunk graph lowering") (lowerRegion math program region)
  let (executed, outputState) := executeGenericGraph math kernels
    (fun id => if id = headId then .ok headChunk else get id) none graph input loop.outputState
  let chunkResult ← mapErr ("LM head chunk execution: " ++ ·) executed
  let chunk ← okOr (chunkResult.values.lookup 1) "LM head chunk output missing"
  let logitsValues ← (List.range sequence).foldlM
    (copyToken chunk.values sizes.vocab rowStart rowCount) loop.logitsValues
  .ok
    { logitsValues
      peakCacheBytes :=
        max loop.peakCacheBytes (materializer.cacheF32Bytes + headChunk.values.length * 4)
      materializer := { materializer with cache := materializer.cache.erase headId }
      outputState }

/-- `project_logits`: the logits with the peak of the cache, and the materializer. -/
def projectLogits (sizes : ProjectionSizes) (input : GenericTensor F) (headId : UInt32)
    (materializer : Materializer F) :
    Except String ((GenericTensor F × Nat) × Materializer F) := do
  rejectIf (input.dimensions.length ≠ 3 ∨ input.dimensions[0]? ≠ some 1 ∨
      input.dimensions[2]? ≠ some sizes.hidden) "output projection input geometry is invalid"
  let sequence := (input.dimensions.getD 1 0).toNat
  rejectIf (2 ^ 63 ≤ 4 * (sequence * sizes.vocab)) "capacity overflow"
  let outputState ← GenericExecutionState.new 0xFFFFFFFE 1
  let loop ← (List.range ((sizes.vocab + sizes.outputHeadChunkRows - 1) /
      sizes.outputHeadChunkRows)).foldlM
    (fun loop turn => projectChunk math kernels decode get sizes input headId sequence loop
      (turn * sizes.outputHeadChunkRows))
    ⟨List.replicate (sequence * sizes.vocab) 0, materializer.cacheF32Bytes, materializer,
      outputState⟩
  .ok ((⟨[1, UInt64.ofNat sequence, UInt64.ofNat sizes.vocab], loop.logitsValues⟩,
    loop.peakCacheBytes), loop.materializer)

end Projection

end VBuf.Runtime
