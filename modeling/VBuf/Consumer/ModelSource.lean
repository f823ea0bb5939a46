import VBuf.Consumer.TensorBinding

/-!
# One model behind two sources

`VbufDirectSource` fetches the special ids, the flag and the arrays of the tokenizer once
and answers from them; `VbufRemoteSource` asks the adapter at each call.  What the tokenizer
does not have is a default for the one and a refusal of the other.
-/

namespace VBuf.Ml.TokenizerMetadata

open VBuf.Lib

/-- The word of a score, of one of the two float formats. -/
inductive ScoreBits
  | single (bits : Nat)
  | double (bits : Nat)
  deriving DecidableEq, Repr

/-- The word of four or eight bytes. -/
def ScoreBits.ofWidth (width bits : Nat) : Option ScoreBits :=
  match width with
  | 4 => some (.single bits)
  | 8 => some (.double bits)
  | _ => none

/-- The cast of a score to a 32-bit float, which `token_score` returns. -/
def ScoreBits.toSingle : ScoreBits → Nat
  | .single bits => FloatCast.narrow (FloatCast.widen bits)
  | .double bits => FloatCast.narrow bits

variable (metadata : TokenizerMetadata)

/-- `score`, before its word is read as a number. -/
def scoreBits (index : Nat) : Option ScoreBits := do
  let range ← metadata.scores
  if metadata.tokenCount ≤ index then none
  else do
    let width := range.bytes.length / metadata.tokenCount
    let element ← range? range.bytes (index * width) (index * width + width)
    ScoreBits.ofWidth width (ofLeBytes element)

end VBuf.Ml.TokenizerMetadata

namespace VBuf.Consumer

open VBuf.Lib VBuf.Layout VBuf.V06 VBuf.Ml

/-! ### The handle -/

/-- `VbufMlModelMetadataInfo`; its doubles are binary64 words. -/
structure VbufMlModelMetadataInfo where
  contextLength : Nat
  embeddingLength : Nat
  layerCount : Nat
  headCount : Nat
  kvHeadCount : Nat
  keyHeadDimension : Nat
  valueHeadDimension : Nat
  feedForwardLength : Nat
  normalizationEpsilon : Nat
  ropeTheta : Nat
  expertCount : Nat
  expertUsedCount : Nat
  expertSharedCount : Nat
  expertFeedForwardLength : Nat
  leadingDenseBlockCount : Nat
  kvLoraRank : Nat
  ropeDimension : Nat
  vocabularySize : Nat

/-- What `vbuf_ml_consumer_metadata` takes from the experts and from the tensors. -/
structure ExpertInfo where
  expertCount : Nat
  expertUsedCount : Nat
  expertSharedCount : Nat
  expertFeedForwardLength : Nat
  leadingDenseBlockCount : Nat
  kvLoraRank : Nat
  mqaDimension : Nat

/-- A consumer handle. -/
structure ConsumerHandle where
  view : BorrowedModelView
  experts : ExpertInfo

/-- `vbuf_ml_consumer_metadata`. -/
def consumerMetadata (handle : ConsumerHandle) : Except Status VbufMlModelMetadataInfo := do
  let value ← mapErr (fun _ => .validationError) handle.view.modelMetadata
  pure
    { contextLength := value.contextLength
      embeddingLength := value.embeddingLength
      layerCount := value.layerCount
      headCount := value.headCount
      kvHeadCount := value.kvHeadCount
      keyHeadDimension := value.keyHeadDimension
      valueHeadDimension := value.valueHeadDimension
      feedForwardLength := value.feedForwardLength
      normalizationEpsilon := value.normalizationEpsilon
      ropeTheta := value.ropeTheta
      expertCount := handle.experts.expertCount
      expertUsedCount := handle.experts.expertUsedCount
      expertSharedCount := handle.experts.expertSharedCount
      expertFeedForwardLength := handle.experts.expertFeedForwardLength
      leadingDenseBlockCount := handle.experts.leadingDenseBlockCount
      kvLoraRank := handle.experts.kvLoraRank
      ropeDimension :=
        if value.architecture = "qwen3" then value.keyHeadDimension % 2 ^ 32
        else (handle.experts.mqaDimension - handle.experts.kvLoraRank) % 2 ^ 32
      vocabularySize := handle.view.tokenizer.tokenCount % 2 ^ 32 }

/-- `VbufMlTokenArrays`; an absent array is empty. -/
structure VbufMlTokenArrays where
  text : List UInt8
  offsets : List UInt8
  types : List UInt8
  scores : List UInt8
  tokenCount : Nat

/-- `vbuf_ml_consumer_token_arrays`. -/
def consumerTokenArrays (tokenizer : TokenizerMetadata) : VbufMlTokenArrays where
  text := tokenizer.textPool.bytes
  offsets := tokenizer.offsets.bytes
  types := (tokenizer.types.map CheckedRange.bytes).getD []
  scores := (tokenizer.scores.map CheckedRange.bytes).getD []
  tokenCount := tokenizer.tokenCount

/-- `VbufMlMergeArrays`. -/
structure VbufMlMergeArrays where
  left : List UInt8
  right : List UInt8
  mergeCount : Nat

/-- `vbuf_ml_consumer_merge_arrays`. -/
def consumerMergeArrays (tokenizer : TokenizerMetadata) : VbufMlMergeArrays where
  left := (tokenizer.mergeLeftIds.map CheckedRange.bytes).getD []
  right := (tokenizer.mergeRightIds.map CheckedRange.bytes).getD []
  mergeCount := tokenizer.mergeCount

/-- The cast of an unsigned number to `int32_t`. -/
def toInt32 (value : Nat) : Int := (BitVec.ofNat 32 value).toInt

/-- `token_type`. -/
def VbufMlAdapter.tokenType (tokenizer : TokenizerMetadata) (index : Nat) : Option Int :=
  (tokenizer.tokenType index).map toInt32

/-- `token_score`. -/
def VbufMlAdapter.tokenScore (tokenizer : TokenizerMetadata) (index : Nat) : Option Nat :=
  (tokenizer.scoreBits index).map TokenizerMetadata.ScoreBits.toSingle

/-! ### The keys -/

/-- The keys of every architecture, without its name. -/
def commonRows (metadata : VbufMlModelMetadataInfo) : List (String × Nat) :=
  [("context_length", metadata.contextLength),
   ("embedding_length", metadata.embeddingLength),
   ("block_count", metadata.layerCount),
   ("feed_forward_length", metadata.feedForwardLength),
   ("attention.head_count", metadata.headCount),
   ("attention.head_count_kv", metadata.kvHeadCount),
   ("attention.key_length", metadata.keyHeadDimension),
   ("attention.value_length", metadata.valueHeadDimension)]

/-- The keys that only the direct source answers, and the last that both do. -/
def familyRows (metadata : VbufMlModelMetadataInfo) : List (String × Nat) :=
  [("expert_count", metadata.expertCount),
   ("expert_used_count", metadata.expertUsedCount),
   ("expert_shared_count", metadata.expertSharedCount),
   ("expert_feed_forward_length", metadata.expertFeedForwardLength),
   ("leading_dense_block_count", metadata.leadingDenseBlockCount),
   ("vocab_size", metadata.vocabularySize),
   ("attention.kv_lora_rank", metadata.kvLoraRank),
   ("rope.dimension_count", metadata.ropeDimension)]

/-- The keys of the special ids, with the number of the token. -/
def tokenIdRows : List (String × Nat) :=
  [("tokenizer.ggml.bos_token_id", 0), ("tokenizer.ggml.eos_token_id", 1),
   ("tokenizer.ggml.padding_token_id", 3)]

/-- The keys that `VbufRemoteSource` names. -/
def namedKeys : List String :=
  ["general.architecture", "tokenizer.ggml.model", "tokenizer.ggml.pre", "tokenizer.chat_template",
   "qwen3.context_length", "qwen3.embedding_length", "qwen3.block_count",
   "qwen3.feed_forward_length", "qwen3.attention.head_count", "qwen3.attention.head_count_kv",
   "qwen3.attention.key_length", "qwen3.attention.value_length", "qwen3.rope.dimension_count",
   "tokenizer.ggml.bos_token_id", "tokenizer.ggml.eos_token_id", "tokenizer.ggml.padding_token_id",
   "qwen3.attention.layer_norm_rms_epsilon", "qwen3.rope.freq_base", "tokenizer.ggml.add_bos_token"]

/-- What a source returns of a token; the score is the word of a float. -/
structure Token where
  text : List UInt8
  score : Nat
  type : Int
  deriving DecidableEq, Repr

/-! ### `VbufDirectSource` -/

/-- `VbufDirectSource`, without its tensors. -/
structure DirectModel where
  architecture : List UInt8
  metadata : VbufMlModelMetadataInfo
  tokenArrays : VbufMlTokenArrays
  mergeArrays : VbufMlMergeArrays
  special : Nat → Nat
  addBos : Bool
  chatTemplate : Option (List UInt8)

namespace DirectModel

/-- The constructor; an id or a flag that the handle does not have stays zero. -/
def new (handle : ConsumerHandle) : Except String DirectModel := do
  let architecture ← okOr (VbufMlAdapter.architecture handle.view) "vBuf architecture lookup failed"
  let metadata ← mapErr (fun _ => "vBuf metadata lookup failed") (consumerMetadata handle)
  pure
    { architecture
      metadata
      tokenArrays := consumerTokenArrays handle.view.tokenizer
      mergeArrays := consumerMergeArrays handle.view.tokenizer
      special := fun kind => (handle.view.specialToken kind).getD 0
      addBos := handle.view.tokenizer.addBos.getD false
      chatTemplate := VbufMlAdapter.chatTemplate handle.view }

variable (source : DirectModel)

/-- The architecture is of the DeepSeek family. -/
def deepseek : Bool := decide (utf8 "deepseek" <:+: source.architecture)

/-- The prefix of the keys of the architecture. -/
def family : String := if source.deepseek = true then "deepseek2." else "qwen3."

/-- `get_string`. -/
def getString (key : String) : Option (List UInt8) :=
  if key = "general.architecture" then some source.architecture
  else if key = "tokenizer.ggml.model" then some (utf8 "gpt2")
  else if key = "tokenizer.ggml.pre" then
    some (if source.deepseek = true then utf8 "deepseek-llm" else utf8 "qwen2")
  else if key = "tokenizer.chat_template" then source.chatTemplate
  else none

/-- The value that `get_u32` casts. -/
def u32Value (key : String) : Option Nat :=
  ((commonRows source.metadata).find? fun row =>
      key = source.family ++ row.1 ∨ source.deepseek = true ∧ key = "qwen3." ++ row.1).map Prod.snd
    <|> ((familyRows source.metadata).find? fun row => key = source.family ++ row.1).map Prod.snd
    <|> (tokenIdRows.find? fun row => key = row.1).map fun row => source.special row.2

/-- `get_u32`. -/
def getU32 (key : String) : Option Nat := (source.u32Value key).map fun value => value % 2 ^ 32

/-- `get_f32`; the value is the word of a float. -/
def getF32 (key : String) : Option Nat :=
  if key = source.family ++ "attention.layer_norm_rms_epsilon" ∨
      source.deepseek = true ∧ key = "qwen3.attention.layer_norm_rms_epsilon" then
    some (FloatCast.narrow source.metadata.normalizationEpsilon)
  else if key = source.family ++ "rope.freq_base" ∨
      source.deepseek = true ∧ key = "qwen3.rope.freq_base" then
    some (FloatCast.narrow source.metadata.ropeTheta)
  else none

/-- `get_bool`. -/
def getBool (key : String) : Option Bool :=
  if key = "tokenizer.ggml.add_bos_token" then some source.addBos else none

/-- The type in `token`. -/
def tokenType (index : Nat) : Option Int :=
  if source.tokenArrays.types.length ≠ 0 then
    let width := source.tokenArrays.types.length / source.tokenArrays.tokenCount
    if width ∈ [1, 2, 4, 8] then some (toInt32 (leAt source.tokenArrays.types (index * width) width))
    else none
  else some 1

/-- The score in `token`. -/
def tokenScore (index : Nat) : Option Nat :=
  if source.tokenArrays.scores.length ≠ 0 then
    let width := source.tokenArrays.scores.length / source.tokenArrays.tokenCount
    let bits := leAt source.tokenArrays.scores (index * width) width
    if width = 4 then some (FloatCast.canonical32 bits)
    else if width = 8 then some (FloatCast.narrow bits)
    else none
  else some 0

/-- `token`. -/
def token (index : Nat) : Option Token :=
  let start := leAt source.tokenArrays.offsets (index * 8) 8
  let stop := leAt source.tokenArrays.offsets ((index + 1) * 8) 8
  if source.tokenArrays.tokenCount ≤ index then none
  else if stop < start ∨ source.tokenArrays.text.length < stop then none
  else do
    let type ← source.tokenType index
    let score ← source.tokenScore index
    pure { text := slice source.tokenArrays.text start (stop - start), score, type }

/-- `merge`. -/
def merge (index : Nat) : Option (Nat × Nat) :=
  if source.mergeArrays.mergeCount ≤ index then none
  else some (leAt source.mergeArrays.left (index * 4) 4, leAt source.mergeArrays.right (index * 4) 4)

end DirectModel

/-! ### `VbufRemoteSource` -/

/-- `VbufRemoteSource`, without its tensors. -/
structure RemoteModel where
  view : BorrowedModelView
  architecture : List UInt8
  metadata : VbufMlModelMetadataInfo

namespace RemoteModel

/-- The constructor, with the checks of its loop over the tensors. -/
def new (handle : ConsumerHandle) : Except String RemoteModel := do
  let metadata ← mapErr (fun _ => "remote vBuf bootstrap discovery failed") (consumerMetadata handle)
  let architecture ←
    okOr (VbufMlAdapter.architecture handle.view) "remote vBuf bootstrap discovery failed"
  let tensors := handle.view.directory.tensors.length
  rejectIf (tensors = 0) "remote vBuf bootstrap has no tensors"
  let _ ← describeTensors handle.view.directory tensors 0
  pure { view := handle.view, architecture, metadata }

variable (source : RemoteModel)

/-- `get_string`. -/
def getString (key : String) : Option (List UInt8) :=
  if key = "general.architecture" then some source.architecture
  else if key = "tokenizer.ggml.model" then some (utf8 "gpt2")
  else if key = "tokenizer.ggml.pre" then some (utf8 "qwen2")
  else if key = "tokenizer.chat_template" then VbufMlAdapter.chatTemplate source.view
  else none

/-- The value that `get_u32` casts. -/
def u32Value (key : String) : Option Nat :=
  ((commonRows source.metadata ++ [("rope.dimension_count", source.metadata.ropeDimension)]).find?
      fun row => key = "qwen3." ++ row.1).map Prod.snd
    <|> (tokenIdRows.find? fun row => key = row.1).bind fun row => source.view.specialToken row.2

/-- `get_u32`. -/
def getU32 (key : String) : Option Nat := (source.u32Value key).map fun value => value % 2 ^ 32

/-- `get_f32`; the value is the word of a float. -/
def getF32 (key : String) : Option Nat :=
  if key = "qwen3.attention.layer_norm_rms_epsilon" then
    some (FloatCast.narrow source.metadata.normalizationEpsilon)
  else if key = "qwen3.rope.freq_base" then some (FloatCast.narrow source.metadata.ropeTheta)
  else none

/-- `get_bool`. -/
def getBool (key : String) : Option Bool :=
  if key ≠ "tokenizer.ggml.add_bos_token" then none else source.view.tokenizer.addBos

/-- `token_count`. -/
def tokenCount : Nat := source.view.tokenizer.tokenCount

/-- `token`; a score that the adapter does not have stays zero. -/
def token (index : Nat) : Option Token := do
  let text ← VbufMlAdapter.tokenText source.view index
  let type ← VbufMlAdapter.tokenType source.view.tokenizer index
  pure { text, score := (VbufMlAdapter.tokenScore source.view.tokenizer index).getD 0, type }

/-- `merge_count`. -/
def mergeCount : Nat := source.view.tokenizer.mergeCount

/-- `merge`. -/
def merge (index : Nat) : Option (Nat × Nat) := source.view.tokenizer.mergePair index

end RemoteModel

end VBuf.Consumer
