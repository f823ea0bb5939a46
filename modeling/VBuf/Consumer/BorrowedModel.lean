import VBuf.Lib.FloatCast
import VBuf.Ml.Metadata
import VBuf.Ml.Nested
import VBuf.Ml.TokenizerMetadata
import VBuf.Runtime.LayerAcquisition

/-!
# The model behind a consumer handle

`ModelMetadata::parse` reads the description of the model, and `BorrowedModelView` keeps
it next to the tensor directory, the tokenizer and the nested streams of one artifact.
The quantization and MoE regions are checked at opening too; no accessor reads them.
-/

namespace VBuf.Ml

open VBuf.Lib VBuf.Layout VBuf.V06

/-! ### Model metadata -/

/-- `MetadataValue`; a float is its binary64 word. -/
inductive MetadataValue
  | text (value : String)
  | unsigned (value : Nat)
  | float (word : Nat)
  deriving DecidableEq, Repr

/-- `MetadataField`. -/
structure MetadataField where
  key : ModelMetadataKey
  value : MetadataValue
  genericKeyId : UInt16
  occurrence : UInt16
  blockIndex : Nat
  range : CheckedRange

namespace ModelMetadata

/-- `MAX_METADATA_BYTES`. -/
def maxBytes : Nat := 4096

/-- One iteration of the entry loop of `parse_payload`. -/
def parseEntry (bytes : List UInt8) (offset : Nat) : Except MlError MetadataEntry := do
  let flags := leAt bytes (offset + 2) 2
  rejectIf (1 < flags) ⟨.malformedModelMetadata, "metadata flags are invalid"⟩
  pure
    { keyId := leAt bytes offset 2
      required := flags ≠ 0
      genericKeyId := UInt16.ofNat (leAt bytes (offset + 4) 2)
      occurrence := UInt16.ofNat (leAt bytes (offset + 6) 2) }

/-- `parse_payload`. -/
def parsePayload (bytes : List UInt8) : Except MlError (List MetadataEntry) := do
  rejectIf (bytes.length < 16 ∨ maxBytes < bytes.length ∨ slice bytes 0 8 ≠ magic)
    ⟨.malformedModelMetadata, "model metadata header is invalid"⟩
  rejectIf (leAt bytes 8 2 ≠ version)
    ⟨.malformedModelMetadata, "unsupported model metadata version"⟩
  rejectIf (leAt bytes 10 2 ≠ 0 ∨ leAt bytes 14 2 ≠ 0)
    ⟨.malformedModelMetadata, "model metadata reserved fields are non-zero"⟩
  let count := leAt bytes 12 2
  rejectIf (maxEntries < count ∨ 16 + count * 8 ≠ bytes.length)
    ⟨.malformedModelMetadata, "metadata length does not match entry count"⟩
  (List.range count).mapM fun index => parseEntry bytes (16 + index * 8)

/-- `resolve_value`. -/
def resolveValue (validated : Validated) (keyId occurrence : UInt16) :
    Except MlError ResolvedValue := do
  let missing : MlError :=
    ⟨.missingRequiredMetadata, "metadata canonical reference is absent"⟩
  let index ← okOr (nthOccurrence validated.blocks keyId occurrence) missing
  let block ← okOr validated.blocks[index]? missing
  rejectIf (block.continuation = true)
    ⟨.metadataTypeMismatch, "metadata values may not be continuing in profile 0.1"⟩
  let range ← ofV06 (validated.payloadRange index)
  pure ⟨index, block, range⟩

/-- `decode_unsigned`. -/
def decodeUnsigned (block : Block) (bytes : List UInt8) : Except MlError Nat := do
  rejectIf (block.semantic ≠ .unsigned ∨ block.physical ≠ .scalar ∨ block.count ≠ 1 ∨
      block.bitWidth ∉ [8, 16, 32, 64])
    ⟨.metadataTypeMismatch, "metadata value must be an unsigned scalar"⟩
  pure (ofLeBytes bytes)

/-- `decode_float`. -/
def decodeFloat (block : Block) (bytes : List UInt8) : Except MlError Nat := do
  rejectIf (block.semantic ≠ .float ∨ block.physical ≠ .scalar ∨ block.count ≠ 1)
    ⟨.metadataTypeMismatch, "metadata value must be a floating scalar"⟩
  okOr (match block.bitWidth with
    | 32 => some (FloatCast.widen (ofLeBytes bytes))
    | 64 => some (ofLeBytes bytes)
    | _ => none)
    ⟨.metadataTypeMismatch, "metadata float width is unsupported"⟩

/-- The architecture of `decode_value`. -/
def decodeArchitecture (block : Block) (bytes : List UInt8) : Except MlError String := do
  rejectIf (block.semantic ≠ .opaqueBytes ∨ block.physical ≠ .array ∨ block.bitWidth ≠ 8 ∨
      bytes = [] ∨ 0 ∈ bytes)
    ⟨.metadataTypeMismatch, "architecture must be non-empty UTF-8 bytes"⟩
  okOr (fromUtf8 bytes) ⟨.metadataTypeMismatch, "architecture is not UTF-8"⟩

/-- `decode_value`. -/
def decodeValue (key : ModelMetadataKey) (block : Block) (bytes : List UInt8) :
    Except MlError MetadataValue :=
  match key with
  | .architecture => do
      let text ← decodeArchitecture block bytes
      pure (.text text)
  | .normalizationEpsilon | .ropeTheta => do
      let value ← decodeFloat block bytes
      rejectIf (¬ FloatCast.IsFinite64 value ∨ FloatCast.AtMostZero64 value)
        ⟨.metadataValueOutOfRange, "model metadata float must be finite and positive"⟩
      pure (.float value)
  | _ => do
      let value ← decodeUnsigned block bytes
      rejectIf (value = 0)
        ⟨.metadataValueOutOfRange, "model metadata integer must be non-zero"⟩
      pure (.unsigned value)

/-- The loop over the entries in `parse`, with the previous key and the keys seen. -/
def parseFields (validated : Validated) :
    Option Nat → List ModelMetadataKey → List MetadataEntry → Except MlError (List MetadataField)
  | _, _, [] => .ok []
  | previous, seen, entry :: rest => do
      rejectIf (∃ key ∈ previous, entry.keyId ≤ key)
        ⟨if previous = some entry.keyId then .duplicateMetadataKey else .malformedModelMetadata,
          "model metadata keys must be strictly sorted"⟩
      match ModelMetadataKey.fromId entry.keyId with
      | none => do
          rejectIf (entry.required = true)
            ⟨.unsupportedMetadataKey, "unknown required model metadata key"⟩
          parseFields validated (some entry.keyId) seen rest
      | some key => do
          rejectIf (entry.required ≠ key.isRequired)
            ⟨.malformedModelMetadata, "metadata requiredness does not match profile contract"⟩
          rejectIf (key ∈ seen)
            ⟨.duplicateMetadataKey, "model metadata key occurs more than once"⟩
          let found ← resolveValue validated entry.genericKeyId entry.occurrence
          let value ← decodeValue key found.block found.range.bytes
          let fields ← parseFields validated (some entry.keyId) (key :: seen) rest
          pure (⟨key, value, entry.genericKeyId, entry.occurrence, found.index, found.range⟩ :: fields)

/-- The keys that `parse` asks for. -/
def requiredKeys : List ModelMetadataKey :=
  [.architecture, .contextLength, .embeddingLength, .layerCount, .headCount]

/-- `ModelMetadata::parse`; the metadata is its fields. -/
def parse (validated : Validated) (bootstrap : Bootstrap) : Except MlError (List MetadataField) := do
  let region ← okOr (bootstrap.region .modelMetadata)
    ⟨.missingModelMetadata, "bootstrap has no model metadata role"⟩
  let block ← okOr validated.blocks[region.blockIndex]?
    ⟨.missingModelMetadata, "model metadata block index is absent"⟩
  rejectIf (block.semantic ≠ .opaqueBytes ∨ block.physical ≠ .array ∨ block.bitWidth ≠ 8 ∨
      block.continuation = true)
    ⟨.malformedModelMetadata, "model metadata must be a non-continuing opaque byte array"⟩
  let entries ← parsePayload region.range.bytes
  let fields ← parseFields validated none [] entries
  rejectIf (∃ key ∈ requiredKeys, ∀ field ∈ fields, field.key ≠ key)
    ⟨.missingRequiredMetadata, "required model metadata key is absent"⟩
  pure fields

/-- `get`. -/
def get (fields : List MetadataField) (key : ModelMetadataKey) : Option MetadataField :=
  fields.find? (fun field => field.key = key)

/-- `architecture`. -/
def architecture (fields : List MetadataField) : Option String :=
  match (get fields .architecture).map MetadataField.value with
  | some (.text value) => some value
  | _ => none

/-- `unsigned`. -/
def unsigned (fields : List MetadataField) (key : ModelMetadataKey) : Option Nat :=
  match (get fields key).map MetadataField.value with
  | some (.unsigned value) => some value
  | _ => none

/-- `float`. -/
def float (fields : List MetadataField) (key : ModelMetadataKey) : Option Nat :=
  match (get fields key).map MetadataField.value with
  | some (.float word) => some word
  | _ => none

end ModelMetadata

/-! ### The view -/

/-- `ConsumerModelMetadata`; its floats are binary64 words. -/
structure ConsumerModelMetadata where
  architecture : String
  contextLength : Nat
  embeddingLength : Nat
  layerCount : Nat
  headCount : Nat
  kvHeadCount : Nat
  keyHeadDimension : Nat
  valueHeadDimension : Nat
  feedForwardLength : Nat
  normalizationEpsilon : Nat
  ropeTheta : Nat

/-- `BorrowedModelView`, without the regions that no accessor reads. -/
structure BorrowedModelView where
  validated : Validated
  bootstrap : Bootstrap
  metadata : List MetadataField
  directory : TensorDirectory
  tokenizer : TokenizerMetadata
  nested : Option (List NestedChild)

namespace TensorDirectory

/-- The tensor of an index. -/
def tensorAt (directory : TensorDirectory) (index : Nat) : Option TensorDescriptor :=
  directory.tensors[index]?

/-- `BorrowedModel::tensor_payload`. -/
def tensorPayload (directory : TensorDirectory) (index : Nat) : Option (List UInt8) :=
  (directory.tensorAt index).bind fun tensor => tensor.range.map CheckedRange.bytes

end TensorDirectory

namespace BorrowedModelView

/-- The nested directory, where the bootstrap has its role. -/
def parseNested (validated : Validated) (bootstrap : Bootstrap) :
    Except MlError (Option (List NestedChild)) :=
  if (bootstrap.region .nestedDirectory).isSome = true then do
    let children ← NestedDirectory.parse validated bootstrap
    pure (some children)
  else .ok none

/-- `BorrowedModelView::parse_with_sources`. -/
def parseWithSources (bytes : List UInt8) (sources : SourceRegistry)
    (external : List (UInt16 × UInt16 × TensorRef)) : Except MlError BorrowedModelView := do
  rejectIf ((sources.get .self).bind SourceDescriptor.declaredSize ≠ some bytes.length)
    ⟨.tensorReferenceMissing, "self source size does not match metadata artifact"⟩
  let validated ← ofV06 (parseV06 bytes)
  let bootstrap ← Bootstrap.discover validated
  let persistent ← SourceProfile.parseProfile bootstrap
  Runtime.checkRegistered sources persistent
  let metadata ← ModelMetadata.parse validated bootstrap
  let directory ← TensorDirectory.parseWithSources validated bootstrap sources
    ((persistent.map PersistentSourceMetadata.bindings).getD external)
  let tokenizer ← TokenizerMetadata.parse validated bootstrap
  let nested ← parseNested validated bootstrap
  pure { validated, bootstrap, metadata, directory, tokenizer, nested }

/-- `BorrowedModelView::parse`, which `BorrowedModel::open` calls. -/
def parse (bytes : List UInt8) : Except MlError BorrowedModelView :=
  parseWithSources bytes (.ofSelf bytes.length) []

/-- `BorrowedModel::open_persistent`: the registry is the persisted one. -/
def openPersistent (bytes : List UInt8) : Except MlError BorrowedModelView := do
  let validated ← ofV06 (parseV06 bytes)
  let bootstrap ← Bootstrap.discover validated
  let persistent ← SourceProfile.parseProfile bootstrap
  let profile ← okOr persistent ⟨.tensorReferenceMissing, "persistent source profile is absent"⟩
  parseWithSources bytes profile.registry []

variable (view : BorrowedModelView)

/-- `model_metadata`. -/
def modelMetadata : Except MlError ConsumerModelMetadata := do
  let unsigned := fun key => okOr (ModelMetadata.unsigned view.metadata key)
    ⟨.missingRequiredMetadata, "borrowed metadata value is absent"⟩
  let architecture ← okOr (ModelMetadata.architecture view.metadata)
    ⟨.missingRequiredMetadata, "borrowed architecture is absent"⟩
  let contextLength ← unsigned .contextLength
  let embeddingLength ← unsigned .embeddingLength
  let layerCount ← unsigned .layerCount
  let headCount ← unsigned .headCount
  let kvHeadCount ← unsigned .kvHeadCount
  let keyHeadDimension ← unsigned .keyHeadDimension
  let valueHeadDimension ← unsigned .valueHeadDimension
  let feedForwardLength ← unsigned .feedForwardLength
  let normalizationEpsilon ← okOr (ModelMetadata.float view.metadata .normalizationEpsilon)
    ⟨.missingRequiredMetadata, "borrowed epsilon is absent"⟩
  let ropeTheta ← okOr (ModelMetadata.float view.metadata .ropeTheta)
    ⟨.missingRequiredMetadata, "borrowed rope theta is absent"⟩
  pure { architecture, contextLength, embeddingLength, layerCount, headCount, kvHeadCount,
         keyHeadDimension, valueHeadDimension, feedForwardLength, normalizationEpsilon, ropeTheta }

/-- The nested child of an index. -/
def nestedChild (index : Nat) : Option NestedChild := view.nested.bind fun children => children[index]?

/-- `chat_template`. -/
def chatTemplate : Option String :=
  view.tokenizer.chatTemplate.bind fun range => fromUtf8 range.bytes

/-- The special tokens by their number. -/
def specialKinds : List SpecialToken := [.bos, .eos, .unk, .pad]

/-- `special_token`. -/
def specialToken (kind : Nat) : Option Nat :=
  specialKinds[kind]?.bind fun wanted =>
    (view.tokenizer.specials.find? (fun special => special.1 = wanted)).map Prod.snd

end BorrowedModelView

end VBuf.Ml
