import VBuf.Lib.Reader
import VBuf.Lib.Utf8
import VBuf.Ml.Bootstrap
import VBuf.Tokenizer.Runtime

/-!
# Tokenizer metadata

A profile region lists, by role, the blocks that hold the vocabulary, the merges and
the special ids of a tokenizer.  `TokenizerMetadata::parse` checks each block and keeps
its payload range; the accessors read the ranges.
-/

namespace VBuf.Ml

open VBuf.Lib VBuf.Lib.Reader VBuf.Layout VBuf.V06
open VBuf.Tokenizer (TokenizerKind PreTokenizerKind)

/-! ### Identities -/

/-- `TokenizerKind::from_id`. -/
def tokenizerKindFromId (id : Nat) : Except MlError TokenizerKind :=
  match id with
  | 1 => .ok .vocabularyOnly
  | 2 => .ok .gpt2BpeQwen2
  | 3 => .ok .gpt2BpeByteLevel
  | _ => .error ⟨.unsupportedTokenizerKind, "unsupported tokenizer kind"⟩

/-- The kinds with a merge table. -/
def isGpt2 : TokenizerKind → Bool
  | .vocabularyOnly => false
  | .gpt2BpeQwen2 | .gpt2BpeByteLevel => true

/-- `TokenizerRole`. -/
inductive TokenizerRole
  | tokenTextBytes
  | tokenOffsets
  | tokenScores
  | tokenTypes
  | bosId
  | eosId
  | unkId
  | padId
  | mergeLeftIds
  | mergeRightIds
  | tokenizerModelIdentity
  | preTokenizerIdentity
  | addBos
  | chatTemplate
  | tokenFlags
  | specialTokenIds
  | ignoreMerges
  deriving DecidableEq, Repr

namespace TokenizerRole

/-- `TokenizerRole::from_id`. -/
def fromId (id : UInt16) : Option TokenizerRole :=
  match id.toNat with
  | 1 => some .tokenTextBytes
  | 2 => some .tokenOffsets
  | 3 => some .tokenScores
  | 4 => some .tokenTypes
  | 5 => some .bosId
  | 6 => some .eosId
  | 7 => some .unkId
  | 8 => some .padId
  | 9 => some .mergeLeftIds
  | 10 => some .mergeRightIds
  | 11 => some .tokenizerModelIdentity
  | 12 => some .preTokenizerIdentity
  | 13 => some .addBos
  | 14 => some .chatTemplate
  | 15 => some .tokenFlags
  | 16 => some .specialTokenIds
  | 17 => some .ignoreMerges
  | _ => none

/-- `TokenizerRole::is_required`. -/
def isRequired (role : TokenizerRole) (kind : TokenizerKind) : Bool :=
  match role with
  | .tokenTextBytes | .tokenOffsets => true
  | .mergeLeftIds | .mergeRightIds | .tokenizerModelIdentity | .preTokenizerIdentity | .addBos =>
      isGpt2 kind
  | .ignoreMerges => kind = .gpt2BpeByteLevel
  | _ => false

end TokenizerRole

/-- `SpecialToken`. -/
inductive SpecialToken
  | bos
  | eos
  | unk
  | pad
  deriving DecidableEq, Repr

/-- `TokenizerModel`. -/
inductive TokenizerModel
  | gpt2Bpe
  deriving DecidableEq, Repr

/-- `TokenizerModel::from_value`. -/
def TokenizerModel.fromValue (value : Nat) : Except MlError TokenizerModel :=
  match value with
  | 1 => .ok .gpt2Bpe
  | _ => .error ⟨.invalidTokenizerIdentity, "unsupported tokenizer model identity"⟩

/-- `PreTokenizer::from_value`. -/
def preTokenizerFromValue (value : Nat) : Except MlError PreTokenizerKind :=
  match value with
  | 1 => .ok .qwen2
  | 2 => .ok .deepSeek
  | 3 => .ok .gpt2ByteLevel
  | _ => .error ⟨.invalidTokenizerIdentity, "unsupported pre-tokenizer identity"⟩

/-- `TokenizerEntry`. -/
structure TokenizerEntry where
  roleId : UInt16
  required : Bool
  genericKeyId : UInt16
  occurrence : UInt16
  deriving DecidableEq, Repr

/-- A block that a role names, with its payload. -/
structure ResolvedValue where
  index : Nat
  block : Block
  range : CheckedRange

/-- The blocks found for the roles. -/
abbrev Resolved := TokenizerRole → Option ResolvedValue

/-- `TokenizerMetadata`. -/
structure TokenizerMetadata where
  kind : TokenizerKind
  tokenCount : Nat
  textPool : CheckedRange
  offsets : CheckedRange
  scores : Option CheckedRange
  types : Option CheckedRange
  mergeLeftIds : Option CheckedRange
  mergeRightIds : Option CheckedRange
  model : Option TokenizerModel
  preTokenizer : Option PreTokenizerKind
  addBos : Option Bool
  ignoreMerges : Option Bool
  chatTemplate : Option CheckedRange
  tokenFlags : Option CheckedRange
  specialIds : Option CheckedRange
  specials : List (SpecialToken × Nat)

namespace TokenizerMetadata

/-- `TOKENIZER_MAGIC`: the bytes `VBTOK` and three zeros. -/
def magic : List UInt8 := [0x56, 0x42, 0x54, 0x4f, 0x4b, 0, 0, 0]

/-- `TOKENIZER_VERSION`. -/
def version : Nat := 1

/-- `MAX_TOKENIZER_BYTES`. -/
def maxTokenizerBytes : Nat := 4096

/-- `MAX_VOCABULARY`. -/
def maxVocabulary : Nat := 10000000

/-- `MAX_TOKEN_BYTES`. -/
def maxTokenBytes : Nat := 4096

/-- `MAX_MERGES`. -/
def maxMerges : Nat := 10000000

/-- `MAX_CHAT_TEMPLATE_BYTES`. -/
def maxChatTemplateBytes : Nat := 1024 * 1024

/-! ### The list of roles -/

/-- One iteration of the entry loop of `parse_payload`. -/
def parseEntry (bytes : List UInt8) (offset : Nat) : Except MlError TokenizerEntry := do
  let flags := leAt bytes (offset + 2) 2
  rejectIf (1 < flags ∨ anyNonzero (slice bytes (offset + 8) 4) = true)
    ⟨.malformedTokenizerMetadata, "tokenizer entry flags are invalid"⟩
  pure
    { roleId := UInt16.ofNat (leAt bytes offset 2)
      required := flags ≠ 0
      genericKeyId := UInt16.ofNat (leAt bytes (offset + 4) 2)
      occurrence := UInt16.ofNat (leAt bytes (offset + 6) 2) }

/-- The entry loop of `parse_payload`. -/
def parseEntries (bytes : List UInt8) (offset : Nat) :
    Nat → Except MlError (List TokenizerEntry)
  | 0 => .ok []
  | count + 1 => do
      let entry ← parseEntry bytes offset
      let rest ← parseEntries bytes (offset + 12) count
      pure (entry :: rest)

/-- `parse_payload`. -/
def parsePayload (bytes : List UInt8) : Except MlError (TokenizerKind × List TokenizerEntry) := do
  rejectIf (bytes.length < 20 ∨ maxTokenizerBytes < bytes.length ∨ slice bytes 0 8 ≠ magic)
    ⟨.malformedTokenizerMetadata, "tokenizer metadata header is invalid"⟩
  rejectIf (leAt bytes 8 2 ≠ version ∨ leAt bytes 10 2 ≠ 0 ∨ leAt bytes 13 1 ≠ 0 ∨
      anyNonzero (slice bytes 16 4) = true)
    ⟨.malformedTokenizerMetadata, "tokenizer metadata header is invalid"⟩
  let kind ← tokenizerKindFromId (leAt bytes 12 1)
  let count := leAt bytes 14 2
  rejectIf (20 + count * 12 ≠ bytes.length)
    ⟨.malformedTokenizerMetadata, "tokenizer metadata length does not match entry count"⟩
  let entries ← parseEntries bytes 20 count
  pure (kind, entries)

/-- `resolve_value`. -/
def resolveValue (validated : Validated) (keyId occurrence : UInt16) :
    Except MlError ResolvedValue := do
  let missing : MlError :=
    ⟨.missingTokenizerReference, "tokenizer canonical reference is absent"⟩
  let index ← okOr (nthOccurrence validated.blocks keyId occurrence) missing
  let block ← okOr validated.blocks[index]? missing
  rejectIf (block.continuation = true)
    ⟨.missingTokenizerReference, "continuation tokenizer arrays are unsupported"⟩
  let range ← ofV06 (validated.payloadRange index)
  pure ⟨index, block, range⟩

/-- The loop over the entries in `parse`. -/
def resolveEntries (validated : Validated) (kind : TokenizerKind) :
    Option UInt16 → Resolved → List TokenizerEntry → Except MlError Resolved
  | _, resolved, [] => .ok resolved
  | previous, resolved, entry :: rest => do
      rejectIf (∃ role ∈ previous, entry.roleId ≤ role)
        ⟨if previous = some entry.roleId then .duplicateTokenizerRole
          else .malformedTokenizerMetadata, "tokenizer roles must be strictly sorted"⟩
      match TokenizerRole.fromId entry.roleId with
      | none => do
          rejectIf (entry.required = true)
            ⟨.missingTokenizerReference, "unknown required tokenizer role"⟩
          resolveEntries validated kind (some entry.roleId) resolved rest
      | some role => do
          rejectIf (entry.required ≠ role.isRequired kind)
            ⟨.malformedTokenizerMetadata, "tokenizer role requiredness is invalid"⟩
          rejectIf ((resolved role).isSome = true)
            ⟨.duplicateTokenizerRole, "tokenizer role occurs more than once"⟩
          let value ← resolveValue validated entry.genericKeyId entry.occurrence
          resolveEntries validated kind (some entry.roleId)
            (Function.update resolved role (some value)) rest

/-! ### The checks of the blocks -/

/-- A text that holds no zero byte. -/
def IsText (bytes : List UInt8) : Prop := (fromUtf8 bytes).isSome = true ∧ 0 ∉ bytes

instance (bytes : List UInt8) : Decidable (IsText bytes) :=
  inferInstanceAs (Decidable (_ ∧ _))

/-- `validate_text_pool`. -/
def validateTextPool (block : Block) (bytes : List UInt8) : Except MlError Unit := do
  rejectIf (block.semantic ≠ .opaqueBytes ∨ block.physical ≠ .array ∨ block.bitWidth ≠ 8 ∨
      64 * 1024 * 1024 < bytes.length)
    ⟨.metadataTypeMismatch, "token text pool must be canonical byte data"⟩
  rejectIf (¬ IsText bytes) ⟨.invalidTokenText, "token text pool is not valid UTF-8"⟩

/-- The loop of `validate_offsets`, from an offset and where the token before it ends. -/
def checkOffsets (bytes pool : List UInt8) : Nat → Nat → Nat → Except MlError Unit
  | 0, _, _ => .ok ()
  | remaining + 1, index, start => do
      let stop := leAt bytes (index * 8) 8
      rejectIf (stop < start ∨ maxTokenBytes < stop - start ∨ pool.length < stop)
        ⟨.invalidTokenText, "token offset is invalid"⟩
      let text ← okOr (range? pool start stop)
        ⟨.invalidTokenText, "token offset is outside text pool"⟩
      rejectIf (¬ IsText text) ⟨.invalidTokenText, "token text is not valid UTF-8"⟩
      checkOffsets bytes pool remaining (index + 1) stop

/-- `validate_offsets`. -/
def validateOffsets (block : Block) (bytes pool : List UInt8) : Except MlError Nat := do
  rejectIf (block.semantic ≠ .unsigned ∨ block.physical ≠ .array ∨ block.bitWidth ≠ 64 ∨
      block.count < 2 ∨ bytes.length % 8 ≠ 0)
    ⟨.metadataTypeMismatch, "token offsets must be a u64 array"⟩
  rejectIf (leAt bytes 0 8 ≠ 0) ⟨.invalidTokenText, "token offsets must start at zero"⟩
  checkOffsets bytes pool (block.count - 1) 1 0
  pure (block.count - 1)

/-- `optional_array`. -/
def optionalArray (value : Option ResolvedValue) (count : Nat) (isFloat : Bool) :
    Except MlError (Option CheckedRange) :=
  match value with
  | none => .ok none
  | some value => do
      rejectIf (value.block.physical ≠ .array ∨ value.block.count ≠ count ∨
          (isFloat = true ∧ value.block.semantic ≠ .float) ∨
          (isFloat = false ∧ value.block.semantic ≠ .unsigned) ∨
          ¬ ((isFloat = true ∧ value.block.bitWidth ∈ [32, 64]) ∨
            (isFloat = false ∧ value.block.bitWidth ∈ [8, 16, 32, 64])))
        ⟨.tokenizerArrayLengthMismatch, "tokenizer parallel array is incompatible"⟩
      pure (some value.range)

/-- An unsigned number of one, two, four or eight bytes. -/
def unsignedOfWidth (width : Nat) (bytes : List UInt8) : Option Nat :=
  if width ∈ [1, 2, 4, 8] then some (ofLeBytes bytes) else none

/-- The loop of `validate_token_types`. -/
def checkTokenTypes (bytes : List UInt8) (width : Nat) : Nat → Nat → Except MlError Unit
  | 0, _ => .ok ()
  | remaining + 1, index => do
      let element ← okOr (range? bytes (index * width) (index * width + width))
        ⟨.invalidTokenType, "token type is truncated"⟩
      let value ← okOr (unsignedOfWidth width element)
        ⟨.invalidTokenType, "token type width is invalid"⟩
      rejectIf (6 < value) ⟨.invalidTokenType, "token type is outside pinned llama.cpp domain"⟩
      checkTokenTypes bytes width remaining (index + 1)

/-- `validate_token_types`. -/
def validateTokenTypes (types : CheckedRange) (tokenCount : Nat) : Except MlError Unit := do
  rejectIf (tokenCount = 0) ⟨.invalidTokenType, "token type array is empty"⟩
  checkTokenTypes types.bytes (types.bytes.length / tokenCount) tokenCount 0

/-- `required_u32_array`. -/
def requiredU32Array (value : Option ResolvedValue) (maxCount : Nat) :
    Except MlError CheckedRange := do
  let value ← okOr value ⟨.missingTokenizerReference, "required merge array is absent"⟩
  rejectIf (value.block.semantic ≠ .unsigned ∨ value.block.physical ≠ .array ∨
      value.block.bitWidth ≠ 32 ∨ maxCount < value.block.count ∨
      value.range.bytes.length ≠ value.block.count * 4)
    ⟨.metadataTypeMismatch, "merge IDs must be a bounded u32 array"⟩
  pure value.range

/-- The loop of `validate_merge_ids`. -/
def checkMergeIds (left right : List UInt8) (tokenCount : Nat) : Nat → Nat → Except MlError Unit
  | 0, _ => .ok ()
  | remaining + 1, index => do
      rejectIf (tokenCount ≤ leAt left (index * 4) 4 ∨ tokenCount ≤ leAt right (index * 4) 4)
        ⟨.invalidMergeTable, "merge ID is outside the vocabulary"⟩
      checkMergeIds left right tokenCount remaining (index + 1)

/-- `validate_merge_ids`. -/
def validateMergeIds (left right : CheckedRange) (tokenCount : Nat) : Except MlError Unit :=
  checkMergeIds left.bytes right.bytes tokenCount (left.bytes.length / 4) 0

/-- `decode_unsigned_scalar`. -/
def decodeUnsignedScalar (value : ResolvedValue) : Except MlError Nat := do
  rejectIf (value.block.semantic ≠ .unsigned ∨ value.block.physical ≠ .scalar ∨
      value.block.count ≠ 1 ∨ value.block.bitWidth ∉ [8, 16, 32, 64])
    ⟨.metadataTypeMismatch, "special token must be an unsigned scalar"⟩
  pure (ofLeBytes value.range.bytes)

/-- `required_unsigned_scalar`. -/
def requiredUnsignedScalar (value : Option ResolvedValue) : Except MlError Nat := do
  let value ← okOr value ⟨.missingTokenizerReference, "required tokenizer scalar is absent"⟩
  decodeUnsignedScalar value

/-- `optional_utf8_payload`. -/
def optionalUtf8Payload (value : Option ResolvedValue) : Except MlError (Option CheckedRange) :=
  match value with
  | none => .ok none
  | some value => do
      rejectIf (value.block.semantic ≠ .opaqueBytes ∨ value.block.physical ≠ .array ∨
          value.block.bitWidth ≠ 8 ∨ maxChatTemplateBytes < value.range.bytes.length ∨
          (fromUtf8 value.range.bytes).isSome = false)
        ⟨.invalidTokenText, "chat template must be bounded UTF-8 bytes"⟩
      pure (some value.range)

/-- The little-endian `u32` values of the whole chunks of four bytes. -/
def chunks4 (bytes : List UInt8) : List Nat :=
  (List.range (bytes.length / 4)).map fun index => leAt bytes (index * 4) 4

/-- `optional_u32_array`. -/
def optionalU32Array (value : Option ResolvedValue) (tokenCount : Nat) :
    Except MlError (Option CheckedRange) :=
  match value with
  | none => .ok none
  | some value => do
      rejectIf (value.block.semantic ≠ .unsigned ∨ value.block.physical ≠ .array ∨
          value.block.bitWidth ≠ 32 ∨ tokenCount < value.block.count ∨
          value.range.bytes.length ≠ value.block.count * 4)
        ⟨.tokenizerArrayLengthMismatch, "tokenizer special-ID array is incompatible"⟩
      rejectIf (∃ id ∈ chunks4 value.range.bytes, tokenCount ≤ id)
        ⟨.invalidSpecialTokenId, "tokenizer special-ID array contains an out-of-range ID"⟩
      pure (some value.range)

/-- The roles of the special tokens, in the order of `parse`. -/
def specialRoles : List (TokenizerRole × SpecialToken) :=
  [(.bosId, .bos), (.eosId, .eos), (.unkId, .unk), (.padId, .pad)]

/-- The loop over the special tokens in `parse`. -/
def parseSpecials (resolved : Resolved) (tokenCount : Nat) :
    List (TokenizerRole × SpecialToken) → Except MlError (List (SpecialToken × Nat))
  | [] => .ok []
  | (role, special) :: rest =>
      match resolved role with
      | none => parseSpecials resolved tokenCount rest
      | some value => do
          let id ← decodeUnsignedScalar value
          rejectIf (tokenCount ≤ id)
            ⟨.invalidSpecialTokenId, "special token ID is outside the vocabulary"⟩
          let specials ← parseSpecials resolved tokenCount rest
          pure ((special, id) :: specials)

/-! ### The parser -/

/-- What `parse` does before it checks the blocks. -/
def parseRoles (validated : Validated) (bootstrap : Bootstrap) :
    Except MlError (TokenizerKind × Resolved) := do
  let region ← okOr (bootstrap.region .tokenizerMetadata)
    ⟨.missingTokenizerReference, "tokenizer metadata role is absent"⟩
  let block ← okOr validated.blocks[region.blockIndex]?
    ⟨.missingTokenizerReference, "tokenizer metadata block index is absent"⟩
  rejectIf (block.semantic ≠ .opaqueBytes ∨ block.physical ≠ .array ∨ block.bitWidth ≠ 8 ∨
      block.continuation = true)
    ⟨.malformedTokenizerMetadata,
      "tokenizer metadata must be a non-continuing opaque byte array"⟩
  let (kind, entries) ← parsePayload region.range.bytes
  let resolved ← resolveEntries validated kind none (fun _ => none) entries
  pure (kind, resolved)

/-- The check of the types, of the kinds that have it. -/
def validateKindTypes (kind : TokenizerKind) (types : Option CheckedRange) (tokenCount : Nat) :
    Except MlError Unit :=
  match types with
  | some types => if isGpt2 kind = true then validateTokenTypes types tokenCount else .ok ()
  | none => .ok ()

/-- The merge arrays, of the kinds that have them. -/
def parseMerges (kind : TokenizerKind) (resolved : Resolved) (tokenCount : Nat) :
    Except MlError (Option CheckedRange × Option CheckedRange) :=
  if isGpt2 kind = true then do
    let left ← requiredU32Array (resolved .mergeLeftIds) maxMerges
    let right ← requiredU32Array (resolved .mergeRightIds) maxMerges
    rejectIf (left.bytes.length ≠ right.bytes.length)
      ⟨.invalidMergeTable, "merge arrays have different lengths"⟩
    validateMergeIds left right tokenCount
    pure (some left, some right)
  else .ok (none, none)

/-- A scalar of the kinds that have it, read as an identity or a flag. -/
def gpt2Scalar {α : Type} (kind : TokenizerKind) (value : Option ResolvedValue)
    (read : Nat → Except MlError α) : Except MlError (Option α) :=
  if isGpt2 kind = true then do
    let scalar ← requiredUnsignedScalar value
    let result ← read scalar
    pure (some result)
  else .ok none

/-- `ignore_merges` in `parse`. -/
def parseIgnoreMerges (kind : TokenizerKind) (value : Option ResolvedValue) :
    Except MlError (Option Bool) :=
  if kind = .gpt2BpeByteLevel then do
    let scalar ← requiredUnsignedScalar value
    pure (some (decide (scalar ≠ 0)))
  else
    match value with
    | none => .ok none
    | some value => do
        let scalar ← decodeUnsignedScalar value
        pure (some (decide (scalar ≠ 0)))

/-- `TokenizerMetadata::parse`. -/
def parse (validated : Validated) (bootstrap : Bootstrap) : Except MlError TokenizerMetadata := do
  let (kind, resolved) ← parseRoles validated bootstrap
  let textPool ← okOr (resolved .tokenTextBytes)
    ⟨.missingTokenizerReference, "token text bytes are missing"⟩
  let offsets ← okOr (resolved .tokenOffsets)
    ⟨.missingTokenizerReference, "token offsets are missing"⟩
  validateTextPool textPool.block textPool.range.bytes
  let tokenCount ← validateOffsets offsets.block offsets.range.bytes textPool.range.bytes
  rejectIf (maxVocabulary < tokenCount)
    ⟨.tokenizerArrayLengthMismatch, "token vocabulary exceeds profile maximum"⟩
  let scores ← optionalArray (resolved .tokenScores) tokenCount true
  let types ← optionalArray (resolved .tokenTypes) tokenCount false
  validateKindTypes kind types tokenCount
  let merges ← parseMerges kind resolved tokenCount
  let model ← gpt2Scalar kind (resolved .tokenizerModelIdentity) TokenizerModel.fromValue
  let preTokenizer ← gpt2Scalar kind (resolved .preTokenizerIdentity) preTokenizerFromValue
  let addBos ← gpt2Scalar kind (resolved .addBos) (fun scalar => .ok (decide (scalar ≠ 0)))
  let ignoreMerges ← parseIgnoreMerges kind (resolved .ignoreMerges)
  let chatTemplate ← optionalUtf8Payload (resolved .chatTemplate)
  let tokenFlags ← optionalArray (resolved .tokenFlags) tokenCount false
  let specialIds ← optionalU32Array (resolved .specialTokenIds) tokenCount
  let specials ← parseSpecials resolved tokenCount specialRoles
  pure
    { kind
      tokenCount
      textPool := textPool.range
      offsets := offsets.range
      scores
      types
      mergeLeftIds := merges.1
      mergeRightIds := merges.2
      model
      preTokenizer
      addBos
      ignoreMerges
      chatTemplate
      tokenFlags
      specialIds
      specials }

/-! ### Accessors -/

section Accessors

variable (metadata : TokenizerMetadata)

/-- `offset`. -/
def offset (index : Nat) : Option Nat :=
  (range? metadata.offsets.bytes (index * 8) (index * 8 + 8)).map ofLeBytes

/-- `token_bytes`. -/
def tokenBytes (index : Nat) : Option (List UInt8) :=
  if metadata.tokenCount ≤ index then none
  else do
    let start ← metadata.offset index
    let stop ← metadata.offset (index + 1)
    range? metadata.textPool.bytes start stop

/-- `token_text`. -/
def tokenText (index : Nat) : Option String := do
  let bytes ← metadata.tokenBytes index
  fromUtf8 bytes

/-- `token_flags`. -/
def tokenFlagsAt (index : Nat) : Option UInt8 := do
  let range ← metadata.tokenFlags
  if metadata.tokenCount ≤ index then none else range.bytes[index]?

/-- `special_ids`. -/
def specialIdList : Option (List Nat) := metadata.specialIds.map fun range => chunks4 range.bytes

/-- `merge_count`. -/
def mergeCount : Nat := (metadata.mergeLeftIds.map fun range => range.bytes.length / 4).getD 0

/-- `merge_pair`. -/
def mergePair (index : Nat) : Option (Nat × Nat) := do
  let left ← metadata.mergeLeftIds
  let right ← metadata.mergeRightIds
  let leftId ← range? left.bytes (index * 4) (index * 4 + 4)
  let rightId ← range? right.bytes (index * 4) (index * 4 + 4)
  some (ofLeBytes leftId, ofLeBytes rightId)

/-- A float of four or eight bytes. -/
def floatOfWidth (width : Nat) (bits : Nat) : Option Float :=
  match width with
  | 4 => some (Float32.ofBits (UInt32.ofNat bits)).toFloat
  | 8 => some (Float.ofBits (UInt64.ofNat bits))
  | _ => none

/-- `score`. -/
def score (index : Nat) : Option Float := do
  let range ← metadata.scores
  if metadata.tokenCount ≤ index then none
  else do
    let width := range.bytes.length / metadata.tokenCount
    let element ← range? range.bytes (index * width) (index * width + width)
    floatOfWidth width (ofLeBytes element)

/-- `token_type`. -/
def tokenType (index : Nat) : Option Nat := do
  let range ← metadata.types
  if metadata.tokenCount ≤ index then none
  else do
    let width := range.bytes.length / metadata.tokenCount
    let element ← range? range.bytes (index * width) (index * width + width)
    unsignedOfWidth width element

end Accessors

end TokenizerMetadata

end VBuf.Ml
