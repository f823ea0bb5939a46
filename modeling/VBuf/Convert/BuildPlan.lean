import Mathlib.Data.List.Sort
import Mathlib.Data.List.Dedup
import VBuf.Lib.Reader
import VBuf.Lib.Utf8

/-!
# The conversion plan as the orchestrator writes it

`build_plan` checks a manifest against the source file and its parsed artifact
and packs what the native converter needs into one byte string.  The conversions
of JSON values and the digest are parameters; every check and every field is not.
-/

namespace VBuf.Convert

open VBuf.Lib VBuf.Lib.Reader

/-- The exceptions of `build_plan`. -/
inductive PyError
  | valueError (text : String)
  | keyError (key : String)
  | structError
  | memoryError
  | conversion (text : String)
  deriving DecidableEq, Repr

/-- The built-in conversions of a JSON value: `int`, `float` by its bits, `str`
and `bool`. -/
structure Conversions (Value : Type) where
  int : Value → Except PyError Int
  float : Value → Except PyError UInt64
  str : Value → Except PyError String
  bool : Value → Bool

/-- A row of `tensor_plans`. -/
structure TensorPlan where
  sourceName : String
  targetName : String
  sourceOffset : Int
  sourcePayloadBytes : Int
  sourceShape : List Int
  targetKeyId : Int
  targetOccurrence : Int
  targetOrder : Int
  payloadAction : String
  targetRepresentation : String
  deriving DecidableEq, Repr

/-- A row of `model_metadata_plan`. -/
structure MetadataRow (Value : Type) where
  target : String
  sourceValue : Value

/-- `tokenizer_conversion_plan`. -/
structure TokenizerPlan (Value : Type) where
  kind : String
  modelId : Int
  preTokenizerId : Int
  mergeLeftIds : List Value
  mergeRightIds : List Value
  addBos : Value

/-- `moe_plan`. -/
structure MoeManifest (Value : Type) where
  expertCount : Value
  activeExpertCount : Value
  layerCount : Value
  sharedExpertCount : Value
  sharedExperts : Value

/-- The manifest, as far as `build_plan` reads it. -/
structure Manifest (Value : Type) where
  identitySize : Int
  identitySha256 : String
  profileVersion : String
  consumerCommit : String
  conversionReadiness : List String
  placement : String
  baseShift : Option Int
  tensorPlans : List TensorPlan
  tokenizer : TokenizerPlan Value
  modelMetadata : List (MetadataRow Value)
  moePlan : Option (MoeManifest Value)

/-- A tensor of the parsed artifact. -/
structure SourceTensor where
  name : String
  absoluteStart : Int
  payloadSize : Option Int
  deriving DecidableEq, Repr

/-- The parsed artifact, as far as `build_plan` reads it. -/
structure Artifact (Value : Type) where
  tensors : List SourceTensor
  tokens : Option (List String)
  tokenType : Option (List Value)
  merges : Option (List String)
  bosTokenId : Option Value
  eosTokenId : Option Value
  paddingTokenId : Option Value
  chatTemplate : Option String

def planMagic : List UInt8 := [0x56, 0x42, 0x55, 0x46, 0x32, 0x30, 0x50, 0x4c]

def planVersion : Nat := 2

def tensorKeyId : Int := 0x0200

def pinnedCommit : String := "4c1a0af40d88c7fbb3b15c85bf2e8016d1d5b64c"

/-- `sys.maxsize`. -/
def maxSize : Nat := 2 ^ 63 - 1

/-- `REPRESENTATIONS`. -/
def representations : String → Option Nat
  | "CanonicalPrimitive" => some 0
  | "BF16" => some 1
  | "GGML_Q8_0" => some 2
  | "GGML_Q4_0" => some 3
  | "GGML_Q2_K" => some 4
  | "GGML_IQ1_S" => some 5
  | "GGML_Q4_K" => some 6
  | "GGML_IQ4_NL" => some 7
  | "GGML_IQ4_XS" => some 8
  | "GGML_Q3_K" => some 9
  | "GGML_IQ2_XXS" => some 10
  | "GGML_IQ2_XS" => some 11
  | "GGML_IQ2_S" => some 12
  | "GGML_Q5_K" => some 13
  | "GGML_Q6_K" => some 14
  | _ => none

/-- `METADATA_IDS`. -/
def metadataIds : String → Option Nat
  | "Architecture" => some 1
  | "ContextLength" => some 2
  | "EmbeddingLength" => some 3
  | "LayerCount" => some 4
  | "HeadCount" => some 5
  | "FeedForwardLength" => some 6
  | "NormalizationEpsilon" => some 7
  | "RopeTheta" => some 8
  | "KVHeadCount" => some 9
  | "KeyHeadDimension" => some 10
  | "ValueHeadDimension" => some 11
  | _ => none

/-- The role ids of the special tokens: `BosId`, `EosId` and `PadId`. -/
def specialRoles : List Nat := [5, 6, 8]

/-- A digit of `hexdigest`. -/
def hexDigit (value : Nat) : Char :=
  if value < 10 then Char.ofNat (48 + value) else Char.ofNat (87 + value)

/-- `hexdigest`. -/
def hexdigest (digest : List UInt8) : String :=
  String.ofList (digest.flatMap fun byte =>
    [hexDigit (byte.toNat / 16), hexDigit (byte.toNat % 16)])

/-- The value of a hexadecimal digit of either case. -/
def hexValue (c : Char) : Option Nat :=
  if 48 ≤ c.toNat ∧ c.toNat ≤ 57 then some (c.toNat - 48)
  else if 97 ≤ c.toNat ∧ c.toNat ≤ 102 then some (c.toNat - 87)
  else if 65 ≤ c.toNat ∧ c.toNat ≤ 70 then some (c.toNat - 55)
  else none

/-- An ASCII blank, which `fromhex` skips between bytes. -/
def isBlank (c : Char) : Bool := c.toNat = 32 ∨ (9 ≤ c.toNat ∧ c.toNat ≤ 13)

/-- The loop of `bytes.fromhex`. -/
def fromhexChars : List Char → Option (List UInt8)
  | [] => some []
  | [c] => if isBlank c then some [] else none
  | high :: low :: rest =>
      if isBlank high then fromhexChars (low :: rest)
      else do
        let upper ← hexValue high
        let lower ← hexValue low
        let bytes ← fromhexChars rest
        pure (UInt8.ofNat (16 * upper + lower) :: bytes)

/-- `bytes.fromhex`. -/
def fromhex (text : String) : Except PyError (List UInt8) :=
  okOr (fromhexChars text.toList)
    (.valueError "non-hexadecimal number found in fromhex() arg")

/-- `struct.pack` of one unsigned little-endian number. -/
def pack (width : Nat) (value : Int) : Except PyError (List UInt8) := do
  rejectIf (value < 0 ∨ (256 ^ width : Nat) ≤ value) .structError
  pure (leBytes width value.toNat)

/-- `blob`. -/
def blob (value : List UInt8) : Except PyError (List UInt8) :=
  concat [pack 8 value.length, .ok value]

/-- `int(flag)`. -/
def flag (value : Bool) : Int := if value then 1 else 0

section

variable {Value : Type} (python : Conversions Value)

/-- `by_name.get(name)`: of several tensors of one name the last one stays. -/
def byName (artifact : Artifact Value) (name : String) : Option SourceTensor :=
  artifact.tensors.reverse.find? (fun tensor => tensor.name = name)

/-- The source identity and the policy of the manifest. -/
def checkPolicy (size : Nat) (digest : List UInt8) (manifest : Manifest Value)
    (integrity : String) : Except PyError Unit := do
  rejectIf (manifest.identitySize ≠ size ∨ manifest.identitySha256 ≠ hexdigest digest)
    (.valueError "source identity does not match manifest")
  rejectIf (manifest.profileVersion ≠ "vbuf-ml-0.1" ∨ manifest.consumerCommit ≠ pinnedCommit)
    (.valueError "manifest profile or pinned consumer revision is stale")
  rejectIf (manifest.conversionReadiness ≠ ["READY_FOR_CONVERSION"])
    (.valueError "manifest is not conversion-ready")
  rejectIf (manifest.placement ∉ ["LAYER_MAJOR_ROLE_ORDER", "DEEPSEEK_HOT_ROLE_ORDER"] ∨
      ¬ (3 ≤ manifest.baseShift.getD (-1) ∧ manifest.baseShift.getD (-1) ≤ 8))
    (.valueError "manifest placement or BaseShift policy is not qualified")
  rejectIf (integrity ≠ "none")
    (.valueError "Step 20 currently supports only --integrity none")

/-- `plans`: the tensor rows in target order. -/
def plans (manifest : Manifest Value) : List TensorPlan :=
  manifest.tensorPlans.insertionSort fun a b => a.targetOrder ≤ b.targetOrder

/-- The checks of one tensor row. -/
def checkRow (artifact : Artifact Value) (row : TensorPlan) : Except PyError Unit := do
  let mismatch : PyError := .valueError ("manifest tensor name mismatch: " ++ row.sourceName)
  let tensor ← okOr (byName artifact row.sourceName) mismatch
  rejectIf (row.targetName ≠ row.sourceName) mismatch
  rejectIf (row.sourceOffset ≠ tensor.absoluteStart ∨
      some row.sourcePayloadBytes ≠ tensor.payloadSize)
    (.valueError ("manifest source range mismatch: " ++ row.sourceName))
  rejectIf (row.targetKeyId ≠ tensorKeyId ∨ row.targetOccurrence ≠ row.targetOrder)
    (.valueError "manifest tensor identity mismatch")
  rejectIf (row.payloadAction ≠ "COPY_BYTES" ∨ representations row.targetRepresentation = none)
    (.valueError "manifest tensor action or representation is unsupported")

/-- The tensor rows against the artifact. -/
def checkTensors (artifact : Artifact Value) (manifest : Manifest Value) :
    Except PyError Unit := do
  rejectIf ((plans manifest).length ≠ (artifact.tensors.map SourceTensor.name).dedup.length)
    (.valueError "manifest tensor count mismatch")
  (plans manifest).forM (checkRow artifact)

/-- The rows that become metadata, by key. -/
def metadataRows (manifest : Manifest Value) : List (Nat × Value) :=
  (manifest.modelMetadata.filterMap fun row =>
    (metadataIds row.target).map fun keyId => (keyId, row.sourceValue)).insertionSort
      fun a b => a.1 ≤ b.1

/-- The kind and the encoding of a metadata value. -/
def encodeValue (keyId : Nat) (value : Value) : Except PyError (Nat × List UInt8) :=
  if keyId = 1 then do
    let text ← python.str value
    pure (1, utf8 text)
  else if keyId = 7 ∨ keyId = 8 then do
    let bits ← python.float value
    pure (3, leBytes 8 bits.toNat)
  else do
    let number ← python.int value
    let bytes ← pack 8 number
    pure (2, bytes)

/-- One metadata row. -/
def writeMetadata (row : Nat × Value) : Except PyError (List UInt8) := do
  let (kind, bytes) ← encodeValue python row.1 row.2
  concat [pack 2 row.1, pack 1 (flag (row.1 ∈ [1, 2, 3, 4, 5])), pack 1 kind, blob bytes]

/-- `int(value)`, packed. -/
def packInt (width : Nat) (value : Value) : Except PyError (List UInt8) := do
  let number ← python.int value
  pack width number

/-- `offsets`: where each token ends in the text pool. -/
def tokenOffsets (tokens : List String) : List Nat :=
  tokens.scanl (fun offset token => offset + (utf8 token).length) 0

/-- One special token. -/
def writeSpecial (special : Nat × Value) : Except PyError (List UInt8) :=
  concat [pack 1 special.1, packInt python 8 special.2]

/-- One tensor row. -/
def writeTensor (row : TensorPlan) : Except PyError (List UInt8) := do
  let code ← okOr (representations row.targetRepresentation) (.keyError row.targetRepresentation)
  concat [blob (utf8 row.targetName), pack 1 row.sourceShape.length,
    concat (row.sourceShape.map (pack 8)), pack 1 code, pack 8 row.sourceOffset,
    pack 8 row.sourcePayloadBytes, pack 4 row.targetOrder]

/-- The parameters of the experts, after their presence flag. -/
def writeMoe : Option (MoeManifest Value) → Except PyError (List UInt8)
  | none => pack 1 0
  | some moe =>
      concat [pack 1 1, packInt python 4 moe.expertCount, packInt python 4 moe.activeExpertCount,
        packInt python 4 moe.layerCount, packInt python 4 moe.sharedExpertCount,
        pack 1 (flag (python.bool moe.sharedExperts))]

/-- `build_plan`, of a source file with this size and digest. -/
def buildPlan (size : Nat) (digest : Vector UInt8 32) (manifest : Manifest Value)
    (artifact : Artifact Value) (integrity : String) : Except PyError (List UInt8) := do
  checkPolicy size digest.toList manifest integrity
  checkTensors artifact manifest
  let tokenizer := manifest.tokenizer
  rejectIf (tokenizer.kind ≠ "Gpt2BpeQwen2" ∨ tokenizer.modelId ≠ 1 ∨
      tokenizer.preTokenizerId ∉ [1, 2])
    (.valueError "unsupported tokenizer conversion plan")
  let tokens ← okOr artifact.tokens (.keyError "tokenizer.ggml.tokens")
  let tokenTypes ← okOr artifact.tokenType (.keyError "tokenizer.ggml.token_type")
  let merges ← okOr artifact.merges (.keyError "tokenizer.ggml.merges")
  let left := tokenizer.mergeLeftIds
  let right := tokenizer.mergeRightIds
  rejectIf (tokens.length ≠ tokenTypes.length ∨ merges.length ≠ left.length ∨
      left.length ≠ right.length)
    (.valueError "manifest tokenizer counts do not match source")
  let baseShift ← okOr manifest.baseShift (.keyError "base_shift")
  let hash ← fromhex manifest.identitySha256
  let offsets := tokenOffsets tokens
  let bos ← okOr artifact.bosTokenId (.keyError "tokenizer.ggml.bos_token_id")
  let eos ← okOr artifact.eosTokenId (.keyError "tokenizer.ggml.eos_token_id")
  let padding ← okOr artifact.paddingTokenId (.keyError "tokenizer.ggml.padding_token_id")
  let specials := specialRoles.zip [bos, eos, padding]
  let chat ← okOr artifact.chatTemplate (.keyError "tokenizer.chat_template")
  let out ← concat
    [.ok planMagic, pack 4 planVersion, pack 1 baseShift, pack 1 0, pack 2 0, pack 8 size, .ok hash,
      pack 2 (metadataRows manifest).length,
      concat ((metadataRows manifest).map (writeMetadata python)),
      blob (tokens.flatMap utf8), pack 8 offsets.length,
      concat (offsets.map fun (offset : Nat) => pack 8 offset),
      pack 8 tokenTypes.length, concat (tokenTypes.map (packInt python 4)),
      pack 8 left.length, concat (left.map (packInt python 4)),
      concat (right.map (packInt python 4)),
      pack 1 (flag (python.bool tokenizer.addBos)), pack 1 tokenizer.preTokenizerId,
      pack 1 specials.length, concat (specials.map (writeSpecial python)),
      blob (utf8 chat), pack 4 (plans manifest).length,
      concat ((plans manifest).map writeTensor), writeMoe python manifest.moePlan]
  rejectIf (maxSize < out.length) .memoryError
  pure out

end

end VBuf.Convert
