import VBuf.Ml.TensorDirectory

/-!
# Model metadata

The keys of the model description and the writer of the metadata directory,
which refers to one value block for each key.
-/

namespace VBuf.Ml

open VBuf.Lib VBuf.V06

/-- `ModelMetadataKey`. -/
inductive ModelMetadataKey
  | architecture
  | contextLength
  | embeddingLength
  | layerCount
  | headCount
  | feedForwardLength
  | normalizationEpsilon
  | ropeTheta
  | kvHeadCount
  | keyHeadDimension
  | valueHeadDimension
  deriving DecidableEq, Repr

namespace ModelMetadataKey

/-- `ModelMetadataKey::from_id`. -/
def fromId (id : Nat) : Option ModelMetadataKey :=
  match id with
  | 1 => some .architecture
  | 2 => some .contextLength
  | 3 => some .embeddingLength
  | 4 => some .layerCount
  | 5 => some .headCount
  | 6 => some .feedForwardLength
  | 7 => some .normalizationEpsilon
  | 8 => some .ropeTheta
  | 9 => some .kvHeadCount
  | 10 => some .keyHeadDimension
  | 11 => some .valueHeadDimension
  | _ => none

/-- `ModelMetadataKey::is_required`. -/
def isRequired : ModelMetadataKey → Bool
  | .architecture | .contextLength | .embeddingLength | .layerCount | .headCount => true
  | _ => false

end ModelMetadataKey

/-- `MetadataEntry`. -/
structure MetadataEntry where
  keyId : Nat
  required : Bool
  genericKeyId : UInt16
  occurrence : UInt16
  deriving DecidableEq, Repr

namespace ModelMetadata

/-- `METADATA_MAGIC`: the bytes `VBMLMD` and two zeros. -/
def magic : List UInt8 := [0x56, 0x42, 0x4d, 0x4c, 0x4d, 0x44, 0, 0]

/-- `METADATA_VERSION`. -/
def version : Nat := 1

/-- `MAX_METADATA_ENTRIES`. -/
def maxEntries : Nat := 256

/-- The eight bytes of an entry. -/
def entryBytes (entry : MetadataEntry) : List UInt8 :=
  leBytes 2 entry.keyId ++ leBytes 2 (if entry.required then 1 else 0) ++
    leBytes 2 entry.genericKeyId.toNat ++ leBytes 2 entry.occurrence.toNat

end ModelMetadata

end VBuf.Ml
