import VBuf.V06.Wire

/-!
# Profile errors

The error codes of the machine-learning profile and the conversion of a
canonical error into one.
-/

namespace VBuf.Ml

open VBuf.Lib VBuf.V06

/-- `MlErrorCode`. -/
inductive MlErrorCode
  | bootstrapNotFound
  | bootstrapDuplicate
  | malformedBootstrap
  | unsupportedProfileVersion
  | invalidBootstrapFlags
  | unknownRequiredRole
  | duplicateRole
  | missingRequiredRole
  | referencedRegionMissing
  | regionTypeMismatch
  | tensorDirectoryMissing
  | malformedTensorDirectory
  | unsupportedTensorDirectoryVersion
  | duplicateTensorName
  | invalidTensorName
  | invalidRank
  | invalidDimension
  | shapeOverflow
  | tensorReferenceMissing
  | unsupportedTensorRepresentation
  | tensorRepresentationMismatch
  | tensorPayloadSizeMismatch
  | invalidQuantizedShape
  | invalidQuantizedBlockCount
  | representationArithmeticOverflow
  | malformedQuantizationMetadata
  | quantizationMetadataMissing
  | invalidQuantizationMetadata
  | invalidDirectoryOrder
  | missingModelMetadata
  | malformedModelMetadata
  | missingRequiredMetadata
  | unsupportedMetadataKey
  | metadataValueOutOfRange
  | duplicateMetadataKey
  | metadataTypeMismatch
  | malformedTokenizerMetadata
  | tokenizerArrayLengthMismatch
  | invalidTokenText
  | invalidTokenType
  | invalidSpecialTokenId
  | unsupportedTokenizerKind
  | invalidTokenizerIdentity
  | invalidMergeTable
  | missingTokenizerReference
  | duplicateTokenizerRole
  | nestedDirectoryMissing
  | malformedNestedDirectory
  | unsupportedNestedDirectoryVersion
  | nestedChildReferenceMissing
  | nestedChildRangeInvalid
  | nestedChildNotCanonical
  | nestedChildOverlap
  | moeDirectoryMissing
  | malformedMoeDirectory
  | unsupportedMoeDirectoryVersion
  | moeExpertReferenceMissing
  | moeExpertIndexInvalid
  | malformedSourceMetadata
  | unsupportedSourceMetadataVersion
  | duplicateSourceBinding
  | invalidSourceLocator
  | invalidSourceHash
  | canonical (code : ErrorCode)
  deriving DecidableEq, Repr

/-- `MlError`. -/
structure MlError where
  code : MlErrorCode
  detail : String
  deriving DecidableEq, Repr

/-- `From<V06Error> for MlError`. -/
def MlError.ofV06 (error : V06.Error) : MlError :=
  ⟨.canonical error.code, "canonical v0.6 validation failed"⟩

end VBuf.Ml
