import VBuf.Lib.Reader
import VBuf.Lib.Utf8
import VBuf.Ml.Bootstrap
import VBuf.Ml.Source

/-!
# The source profile

A region lists the registered sources and binds blocks of the artifact to ranges
in them.  The writer checks that a bound source is registered; the reader also
checks the range against the size that this registry declares for it.
-/

namespace VBuf.Ml

open VBuf.Lib VBuf.Lib.Reader VBuf.Layout VBuf.V06

/-- A block of a key, bound to a range of a source. -/
abbrev SourceBinding := UInt16 × UInt16 × TensorRef

/-- `PersistentSourceMetadata`. -/
structure PersistentSourceMetadata where
  registry : SourceRegistry
  bindings : List SourceBinding
  deriving DecidableEq

/-- `SourceRegistry::checked_range` and `tensor_ref`. -/
def SourceRegistry.tensorRef (registry : SourceRegistry) (id : SourceId) (offset length : Nat) :
    Except SourceRangeError TensorRef := do
  let source ← okOr (registry.get id) .unknownSource
  source.tensorRef offset length

namespace SourceProfile

/-- `SOURCE_METADATA_MAGIC`: the bytes `VBVSRC` and two zeros. -/
def magic : List UInt8 := [0x56, 0x42, 0x56, 0x53, 0x52, 0x43, 0, 0]

/-- `SOURCE_METADATA_VERSION`. -/
def version : Nat := 1

/-- `MAX_SOURCE_METADATA_BYTES`. -/
def maxBytes : Nat := 16 * 1024 * 1024

/-! ### Writing -/

/-- The kind of a locator and its text. -/
def locatorBytes : SourceLocator → Nat × List UInt8
  | .selfArtifact => (0, [])
  | .file value => (1, utf8 value)
  | .http value => (2, utf8 value)

/-- One iteration of the hash loop of `encode_profile`. -/
def encodeHash (hash : SourceHash) : Except MlError (List UInt8) := do
  rejectIf (65535 < hash.value.length) ⟨.invalidSourceHash, "source hash is too large"⟩
  pure (leBytes 2 hash.algorithm ++ leBytes 2 hash.value.length ++ hash.value)

/-- The 32 bytes before the locator of a source. -/
def entryHeader (id size kind locatorLen hashCount : Nat) : List UInt8 :=
  leBytes 8 id ++ leBytes 8 size ++ leBytes 1 kind ++ leBytes 3 0 ++ leBytes 4 locatorLen ++
    leBytes 2 hashCount ++ leBytes 6 0

/-- One iteration of the source loop of `encode_profile`. -/
def encodeDescriptor (descriptor : SourceDescriptor) : Except MlError (List UInt8) := do
  mapErr (fun _ => ⟨.invalidSourceLocator, "source descriptor is malformed"⟩) descriptor.validate
  let (kind, locator) := locatorBytes descriptor.locator
  let size ← okOr descriptor.declaredSize
    ⟨.malformedSourceMetadata, "persistent source size is required"⟩
  rejectIf (4294967295 < locator.length)
    ⟨.malformedSourceMetadata, "source locator is too large"⟩
  rejectIf (65535 < descriptor.hashes.length)
    ⟨.malformedSourceMetadata, "source hash count is too large"⟩
  let hashes ← concat (descriptor.hashes.map encodeHash)
  pure (entryHeader descriptor.id.value size kind locator.length descriptor.hashes.length ++
    locator ++ hashes)

/-- The 32 bytes of a binding. -/
def bindingBytes (binding : SourceBinding) : List UInt8 :=
  leBytes 2 binding.1.toNat ++ leBytes 2 binding.2.1.toNat ++ leBytes 4 0 ++
    leBytes 8 binding.2.2.sourceId.value ++ leBytes 8 binding.2.2.offset ++
    leBytes 8 binding.2.2.length

/-- The binding loop of `encode_profile`, with the blocks seen. -/
def encodeBindings (registry : SourceRegistry) :
    List (UInt16 × UInt16) → List SourceBinding → Except MlError (List UInt8)
  | _, [] => .ok []
  | seen, binding :: rest => do
      rejectIf ((binding.1, binding.2.1) ∈ seen)
        ⟨.duplicateSourceBinding, "source binding occurs more than once"⟩
      rejectIf (registry.get binding.2.2.sourceId = none)
        ⟨.unknownRequiredRole, "source binding references an unknown source"⟩
      let tail ← encodeBindings registry (seen ++ [(binding.1, binding.2.1)]) rest
      pure (bindingBytes binding ++ tail)

/-- `encode_profile`. -/
def encodeProfile (registry : SourceRegistry) (bindings : List SourceBinding) :
    Except MlError (List UInt8) := do
  let sources ← concat (registry.descriptors.map encodeDescriptor)
  let table ← encodeBindings registry [] bindings
  let output := magic ++ leBytes 2 version ++ leBytes 2 0 ++
    leBytes 4 registry.descriptors.length ++ leBytes 4 bindings.length ++ leBytes 4 0 ++
    sources ++ table
  rejectIf (maxBytes < output.length)
    ⟨.malformedSourceMetadata, "source metadata exceeds bounded size"⟩
  pure output

/-! ### Reading -/

/-- One iteration of the hash loop of `parse_profile`. -/
def readHash : Reader MlError SourceHash := do
  let header ← takeBytes 4 ⟨.malformedSourceMetadata, "source hash header is truncated"⟩
  let value ← takeBytes (leAt header 2 2) ⟨.invalidSourceHash, "source hash is truncated"⟩
  pure { algorithm := leAt header 0 2, value }

/-- The locator of a kind. -/
def readLocator (kind : Nat) (bytes : List UInt8) : Except MlError SourceLocator :=
  match kind with
  | 0 =>
      if bytes = [] then .ok .selfArtifact
      else .error ⟨.invalidSourceLocator, "source locator kind is unsupported"⟩
  | 1 => do
      let value ← okOr (fromUtf8 bytes) ⟨.invalidSourceLocator, "file locator is not UTF-8"⟩
      pure (.file value)
  | 2 => do
      let value ← okOr (fromUtf8 bytes) ⟨.invalidSourceLocator, "HTTP locator is not UTF-8"⟩
      pure (.http value)
  | _ => .error ⟨.invalidSourceLocator, "source locator kind is unsupported"⟩

/-- One iteration of the source loop of `parse_profile`. -/
def readDescriptor : Reader MlError SourceDescriptor := do
  let header ← takeBytes 32 ⟨.malformedSourceMetadata, "source entry is truncated"⟩
  check (anyNonzero (slice header 17 3) = true ∨ anyNonzero (slice header 26 6) = true)
    ⟨.malformedSourceMetadata, "source entry reserved fields are non-zero"⟩
  let locatorBytes ← takeBytes (leAt header 20 4)
    ⟨.malformedSourceMetadata, "source locator is truncated"⟩
  let locator ← lift (readLocator (leAt header 16 1) locatorBytes)
  let hashes ← many readHash (leAt header 24 2)
  pure
    { id := ⟨leAt header 0 8⟩
      declaredSize := some (leAt header 8 8)
      locator
      hashes }

/-- The binding loop of `parse_profile`, with the blocks seen. -/
def readBindings (registry : SourceRegistry) :
    List (UInt16 × UInt16) → Nat → Reader MlError (List SourceBinding)
  | _, 0 => pure []
  | seen, count + 1 => do
      let entry ← takeBytes 32 ⟨.malformedSourceMetadata, "source binding is truncated"⟩
      check (anyNonzero (slice entry 4 4) = true)
        ⟨.malformedSourceMetadata, "source binding reserved fields are non-zero"⟩
      let keyId := UInt16.ofNat (leAt entry 0 2)
      let occurrence := UInt16.ofNat (leAt entry 2 2)
      check ((keyId, occurrence) ∈ seen)
        ⟨.duplicateSourceBinding, "source binding occurs more than once"⟩
      let reference ← lift (mapErr
        (fun _ => ⟨.malformedSourceMetadata, "source binding range is invalid"⟩)
        (registry.tensorRef ⟨leAt entry 8 8⟩ (leAt entry 16 8) (leAt entry 24 8)))
      let rest ← readBindings registry (seen ++ [(keyId, occurrence)]) count
      pure ((keyId, occurrence, reference) :: rest)

/-- What `parse_profile` reads behind the header. -/
def readBody (sourceCount bindingCount : Nat) : Reader MlError PersistentSourceMetadata := do
  let descriptors ← many readDescriptor sourceCount
  let registry ← lift (mapErr
    (fun _ => ⟨.malformedSourceMetadata, "source registry is invalid"⟩)
    (SourceRegistry.new descriptors))
  let bindings ← readBindings registry [] bindingCount
  pure { registry, bindings }

/-- `parse_profile` on the bytes of the region. -/
def parseBytes (bytes : List UInt8) : Except MlError PersistentSourceMetadata := do
  rejectIf (bytes.length < 24 ∨ maxBytes < bytes.length ∨ slice bytes 0 8 ≠ magic)
    ⟨.malformedSourceMetadata, "source metadata header is invalid"⟩
  rejectIf (leAt bytes 8 2 ≠ version)
    ⟨.unsupportedSourceMetadataVersion, "unsupported source metadata version"⟩
  rejectIf (anyNonzero (slice bytes 10 2) = true ∨ anyNonzero (slice bytes 20 4) = true)
    ⟨.malformedSourceMetadata, "source metadata reserved fields are non-zero"⟩
  let (metadata, cursor) ← readBody (leAt bytes 12 4) (leAt bytes 16 4) bytes 24
  rejectIf (cursor ≠ bytes.length)
    ⟨.malformedSourceMetadata, "source metadata has trailing bytes"⟩
  pure metadata

/-- `parse_profile`. -/
def parseProfile (bootstrap : Bootstrap) : Except MlError (Option PersistentSourceMetadata) :=
  match bootstrap.region .sourceMetadata with
  | none => .ok none
  | some region => do
      let metadata ← parseBytes region.range.bytes
      pure (some metadata)

end SourceProfile

end VBuf.Ml
