import VBuf.Lib.Reader
import VBuf.Ml.TensorDirectory

/-!
# Nested streams

A profile region lists child streams, each as a range of the payload of one parent
block.  `NestedDirectory::parse` validates every child, and keeps one list of the
ranges it has seen, whichever block they belong to.
-/

namespace VBuf.Ml

open VBuf.Lib VBuf.Lib.Reader VBuf.Layout VBuf.V06

/-- `NestedV06::from_parent_payload`. -/
def fromParentPayload (parent : Validated) (parentBlock relativeOffset length : Nat) :
    Except V06.Error (CheckedRange × Validated) := do
  rejectIf (length = 0)
    (V06.Error.global .lengthMismatch "nested vBuf range must be non-empty")
  let range ← parent.payloadSubrange parentBlock relativeOffset length
  let validated ← mapErr
    (fun _ => V06.Error.global .invalidNestedStream "nested range is not a canonical v0.6 stream")
    (parseV06 range.bytes)
  pure (range, validated)

/-- `NestedEntry`. -/
structure NestedEntry where
  name : String
  keyId : UInt16
  occurrence : UInt16
  childOffset : Nat
  childLength : Nat
  deriving DecidableEq, Repr

/-- `NestedChild`. -/
structure NestedChild where
  name : String
  keyId : UInt16
  occurrence : UInt16
  childLength : Nat
  range : CheckedRange
  validated : Validated
  deriving DecidableEq

namespace NestedDirectory

/-- `NESTED_DIRECTORY_MAGIC`: the bytes `VBTNEST` and a zero. -/
def magic : List UInt8 := [0x56, 0x42, 0x54, 0x4e, 0x45, 0x53, 0x54, 0]

/-- `NESTED_DIRECTORY_VERSION`. -/
def version : Nat := 1

/-- `MAX_NESTED_DIRECTORY_BYTES`. -/
def maxBytes : Nat := 16 * 1024 * 1024

/-- `MAX_NESTED_CHILDREN`. -/
def maxChildren : Nat := 1000000

/-- `MAX_NESTED_NAME_BYTES`. -/
def maxNameBytes : Nat := 4096

/-- One iteration of the entry loop of `parse_payload`. -/
def readEntry : Reader MlError NestedEntry := do
  let fixed ← takeBytes 24 ⟨.malformedNestedDirectory, "truncated nested directory entry"⟩
  check (leAt fixed 0 2 = 0 ∨ maxNameBytes < leAt fixed 0 2 ∨
      anyNonzero (slice fixed 2 2) = true)
    ⟨.malformedNestedDirectory, "nested entry header is invalid"⟩
  let nameBytes ← takeBytes (leAt fixed 0 2)
    ⟨.malformedNestedDirectory, "truncated nested child name"⟩
  let name ← require (fromUtf8 nameBytes) ⟨.invalidTensorName, "nested child name is not UTF-8"⟩
  pure
    { name
      keyId := UInt16.ofNat (leAt fixed 4 2)
      occurrence := UInt16.ofNat (leAt fixed 6 2)
      childOffset := leAt fixed 8 8
      childLength := leAt fixed 16 8 }

/-- `parse_payload`. -/
def parsePayload (bytes : List UInt8) : Except MlError (List NestedEntry) := do
  rejectIf (bytes.length < 20 ∨ maxBytes < bytes.length ∨ slice bytes 0 8 ≠ magic)
    ⟨.malformedNestedDirectory, "nested directory header is invalid"⟩
  rejectIf (leAt bytes 8 2 ≠ version)
    ⟨.unsupportedNestedDirectoryVersion, "unsupported nested directory version"⟩
  rejectIf (leAt bytes 10 2 ≠ 0 ∨ anyNonzero (slice bytes 16 4) = true)
    ⟨.malformedNestedDirectory, "nested directory reserved fields are non-zero"⟩
  rejectIf (maxChildren < leAt bytes 12 4)
    ⟨.malformedNestedDirectory, "nested child count exceeds profile maximum"⟩
  let (entries, cursor) ← many readEntry (leAt bytes 12 4) bytes 20
  rejectIf (cursor ≠ bytes.length)
    ⟨.malformedNestedDirectory, "nested directory has trailing bytes"⟩
  pure entries

/-- The parent block that an entry names, with its index. -/
def findTarget (parent : Validated) (entry : NestedEntry) : Except MlError (Nat × Block) := do
  let missing : MlError :=
    ⟨.nestedChildReferenceMissing, "nested child parent block reference is absent"⟩
  let index ← okOr (nthOccurrence parent.blocks entry.keyId entry.occurrence) missing
  let target ← okOr parent.blocks[index]? missing
  pure (index, target)

/-- The child stream of an entry. -/
def readChild (parent : Validated) (index : Nat) (entry : NestedEntry) :
    Except MlError NestedChild := do
  let (range, validated) ← mapErr
    (fun error => ⟨if error.code = .invalidNestedStream then .nestedChildNotCanonical
      else .nestedChildRangeInvalid, "nested child range or canonical stream is invalid"⟩)
    (fromParentPayload parent index entry.childOffset entry.childLength)
  pure
    { name := entry.name
      keyId := entry.keyId
      occurrence := entry.occurrence
      childLength := entry.childLength
      range
      validated }

/-- The error of overlapping children. -/
def overlapError : MlError := ⟨.nestedChildOverlap, "nested child ranges overlap"⟩

/-- The loop of `parse`, with the previous name and the ranges seen. -/
def parseChildren (parent : Validated) :
    Option String → List (Nat × Nat) → List NestedEntry → Except MlError (List NestedChild)
  | _, _, [] => .ok []
  | previous, occupied, entry :: rest => do
      rejectIf (∃ name ∈ previous, byteKey entry.name ≤ byteKey name)
        ⟨if previous = some entry.name then .duplicateTensorName else .invalidDirectoryOrder,
          "nested names must be unique and strictly sorted"⟩
      let (index, target) ← findTarget parent entry
      let childEnd := entry.childOffset + entry.childLength
      rejectIf (u64Bound ≤ childEnd)
        ⟨.nestedChildRangeInvalid, "nested child range overflows"⟩
      rejectIf (entry.childLength = 0 ∨ target.payloadLen < childEnd)
        ⟨.nestedChildRangeInvalid, "nested child range is outside its parent payload"⟩
      rejectIf (∃ range ∈ occupied, entry.childOffset < range.2 ∧ range.1 < childEnd) overlapError
      let child ← readChild parent index entry
      let children ← parseChildren parent (some entry.name)
        (occupied ++ [(entry.childOffset, childEnd)]) rest
      pure (child :: children)

/-- What `parse` does before its loop. -/
def parseEntries (parent : Validated) (bootstrap : Bootstrap) :
    Except MlError (List NestedEntry) := do
  let region ← okOr (bootstrap.region .nestedDirectory)
    ⟨.nestedDirectoryMissing, "bootstrap has no nested directory role"⟩
  let block ← okOr parent.blocks[region.blockIndex]?
    ⟨.nestedChildReferenceMissing, "nested directory block is absent"⟩
  rejectIf (block.semantic ≠ .opaqueBytes ∨ block.physical ≠ .array ∨ block.bitWidth ≠ 8 ∨
      block.continuation = true)
    ⟨.regionTypeMismatch, "nested directory must be a non-continuing opaque byte array"⟩
  parsePayload region.range.bytes

/-- `NestedDirectory::parse`. -/
def parse (parent : Validated) (bootstrap : Bootstrap) : Except MlError (List NestedChild) := do
  let entries ← parseEntries parent bootstrap
  parseChildren parent none [] entries

end NestedDirectory

end VBuf.Ml
