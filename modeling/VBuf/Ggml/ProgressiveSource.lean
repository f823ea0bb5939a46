import VBuf.Lib.LittleEndian
import VBuf.Lib.RelyGuarantee
import VBuf.Lib.SparseFile

/-!
# The progressive range source

`ProgressiveRangeSource` serves ranges of a remote payload from a sparse mirror
file and fetches the chunks that its coverage bitmap does not show yet.  The
bitmap is kept in memory and in a sidecar file after an 80-byte header.  Every
system call of the source is a call of the model, so that instances over the
same two files can interleave between any two of them.

Timestamps and metrics are left out: nothing reads them back.
-/

namespace VBuf.Ggml

open VBuf.Lib

/-! ### Calls -/

/-- The two files of a store. -/
inductive StoreFile
  | mirror
  | coverage
  deriving DecidableEq, Repr

/-- The contents of both files; a missing file is empty. -/
structure Store where
  mirror : List UInt8
  coverage : List UInt8
  deriving DecidableEq, Repr

namespace Store

def get (s : Store) : StoreFile → List UInt8
  | .mirror => s.mirror
  | .coverage => s.coverage

def set (s : Store) (file : StoreFile) (bytes : List UInt8) : Store :=
  match file with
  | .mirror => { s with mirror := bytes }
  | .coverage => { s with coverage := bytes }

@[simp] theorem get_set (s : Store) (file : StoreFile) (bytes : List UInt8) :
    (s.set file bytes).get file = bytes := by
  cases file <;> rfl

@[simp] theorem set_get (s : Store) (file : StoreFile) : s.set file (s.get file) = s := by
  cases file <;> rfl

end Store

structure RangeReadResult where
  requestedOffset : Nat := 0
  requestedLength : Nat := 0
  returnedBytes : Nat := 0
  statusCode : Nat := 0
  sourceId : String := ""
  error : String := ""
  deriving DecidableEq, Repr

/-- What a `read_range` leaves behind: its return value, the result record and
the destination. -/
structure RangeRead where
  returned : Bool
  result : RangeReadResult
  destination : List UInt8
  deriving DecidableEq, Repr

/-- The system calls, and the read of the remote source. -/
inductive StoreCall
  | openFile (file : StoreFile)
  | fstat (file : StoreFile)
  | ftruncate (file : StoreFile) (length : Nat)
  | pwrite (file : StoreFile) (bytes : List UInt8) (offset : Nat)
  | pread (file : StoreFile) (length offset : Nat)
  | remoteRead (offset length : Nat)
  deriving DecidableEq, Repr

/-- A write answers with its byte count and a read with its bytes; both are
zero on an error. -/
def StoreCall.Response : StoreCall → Type
  | .openFile _ => Bool
  | .fstat _ => Option Nat
  | .ftruncate _ _ => Bool
  | .pwrite _ _ _ => Nat
  | .pread _ _ _ => List UInt8
  | .remoteRead _ _ => RangeRead

abbrev StoreProgram (α : Type) := Program StoreCall StoreCall.Response α

def openFile (file : StoreFile) : StoreProgram Bool := .call (.openFile file) .done

def fstat (file : StoreFile) : StoreProgram (Option Nat) := .call (.fstat file) .done

def ftruncate (file : StoreFile) (length : Nat) : StoreProgram Bool :=
  .call (.ftruncate file length) .done

def remoteRead (offset length : Nat) : StoreProgram RangeRead :=
  .call (.remoteRead offset length) .done

/-- `write_at` and the sidecar writes: the whole piece, through short writes. -/
def positionedWrite (file : StoreFile) (source : List UInt8) (offset : Nat) : StoreProgram Bool :=
  if source = [] then pure true
  else .call (.pwrite file source offset) fun (count : Nat) =>
    if count = 0 then pure false
    else positionedWrite file (source.drop count) (offset + count)
termination_by source.length
decreasing_by
  rename_i hsource hcount
  have hlength := List.length_pos_iff.2 hsource
  rw [List.length_drop]
  omega

/-- `read_at` and the sidecar reads, through short reads. -/
def positionedRead (file : StoreFile) (length offset : Nat) : StoreProgram (Option (List UInt8)) :=
  if length = 0 then pure (some [])
  else .call (.pread file length offset) fun (bytes : List UInt8) =>
    if bytes = [] then pure none
    else do
      let rest ← positionedRead file (length - bytes.length) (offset + bytes.length)
      pure (rest.map (bytes ++ ·))
termination_by length
decreasing_by
  rename_i hbytes
  have hlength := List.length_pos_iff.2 hbytes
  omega

/-! ### Geometry -/

structure ProgressiveSourceIdentity where
  declaredSize : Nat
  hashAlgorithm : UInt16
  fullSourceHash : List UInt8
  declaredSize_lt : declaredSize < 2 ^ 64
  hash_length : fullSourceHash.length = 32
  deriving DecidableEq, Repr

def chunkSize : Nat := 4096

def progressiveCoverageMagic : List UInt8 := [0x56, 0x42, 0x55, 0x46, 0x50, 0x43, 0x4f, 0x56]

def progressiveCoverageVersion : Nat := 1

def progressiveCoverageHeaderBytes : Nat := 80

/-- `2^20 / CHUNK_SIZE`. -/
def progressiveMaxAcquisitionChunks : Nat := 2 ^ 20 / chunkSize

/-- `checked_end`: the end of a range, when it fits 64 bits. -/
def checkedEnd (offset length : Nat) : Option Nat :=
  if length = 0 ∨ offset > 2 ^ 64 - 1 - length then none else some (offset + length)

def bitMask (chunk : Nat) : UInt8 := UInt8.ofNat (2 ^ (chunk % 8))

def bitIsSet (coverage : List UInt8) (chunk : Nat) : Bool :=
  byteAt coverage (chunk / 8) &&& bitMask chunk != 0

def setBit (coverage : List UInt8) (chunk : Nat) : List UInt8 :=
  coverage.set (chunk / 8) (byteAt coverage (chunk / 8) ||| bitMask chunk)

namespace ProgressiveSourceIdentity

variable (identity : ProgressiveSourceIdentity)

def chunkCount : Nat :=
  identity.declaredSize / chunkSize + if identity.declaredSize % chunkSize = 0 then 0 else 1

def chunkLength (chunk : Nat) : Nat :=
  min chunkSize (identity.declaredSize - chunk * chunkSize)

def coverageBytes : Nat := (identity.chunkCount + 7) / 8

def validRange (offset length : Nat) : Option Nat :=
  match checkedEnd offset length with
  | none => none
  | some stop => if length ≠ 0 ∧ stop ≤ identity.declaredSize then some stop else none

/-! ### Acquisition -/

/-- The whole byte of the bitmap is written back, with the chunk's bit added. -/
def publishChunk (coverage : List UInt8) (chunk : Nat) : StoreProgram (Bool × List UInt8) := do
  let value := byteAt coverage (chunk / 8) ||| bitMask chunk
  let written ← positionedWrite .coverage [value] (progressiveCoverageHeaderBytes + chunk / 8)
  if written then
    pure (true, if bitIsSet coverage chunk then coverage else setBit coverage chunk)
  else
    pure (false, coverage)

/-- Publishes the chunks `first`, `first + 1`, …, `count` of them. -/
def publishChunks (coverage : List UInt8) (first : Nat) : Nat → StoreProgram (Bool × List UInt8)
  | 0 => pure (true, coverage)
  | count + 1 => do
      let (published, coverage) ← publishChunk coverage first
      if published then publishChunks coverage (first + 1) count else pure (false, coverage)

def acquireWindow (coverage : List UInt8) (firstChunk lastChunk : Nat) :
    StoreProgram (Bool × List UInt8) := do
  let offset := firstChunk * chunkSize
  let stop := if lastChunk + 1 = identity.chunkCount then identity.declaredSize
    else (lastChunk + 1) * chunkSize
  let length := stop - offset
  let remote ← remoteRead offset length
  if !remote.returned || remote.result.requestedOffset != offset ||
      remote.result.requestedLength != length || remote.result.returnedBytes != length then
    pure (false, coverage)
  else do
    let written ← positionedWrite .mirror remote.destination offset
    if written then publishChunks coverage firstChunk (lastChunk + 1 - firstChunk)
    else pure (false, coverage)

/-- The last chunk of the window that starts at `windowFirst`. -/
def windowLast (coverage : List UInt8) (windowFirst lastChunk current : Nat) : Nat :=
  if current < lastChunk ∧ current - windowFirst + 1 < progressiveMaxAcquisitionChunks ∧
      !bitIsSet coverage (current + 1) then
    windowLast coverage windowFirst lastChunk (current + 1)
  else current
termination_by lastChunk - current

theorem le_windowLast (coverage : List UInt8) (windowFirst lastChunk current : Nat) :
    current ≤ windowLast coverage windowFirst lastChunk current := by
  fun_induction windowLast coverage windowFirst lastChunk current with
  | case1 current h ih => omega
  | case2 current h => exact Nat.le_refl _

/-- The loop of `read_range` over the chunks of the range. -/
def acquireChunks (coverage : List UInt8) (chunk lastChunk : Nat) :
    StoreProgram (Bool × List UInt8) :=
  if chunk ≤ lastChunk then
    if bitIsSet coverage chunk then acquireChunks coverage (chunk + 1) lastChunk
    else do
      let last := windowLast coverage chunk lastChunk chunk
      let (acquired, covered) ← identity.acquireWindow coverage chunk last
      if acquired then acquireChunks covered (last + 1) lastChunk else pure (false, covered)
  else pure (true, coverage)
termination_by lastChunk + 1 - chunk
decreasing_by
  · omega
  · have hle := le_windowLast coverage chunk lastChunk chunk
    omega

/-- `destination` says whether the caller's pointer is set. -/
def readRange (coverage : List UInt8) (destination : Bool) (offset length : Nat) :
    StoreProgram (RangeRead × List UInt8) := do
  let result : RangeReadResult :=
    { requestedOffset := offset, requestedLength := length, sourceId := "progressive-local" }
  match if destination then identity.validRange offset length else none with
  | none =>
      pure (⟨false, { result with error := "progressive range is outside the declared source" },
        []⟩, coverage)
  | some stop => do
      let (acquired, coverage) ←
        identity.acquireChunks coverage (offset / chunkSize) ((stop - 1) / chunkSize)
      if acquired then do
        match ← positionedRead .mirror length offset with
        | none =>
            pure (⟨false, { result with error := "progressive local mirror read failed" }, []⟩,
              coverage)
        | some bytes =>
            pure (⟨true, { result with returnedBytes := length, statusCode := 200 }, bytes⟩,
              coverage)
      else
        pure (⟨false,
          { result with error := "progressive source acquisition or publication failed" }, []⟩,
          coverage)

/-! ### Opening the store -/

/-- The header fields in file order; the four bytes after the version stay zero. -/
def sidecarHeader (coverageSize : Nat) : List UInt8 :=
  progressiveCoverageMagic ++ leBytes 4 progressiveCoverageVersion ++ leBytes 4 0 ++
    leBytes 8 identity.declaredSize ++ leBytes 2 identity.hashAlgorithm.toNat ++
    leBytes 2 identity.fullSourceHash.length ++ leBytes 4 chunkSize ++
    leBytes 8 identity.chunkCount ++ leBytes 8 coverageSize ++ identity.fullSourceHash

def initializeSidecar : StoreProgram (Option (List UInt8)) := do
  let coverage := List.replicate identity.coverageBytes 0
  let header ← positionedWrite .coverage (identity.sidecarHeader coverage.length) 0
  if header then do
    let bitmap ← positionedWrite .coverage coverage progressiveCoverageHeaderBytes
    pure (if bitmap then some coverage else none)
  else pure none

/-- The fields `read_sidecar_header` compares. -/
def headerMatches (header : List UInt8) : Bool :=
  slice header 0 8 = progressiveCoverageMagic &&
    ofLeBytes (slice header 8 4) = progressiveCoverageVersion &&
    ofLeBytes (slice header 16 8) = identity.declaredSize &&
    ofLeBytes (slice header 24 2) = identity.hashAlgorithm.toNat &&
    ofLeBytes (slice header 26 2) = identity.fullSourceHash.length &&
    ofLeBytes (slice header 28 4) = chunkSize &&
    ofLeBytes (slice header 32 8) = identity.chunkCount &&
    ofLeBytes (slice header 40 8) = identity.coverageBytes &&
    slice header 48 32 = identity.fullSourceHash

/-- No bit past the last chunk is set in the last byte. -/
def extraBitsClear (coverage : List UInt8) : Bool :=
  identity.chunkCount % 8 = 0 ||
    byteAt coverage (identity.coverageBytes - 1) &&&
      ~~~ (UInt8.ofNat (2 ^ (identity.chunkCount % 8) - 1)) = 0

def readSidecarHeader : StoreProgram (Option (List UInt8)) := do
  match ← positionedRead .coverage progressiveCoverageHeaderBytes 0 with
  | none => pure none
  | some header =>
      if identity.headerMatches header then do
        match ← positionedRead .coverage identity.coverageBytes progressiveCoverageHeaderBytes with
        | none => pure none
        | some coverage => pure (if identity.extraBitsClear coverage then some coverage else none)
      else pure none

/-- An empty mirror is given its size; another must have it. -/
def sizeMirror (mirrorSize : Nat) : StoreProgram Bool :=
  if mirrorSize = 0 then ftruncate .mirror identity.declaredSize
  else pure (decide (mirrorSize = identity.declaredSize))

/-- After both sizes are known: the mirror gets its size, the sidecar is
written or read. -/
def openSized (mirrorSize coverageSize : Nat) : StoreProgram (Option (List UInt8)) :=
  if mirrorSize = 0 ∧ coverageSize ≠ 0 then pure none
  else do
    let sized ← identity.sizeMirror mirrorSize
    if !sized then pure none
    else if coverageSize = 0 then identity.initializeSidecar
    else if coverageSize ≠ progressiveCoverageHeaderBytes + identity.coverageBytes then pure none
    else identity.readSidecarHeader

/-- `open_store`: the coverage bitmap of the new instance, or a failure. -/
def openStore : StoreProgram (Option (List UInt8)) := do
  if !(← openFile .mirror) then pure none
  else
    match ← fstat .mirror with
    | none => pure none
    | some mirrorSize => do
        if !(← openFile .coverage) then pure none
        else
          match ← fstat .coverage with
          | none => pure none
          | some coverageSize => identity.openSized mirrorSize coverageSize

end ProgressiveSourceIdentity

end VBuf.Ggml
