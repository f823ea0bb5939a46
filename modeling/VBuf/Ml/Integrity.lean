import Mathlib.Data.Prod.Lex
import VBuf.Lib.Reader
import VBuf.Ml.PayloadPaths

/-!
# Integrity metadata

An optional region lists digests of payloads, each named by a key and an
occurrence.  The digest function is a parameter.  `discover` resolves the list
against a validated stream, and `verifyTarget` digests one payload.
-/

namespace VBuf.Ml

open VBuf.Lib VBuf.Layout VBuf.V06

/-- The codes of `MlErrorCode` that this region uses. -/
inductive IntegrityErrorCode
  | malformedIntegrityMetadata
  | unsupportedIntegrityAlgorithm
  | duplicateIntegrityTarget
  | integrityTargetMissing
  | integrityTargetUnsupported
  | invalidIntegrityDigest
  | integrityMismatch
  | noIntegrityAvailable
  | canonical (code : ErrorCode)
  deriving DecidableEq, Repr

/-- `MlError`. -/
structure IntegrityError where
  code : IntegrityErrorCode
  detail : String
  deriving DecidableEq, Repr

/-- `[u8; DIGEST_BYTES]`. -/
structure Digest where
  bytes : List UInt8
  width : bytes.length = 32

theorem Digest.bytes_inj {a b : Digest} : a.bytes = b.bytes ↔ a = b := by
  cases a
  cases b
  simp

instance : DecidableEq Digest := fun a b =>
  decidable_of_iff (a.bytes = b.bytes) Digest.bytes_inj

/-- `copy_from_slice` into an array of zeros. -/
def Digest.ofSlice (bytes : List UInt8) : Digest where
  bytes := (bytes ++ List.replicate 32 0).take 32
  width := by simp

theorem Digest.ofSlice_bytes (digest : Digest) : Digest.ofSlice digest.bytes = digest := by
  obtain ⟨bytes, hwidth⟩ := digest
  simp [Digest.ofSlice, List.take_left' hwidth]

theorem Digest.bytes_ofSlice {bytes : List UInt8} (h : bytes.length = 32) :
    (Digest.ofSlice bytes).bytes = bytes :=
  List.take_left' h

/-- `IntegrityEntry`. -/
structure IntegrityEntry where
  keyId : UInt16
  occurrence : UInt16
  digest : Digest
  deriving DecidableEq

/-- The pair `(key_id, occurrence)` in the order of the source. -/
def IntegrityEntry.target (entry : IntegrityEntry) : Nat ×ₗ Nat :=
  toLex (entry.keyId.toNat, entry.occurrence.toNat)

/-- `IntegrityRecord`. -/
structure IntegrityRecord where
  keyId : UInt16
  occurrence : UInt16
  blockIndex : Nat
  range : CheckedRange
  expectedDigest : Digest
  deriving DecidableEq

/-- `IntegrityMetadata`. -/
structure IntegrityMetadata where
  records : List IntegrityRecord
  deriving DecidableEq

namespace IntegrityMetadata

/-- `INTEGRITY_MAGIC`: the bytes `VBINTG` and two zeros. -/
def magic : List UInt8 := [0x56, 0x42, 0x49, 0x4e, 0x54, 0x47, 0, 0]

/-- `INTEGRITY_VERSION`. -/
def version : Nat := 1

/-- `MAX_INTEGRITY_BYTES`. -/
def maxBytes : Nat := 16 * 1024 * 1024

/-- `MAX_INTEGRITY_ENTRIES`. -/
def maxEntries : Nat := 1000000

/-- `IntegrityAlgorithm::Sha256 as u8`. -/
def sha256Id : Nat := 1

/-- The 40 bytes of an entry. -/
def entryBytes (entry : IntegrityEntry) : List UInt8 :=
  leBytes 2 entry.keyId.toNat ++ leBytes 2 entry.occurrence.toNat ++ leBytes 1 sha256Id ++
    leBytes 1 0 ++ leBytes 2 0 ++ entry.digest.bytes

/-- `sort_by_key` by target. -/
def ordered (entries : List IntegrityEntry) : List IntegrityEntry :=
  entries.insertionSort (fun a b => a.target ≤ b.target)

/-- `encode_payload`. -/
def encodePayload (entries : List IntegrityEntry) : Except IntegrityError (List UInt8) := do
  rejectIf (maxEntries < entries.length)
    ⟨.malformedIntegrityMetadata, "integrity entry count exceeds profile maximum"⟩
  rejectIf (hasEqualNeighbours ((ordered entries).map IntegrityEntry.target) = true)
    ⟨.duplicateIntegrityTarget, "integrity target occurs more than once"⟩
  rejectIf (maxBytes < 20 + entries.length * 40)
    ⟨.malformedIntegrityMetadata, "integrity metadata exceeds profile maximum"⟩
  pure (magic ++ leBytes 2 version ++ leBytes 2 0 ++ leBytes 4 entries.length ++ leBytes 4 0 ++
    (ordered entries).flatMap entryBytes)

/-- `IntegrityAlgorithm::from_id`. -/
def checkAlgorithm (id : Nat) : Except IntegrityError Unit :=
  rejectIf (id ≠ sha256Id) ⟨.unsupportedIntegrityAlgorithm, "unsupported integrity algorithm"⟩

/-- One iteration of the entry loop of `parse_payload`. -/
def parseEntry (bytes : List UInt8) (offset : Nat) : Except IntegrityError IntegrityEntry := do
  checkAlgorithm (leAt bytes (offset + 4) 1)
  rejectIf (leAt bytes (offset + 5) 1 ≠ 0 ∨ anyNonzero (slice bytes (offset + 6) 2) = true)
    ⟨.invalidIntegrityDigest,
      "integrity entry algorithm, flags, or reserved fields are invalid"⟩
  pure
    { keyId := UInt16.ofNat (leAt bytes offset 2)
      occurrence := UInt16.ofNat (leAt bytes (offset + 2) 2)
      digest := Digest.ofSlice (slice bytes (offset + 8) 32) }

/-- The entry loop of `parse_payload`. -/
def parseEntries (bytes : List UInt8) (offset : Nat) :
    Nat → Except IntegrityError (List IntegrityEntry)
  | 0 => .ok []
  | count + 1 => do
      let entry ← parseEntry bytes offset
      let rest ← parseEntries bytes (offset + 40) count
      pure (entry :: rest)

/-- `parse_payload`. -/
def parsePayload (bytes : List UInt8) : Except IntegrityError (List IntegrityEntry) := do
  rejectIf (bytes.length < 20 ∨ maxBytes < bytes.length ∨ slice bytes 0 8 ≠ magic)
    ⟨.malformedIntegrityMetadata, "integrity metadata header is invalid"⟩
  rejectIf (leAt bytes 8 2 ≠ version ∨ leAt bytes 10 2 ≠ 0 ∨
      anyNonzero (slice bytes 16 4) = true)
    ⟨.malformedIntegrityMetadata, "integrity metadata header is invalid"⟩
  let count := leAt bytes 12 4
  rejectIf (maxEntries < count ∨ 20 + count * 40 ≠ bytes.length)
    ⟨.malformedIntegrityMetadata, "integrity length does not match entry count"⟩
  parseEntries bytes 20 count

/-- The check of `discover` that an entry comes behind the previous one. -/
def checkOrder (previous : Option (Nat ×ₗ Nat)) (entry : IntegrityEntry) :
    Except IntegrityError Unit :=
  match previous with
  | none => pure ()
  | some target =>
      rejectIf (entry.target ≤ target)
        ⟨if entry.target = target then .duplicateIntegrityTarget
          else .malformedIntegrityMetadata, "integrity targets must be strictly sorted"⟩

/-- A canonical error as an error of this region. -/
def ofV06 {α : Type*} (result : Except V06.Error α) : Except IntegrityError α :=
  mapErr (fun error => ⟨.canonical error.code, "canonical v0.6 validation failed"⟩) result

/-- The record of an entry. -/
def resolveEntry (validated : Validated) (entry : IntegrityEntry) :
    Except IntegrityError IntegrityRecord := do
  let targetIndex ← okOr (nthOccurrence validated.blocks entry.keyId entry.occurrence)
    ⟨.integrityTargetMissing, "integrity target is absent"⟩
  let target ← okOr validated.blocks[targetIndex]?
    ⟨.integrityTargetMissing, "integrity target is absent"⟩
  rejectIf (target.continuation = true)
    ⟨.integrityTargetUnsupported,
      "continuation integrity targets are not supported by profile 0.1"⟩
  let range ← ofV06 (validated.payloadRange targetIndex)
  pure
    { keyId := entry.keyId
      occurrence := entry.occurrence
      blockIndex := targetIndex
      range
      expectedDigest := entry.digest }

/-- The entry loop of `discover`. -/
def resolveEntries (validated : Validated) :
    Option (Nat ×ₗ Nat) → List IntegrityEntry → Except IntegrityError (List IntegrityRecord)
  | _, [] => .ok []
  | previous, entry :: rest => do
      checkOrder previous entry
      let record ← resolveEntry validated entry
      let records ← resolveEntries validated (some entry.target) rest
      pure (record :: records)

/-- `IntegrityMetadata::discover`. -/
def discover (validated : Validated) (bootstrap : Bootstrap) :
    Except IntegrityError (Option IntegrityMetadata) :=
  match bootstrap.region .integrityMetadata with
  | none => pure none
  | some region => do
      let block ← okOr validated.blocks[region.blockIndex]?
        ⟨.integrityTargetMissing, "integrity metadata block index is absent"⟩
      rejectIf (block.semantic ≠ .opaqueBytes ∨ block.physical ≠ .array ∨ block.bitWidth ≠ 8 ∨
          block.continuation = true)
        ⟨.malformedIntegrityMetadata,
          "integrity metadata must be a non-continuing opaque byte array"⟩
      let entries ← parsePayload region.range.bytes
      let records ← resolveEntries validated none entries
      pure (some ⟨records⟩)

/-- `record`. -/
def record (metadata : IntegrityMetadata) (keyId occurrence : UInt16) : Option IntegrityRecord :=
  metadata.records.find? fun record => record.keyId = keyId ∧ record.occurrence = occurrence

/-- `verify_target`. -/
def verifyTarget (sha256 : List UInt8 → Digest) (metadata : IntegrityMetadata)
    (keyId occurrence : UInt16) : Except IntegrityError Unit := do
  let record ← okOr (metadata.record keyId occurrence)
    ⟨.noIntegrityAvailable, "no integrity record covers target"⟩
  rejectIf (sha256 record.range.bytes ≠ record.expectedDigest)
    ⟨.integrityMismatch, "integrity digest does not match canonical payload"⟩

/-! ### The payload as a canonical form -/

@[simp] theorem entryBytes_length (entry : IntegrityEntry) : (entryBytes entry).length = 40 := by
  simp [entryBytes, entry.digest.width]

theorem flatMap_entryBytes_length (entries : List IntegrityEntry) :
    (entries.flatMap entryBytes).length = entries.length * 40 := by
  simp [List.length_flatMap]

/-- An entry is accepted exactly where its bytes stand. -/
theorem parseEntry_eq_ok_iff {bytes : List UInt8} {offset : Nat} {entry : IntegrityEntry}
    (hinside : offset + 40 ≤ bytes.length) :
    parseEntry bytes offset = .ok entry ↔ Holds bytes offset (entryBytes entry) := by
  have hdigest : (slice bytes (offset + 8) 32).length = 32 := slice_length_of_le (by omega)
  simp only [parseEntry, checkAlgorithm, bind_eq_ok_iff, rejectIf_eq_ok_iff, pure_eq_ok_iff,
    not_or, not_not, Bool.not_eq_true]
  constructor
  · intro h
    obtain ⟨_, halgorithm, _, ⟨hflags, hreserved⟩, rfl⟩ := h
    have hkey := @holds_leBytes_leAt bytes offset 2 (by omega)
    have hoccurrence := @holds_leBytes_leAt bytes (offset + 2) 2 (by omega)
    have hid := @holds_leBytes_leAt bytes (offset + 4) 1 (by omega)
    have hzero := @holds_leBytes_leAt bytes (offset + 5) 1 (by omega)
    have hrest := holds_zero_of_anyNonzero (by omega) hreserved
    rw [halgorithm] at hid
    rw [hflags] at hzero
    have hfield : ∀ at', (UInt16.ofNat (leAt bytes at' 2)).toNat = leAt bytes at' 2 := by
      intro at'
      have hlt : leAt bytes at' 2 < 256 ^ 2 := leAt_lt
      exact UInt16.toNat_ofNat_of_lt' hlt
    simp only [entryBytes, holds_append, leBytes_length, List.length_append, hfield]
    refine ⟨⟨⟨⟨⟨hkey, hoccurrence⟩, hid⟩, hzero⟩, hrest⟩, ?_⟩
    rw [Digest.bytes_ofSlice hdigest, Holds, hdigest]
  · intro h
    simp only [entryBytes, holds_append, leBytes_length, List.length_append] at h
    obtain ⟨⟨⟨⟨⟨hkey, hoccurrence⟩, hid⟩, hzero⟩, hrest⟩, hbytes⟩ := h
    have hslice : slice bytes (offset + 8) 32 = entry.digest.bytes :=
      slice_of_holds hbytes entry.digest.width
    refine ⟨(), leAt_of_holds hid (by decide), (), ⟨leAt_of_holds hzero (by decide), ?_⟩, ?_⟩
    · exact anyNonzero_zero hrest
    · have hkey' := leAt_of_holds hkey entry.keyId.toNat_lt
      have hoccurrence' := leAt_of_holds hoccurrence entry.occurrence.toNat_lt
      rw [hkey', hoccurrence', hslice, Digest.ofSlice_bytes, UInt16.ofNat_toNat,
        UInt16.ofNat_toNat]

/-- Entries are accepted exactly where their bytes stand one after the other. -/
theorem parseEntries_eq_ok_iff {bytes : List UInt8} {offset count : Nat}
    {entries : List IntegrityEntry} (hinside : offset + count * 40 ≤ bytes.length) :
    parseEntries bytes offset count = .ok entries ↔
      entries.length = count ∧ Holds bytes offset (entries.flatMap entryBytes) := by
  induction count generalizing offset entries with
  | zero =>
      rw [parseEntries, Except.ok.injEq]
      constructor
      · rintro rfl
        exact ⟨rfl, holds_nil _ _⟩
      · intro h
        exact (List.length_eq_zero_iff.1 h.1).symm
  | succ count ih =>
      rw [parseEntries]
      simp only [bind_eq_ok_iff, pure_eq_ok_iff]
      constructor
      · intro h
        obtain ⟨entry, hentry, rest, hrest, rfl⟩ := h
        obtain ⟨hcount, hholds⟩ := (ih (by omega)).1 hrest
        rw [List.flatMap_cons, holds_append, entryBytes_length]
        exact ⟨congrArg (· + 1) hcount, (parseEntry_eq_ok_iff (by omega)).1 hentry, hholds⟩
      · intro h
        obtain ⟨hcount, hholds⟩ := h
        cases entries with
        | nil => cases hcount
        | cons entry rest =>
            rw [List.flatMap_cons, holds_append, entryBytes_length] at hholds
            refine ⟨entry, (parseEntry_eq_ok_iff (by omega)).2 hholds.1, rest, ?_, rfl⟩
            exact (ih (by omega)).2 ⟨Nat.succ.inj hcount, hholds.2⟩

/-- The payload that lists the entries as they stand. -/
def listing (entries : List IntegrityEntry) : List UInt8 :=
  magic ++ leBytes 2 version ++ leBytes 2 0 ++ leBytes 4 entries.length ++ leBytes 4 0 ++
    entries.flatMap entryBytes

theorem listing_length (entries : List IntegrityEntry) :
    (listing entries).length = 20 + entries.length * 40 := by
  simp [listing, magic]
  omega

/-- The payloads that are accepted are the listings of bounded lists. -/
theorem parsePayload_eq_ok_iff {bytes : List UInt8} {entries : List IntegrityEntry} :
    parsePayload bytes = .ok entries ↔
      bytes = listing entries ∧ 20 + entries.length * 40 ≤ maxBytes := by
  simp only [parsePayload, bind_eq_ok_iff, rejectIf_eq_ok_iff, not_or, not_lt, not_not,
    Bool.not_eq_true]
  constructor
  · intro h
    obtain ⟨_, ⟨hlong, hmax, hmagic⟩, _, ⟨hversion, hflags, hzero⟩, _, ⟨-, hlength⟩, hrest⟩ := h
    obtain ⟨hcount, hholds⟩ := (parseEntries_eq_ok_iff (by omega)).1 hrest
    have hreserved := leAt_of_holds (holds_zero_of_anyNonzero (by omega) hzero) (by decide)
    refine ⟨?_, by rw [hcount]; omega⟩
    refine
      TensorDirectory.eq_header_append rfl hmagic hversion hflags hcount.symm hreserved hholds ?_
    rw [flatMap_entryBytes_length, hcount]
    omega
  · intro h
    obtain ⟨rfl, hmax⟩ := h
    have hlength := listing_length entries
    have hholds := holds_self (listing entries)
    have hsmall : entries.length < 256 ^ 4 := by
      unfold maxBytes at hmax
      omega
    nth_rewrite 2 [listing] at hholds
    simp only [holds_append, List.length_append, leBytes_length] at hholds
    obtain ⟨⟨⟨⟨⟨hmagic, hversion⟩, hflags⟩, hcount⟩, hreserved⟩, hrest⟩ := hholds
    have hmagic' : slice (listing entries) 0 8 = magic := hmagic
    have hcount' : leAt (listing entries) 12 4 = entries.length := leAt_of_holds hcount hsmall
    rw [hcount']
    refine ⟨(), ⟨by omega, by omega, hmagic'⟩, (), ⟨leAt_of_holds hversion (by decide),
      leAt_of_holds hflags (by decide), anyNonzero_zero hreserved⟩, (), ⟨?_, hlength.symm⟩, ?_⟩
    · unfold maxBytes at hmax
      unfold maxEntries
      omega
    · exact (parseEntries_eq_ok_iff (by omega)).2 ⟨rfl, hrest⟩

/-- The targets stand in strict order. -/
def Sorted (entries : List IntegrityEntry) : Prop :=
  entries.Pairwise fun a b => a.target < b.target

instance (entries : List IntegrityEntry) : Decidable (Sorted entries) :=
  inferInstanceAs (Decidable (List.Pairwise _ _))

theorem ordered_perm (entries : List IntegrityEntry) : (ordered entries).Perm entries :=
  List.perm_insertionSort _ entries

theorem ordered_pairwise (entries : List IntegrityEntry) :
    (ordered entries).Pairwise fun a b => a.target ≤ b.target := by
  have htotal : Std.Total (fun a b : IntegrityEntry => a.target ≤ b.target) :=
    ⟨fun a b => le_total a.target b.target⟩
  have htrans : IsTrans IntegrityEntry (fun a b => a.target ≤ b.target) :=
    ⟨fun _ _ _ hab hbc => le_trans hab hbc⟩
  exact List.pairwise_insertionSort _ entries

theorem hasEqualNeighbours_targets {entries : List IntegrityEntry}
    (hsorted : entries.Pairwise fun a b => a.target ≤ b.target) :
    hasEqualNeighbours (entries.map IntegrityEntry.target) = false ↔ Sorted entries := by
  have hkeys : (entries.map IntegrityEntry.target).Pairwise (fun a b => id a ≤ id b) :=
    List.pairwise_map.2 hsorted
  rw [TensorDirectory.hasEqualNeighbours_eq_false_iff Function.injective_id hkeys,
    List.pairwise_map]
  rfl

theorem Sorted.ordered_eq {entries others : List IntegrityEntry} (h : Sorted entries)
    (hperm : entries.Perm others) : ordered others = entries :=
  (TensorDirectory.eq_of_perm_of_strict h (ordered_pairwise others)
    (hperm.trans (ordered_perm others).symm)).symm

theorem encodePayload_eq_ok_iff {entries : List IntegrityEntry} {bytes : List UInt8} :
    encodePayload entries = .ok bytes ↔ Sorted (ordered entries) ∧
      20 + entries.length * 40 ≤ maxBytes ∧ bytes = listing (ordered entries) := by
  simp only [encodePayload, bind_eq_ok_iff, rejectIf_eq_ok_iff, pure_eq_ok_iff, not_lt,
    Bool.not_eq_true, hasEqualNeighbours_targets (ordered_pairwise entries), listing,
    (ordered_perm entries).length_eq]
  constructor
  · intro h
    obtain ⟨_, -, _, hsorted, _, hmax, rfl⟩ := h
    exact ⟨hsorted, hmax, rfl⟩
  · intro h
    obtain ⟨hsorted, hmax, rfl⟩ := h
    refine ⟨(), ?_, (), hsorted, (), hmax, rfl⟩
    unfold maxBytes at hmax
    unfold maxEntries
    omega

/-- What is written for a list is what is read as the strictly sorted arrangement of it. -/
theorem encodePayload_iff_parsePayload (entries : List IntegrityEntry) (bytes : List UInt8) :
    encodePayload entries = .ok bytes ↔
      ∃ listed, parsePayload bytes = .ok listed ∧ Sorted listed ∧ listed.Perm entries := by
  rw [encodePayload_eq_ok_iff]
  constructor
  · intro h
    obtain ⟨hsorted, hmax, rfl⟩ := h
    have hperm := ordered_perm entries
    exact ⟨ordered entries, parsePayload_eq_ok_iff.2 ⟨rfl, by rwa [hperm.length_eq]⟩, hsorted,
      hperm⟩
  · intro h
    obtain ⟨listed, hparse, hsorted, hperm⟩ := h
    obtain ⟨rfl, hmax⟩ := parsePayload_eq_ok_iff.1 hparse
    rw [hsorted.ordered_eq hperm]
    exact ⟨hsorted, by rwa [← hperm.length_eq], rfl⟩

/-! ### Verification -/

/-- The payload that a key and an occurrence name. -/
def namedPayload (validated : Validated) (keyId occurrence : UInt16) : Option (List UInt8) :=
  (TensorDirectory.namedBlock validated keyId occurrence).map fun block =>
    slice validated.bytes block.payloadStart block.payloadLen

/-- A record stands for an entry and holds the payload that the entry names. -/
structure Resolved (validated : Validated) (entry : IntegrityEntry) (record : IntegrityRecord) :
    Prop where
  keyId : record.keyId = entry.keyId
  occurrence : record.occurrence = entry.occurrence
  digest : record.expectedDigest = entry.digest
  index : nthOccurrence validated.blocks entry.keyId entry.occurrence = some record.blockIndex
  range : validated.payloadRange record.blockIndex = .ok record.range
  whole : ∃ block, validated.blocks[record.blockIndex]? = some block ∧ block.continuation = false

theorem resolveEntry_eq_ok_iff {validated : Validated} {entry : IntegrityEntry}
    {record : IntegrityRecord} :
    resolveEntry validated entry = .ok record ↔ Resolved validated entry record := by
  simp only [resolveEntry, bind_eq_ok_iff, okOr_eq_ok_iff, rejectIf_eq_ok_iff, pure_eq_ok_iff,
    ofV06, mapErr_eq_ok_iff, Bool.not_eq_true]
  constructor
  · intro h
    obtain ⟨index, hindex, block, hblock, _, hwhole, range, hrange, rfl⟩ := h
    exact ⟨rfl, rfl, rfl, hindex, hrange, block, hblock, hwhole⟩
  · intro h
    obtain ⟨block, hblock, hwhole⟩ := h.whole
    refine ⟨record.blockIndex, h.index, block, hblock, (), hwhole, record.range, h.range, ?_⟩
    rw [← h.keyId, ← h.occurrence, ← h.digest]

theorem checkOrder_eq_ok_iff {previous : Option (Nat ×ₗ Nat)} {entry : IntegrityEntry} {u : Unit} :
    checkOrder previous entry = .ok u ↔ ∀ target ∈ previous, target < entry.target := by
  cases previous with
  | none => simp [checkOrder]
  | some target => simp [checkOrder]

/-- The entry loop accepts the strictly sorted lists whose entries all resolve. -/
theorem resolveEntries_eq_ok_iff {validated : Validated} {previous : Option (Nat ×ₗ Nat)}
    {entries : List IntegrityEntry} {records : List IntegrityRecord} :
    resolveEntries validated previous entries = .ok records ↔
      (∀ target ∈ previous, ∀ entry ∈ entries, target < entry.target) ∧ Sorted entries ∧
        List.Forall₂ (Resolved validated) entries records := by
  induction entries generalizing previous records with
  | nil =>
      rw [resolveEntries, Except.ok.injEq, List.forall₂_nil_left_iff]
      constructor
      · rintro rfl
        exact ⟨fun _ _ _ hmem => absurd hmem List.not_mem_nil, List.Pairwise.nil, rfl⟩
      · intro h
        exact h.2.2.symm
  | cons entry rest ih =>
      rw [resolveEntries]
      simp only [bind_eq_ok_iff, pure_eq_ok_iff, checkOrder_eq_ok_iff, resolveEntry_eq_ok_iff, ih,
        Sorted, List.pairwise_cons, List.forall_mem_cons]
      constructor
      · intro h
        obtain ⟨_, hfirst, record, hrecord, others, ⟨hlater, hsorted, hothers⟩, rfl⟩ := h
        have hrest := hlater entry.target rfl
        refine ⟨fun target hmem => ⟨hfirst target hmem, fun other hother => ?_⟩, ⟨hrest, hsorted⟩,
          List.Forall₂.cons hrecord hothers⟩
        exact (hfirst target hmem).trans (hrest other hother)
      · intro h
        obtain ⟨hprevious, ⟨hrest, hsorted⟩, hresolved⟩ := h
        obtain ⟨record, others, hrecord, hothers, rfl⟩ := List.forall₂_cons_left_iff.1 hresolved
        refine ⟨(), fun target hmem => (hprevious target hmem).1, record, hrecord, others, ?_, rfl⟩
        refine ⟨fun target hmem other hother => ?_, hsorted, hothers⟩
        cases hmem
        exact hrest other hother

/-- A record holds the named payload. -/
theorem Resolved.namedPayload_eq {validated : Validated} {entry : IntegrityEntry}
    {record : IntegrityRecord} (h : Resolved validated entry record)
    (hformed : WellFormed validated.bytes validated.header validated.blocks) :
    namedPayload validated entry.keyId entry.occurrence = some record.range.bytes := by
  obtain ⟨block, hblock, -⟩ := h.whole
  have hlength := (hformed.blockAt (List.mem_of_getElem? hblock)).payloadEnd_eq
  rw [namedPayload, TensorDirectory.namedBlock, h.index, Option.bind_some, hblock, Option.map_some,
    Validated.payloadRange_bytes hblock hlength h.range]

/-- Targets that differ in their order differ. -/
theorem Sorted.eq_of_target {entries : List IntegrityEntry} (h : Sorted entries)
    {a b : IntegrityEntry} (ha : a ∈ entries) (hb : b ∈ entries) (hkey : a.keyId = b.keyId)
    (hoccurrence : a.occurrence = b.occurrence) : a = b := by
  have hnodup : (entries.map IntegrityEntry.target).Nodup :=
    List.pairwise_map.2 (h.imp fun hlt => hlt.ne)
  refine List.inj_on_of_nodup_map hnodup ha hb ?_
  rw [IntegrityEntry.target, IntegrityEntry.target, hkey, hoccurrence]

/-- The record of a listed target is the one of its entry. -/
theorem record_of_mem {validated : Validated} {entries : List IntegrityEntry}
    {records : List IntegrityRecord} (hsorted : Sorted entries)
    (h : List.Forall₂ (Resolved validated) entries records) {entry : IntegrityEntry}
    (hmem : entry ∈ entries) :
    ∃ found, record ⟨records⟩ entry.keyId entry.occurrence = some found ∧
      Resolved validated entry found := by
  obtain ⟨first, hfirst, hresolved⟩ := exists_of_mem_left h hmem
  have hsome : (record ⟨records⟩ entry.keyId entry.occurrence).isSome = true := by
    rw [record, List.find?_isSome]
    exact ⟨first, hfirst, by simp [hresolved.keyId, hresolved.occurrence]⟩
  obtain ⟨found, hfound⟩ := Option.isSome_iff_exists.1 hsome
  refine ⟨found, hfound, ?_⟩
  have hnamed := List.find?_some hfound
  simp only [decide_eq_true_eq] at hnamed
  obtain ⟨other, hother, hsame⟩ := exists_of_mem_right h (List.mem_of_find?_eq_some hfound)
  rw [hsorted.eq_of_target hmem hother (hnamed.1.symm.trans hsame.keyId)
    (hnamed.2.symm.trans hsame.occurrence)]
  exact hsame

/-- A target that is not listed has no record. -/
theorem record_eq_none {validated : Validated} {entries : List IntegrityEntry}
    {records : List IntegrityRecord} (h : List.Forall₂ (Resolved validated) entries records)
    {keyId occurrence : UInt16}
    (hnone : ∀ entry ∈ entries, ¬ (entry.keyId = keyId ∧ entry.occurrence = occurrence)) :
    record ⟨records⟩ keyId occurrence = none := by
  rw [record, List.find?_eq_none]
  intro found hmem hnamed
  simp only [decide_eq_true_eq] at hnamed
  obtain ⟨entry, hentry, hresolved⟩ := exists_of_mem_right h hmem
  exact hnone entry hentry ⟨hresolved.keyId.symm.trans hnamed.1,
    hresolved.occurrence.symm.trans hnamed.2⟩

/-- The region of an artifact that carries integrity metadata, and what it lists. -/
structure Listed (validated : Validated) (bootstrap : Bootstrap) (entries : List IntegrityEntry) :
    Prop where
  region : ∃ region, bootstrap.region .integrityMetadata = some region ∧
    region.range.bytes = listing entries ∧
    ∃ block, validated.blocks[region.blockIndex]? = some block ∧
      block.semantic = .opaqueBytes ∧ block.physical = .array ∧ block.bitWidth = 8 ∧
      block.continuation = false
  bounded : 20 + entries.length * 40 ≤ maxBytes
  sorted : Sorted entries

theorem discover_eq_ok_some_iff {validated : Validated} {bootstrap : Bootstrap}
    {metadata : IntegrityMetadata} :
    discover validated bootstrap = .ok (some metadata) ↔ ∃ entries,
      Listed validated bootstrap entries ∧
        List.Forall₂ (Resolved validated) entries metadata.records := by
  unfold discover
  cases hregion : bootstrap.region .integrityMetadata with
  | none =>
      constructor
      · intro h
        cases h
      · intro h
        obtain ⟨_, ⟨⟨region, hsome, -⟩, -, -⟩, -⟩ := h
        cases hregion.symm.trans hsome
  | some region =>
      simp only [bind_eq_ok_iff, okOr_eq_ok_iff, rejectIf_eq_ok_iff, pure_eq_ok_iff, not_or,
        not_not, Bool.not_eq_true, parsePayload_eq_ok_iff, resolveEntries_eq_ok_iff,
        Option.some.injEq]
      constructor
      · intro h
        obtain ⟨block, hblock, _, htype, entries, ⟨hbytes, hmax⟩, records, ⟨-, hsorted, hall⟩,
          rfl⟩ := h
        exact ⟨entries, ⟨⟨region, hregion, hbytes, block, hblock, htype⟩, hmax, hsorted⟩, hall⟩
      · intro h
        obtain ⟨entries, ⟨⟨other, hother, hbytes, block, hblock, htype⟩, hmax, hsorted⟩, hall⟩ := h
        cases hregion.symm.trans hother
        refine ⟨block, hblock, (), htype, entries, ⟨hbytes, hmax⟩, metadata.records,
          ⟨?_, hsorted, hall⟩, rfl⟩
        intro target hmem
        cases hmem

/-- What `verify_target` answers for a listed payload. -/
def verdict (sha256 : List UInt8 → Digest) (payload : List UInt8) (digest : Digest) :
    Except IntegrityError Unit :=
  rejectIf (sha256 payload ≠ digest)
    ⟨.integrityMismatch, "integrity digest does not match canonical payload"⟩

/-- One listing stands for one list. -/
theorem Listed.unique {validated : Validated} {bootstrap : Bootstrap}
    {entries others : List IntegrityEntry} (h : Listed validated bootstrap entries)
    (hothers : Listed validated bootstrap others) : entries = others := by
  obtain ⟨region, hregion, hbytes, -⟩ := h.region
  obtain ⟨other, hother, hbytes', -⟩ := hothers.region
  cases hregion.symm.trans hother
  have hparse := parsePayload_eq_ok_iff.2 ⟨hbytes, h.bounded⟩
  have hparse' := parsePayload_eq_ok_iff.2 ⟨hbytes', hothers.bounded⟩
  exact Except.ok.inj (hparse.symm.trans hparse')

/-- A listed target is verified against the payload that it names. -/
theorem verdict_of_listed (sha256 : List UInt8 → Digest) {bytes : List UInt8}
    {validated : Validated} {bootstrap : Bootstrap} {metadata : IntegrityMetadata}
    {entries : List IntegrityEntry} (hparse : parseV06 bytes = .ok validated)
    (h : discover validated bootstrap = .ok (some metadata))
    (hlisted : Listed validated bootstrap entries) {entry : IntegrityEntry}
    (hmem : entry ∈ entries) :
    ∃ payload, namedPayload validated entry.keyId entry.occurrence = some payload ∧
      verifyTarget sha256 metadata entry.keyId entry.occurrence =
        verdict sha256 payload entry.digest := by
  obtain ⟨rfl, hformed⟩ := parseV06_eq_ok_iff.1 hparse
  obtain ⟨others, hothers, hall⟩ := discover_eq_ok_some_iff.1 h
  obtain rfl := hlisted.unique hothers
  obtain ⟨found, hfound, hresolved⟩ := record_of_mem hlisted.sorted hall hmem
  refine ⟨found.range.bytes, hresolved.namedPayload_eq hformed, ?_⟩
  rw [verifyTarget, hfound, verdict, ← hresolved.digest]
  rfl

/-- Each listed target is verified against the payload that it names, and no other target is. -/
theorem verifyTarget_exact (sha256 : List UInt8 → Digest) {bytes : List UInt8}
    {validated : Validated} {bootstrap : Bootstrap} {metadata : IntegrityMetadata}
    (hparse : parseV06 bytes = .ok validated)
    (h : discover validated bootstrap = .ok (some metadata)) :
    ∃ entries, Listed validated bootstrap entries ∧
      (∀ entry ∈ entries, ∃ payload,
        namedPayload validated entry.keyId entry.occurrence = some payload ∧
          verifyTarget sha256 metadata entry.keyId entry.occurrence =
            verdict sha256 payload entry.digest) ∧
      ∀ keyId occurrence,
        (∀ entry ∈ entries, ¬ (entry.keyId = keyId ∧ entry.occurrence = occurrence)) →
          verifyTarget sha256 metadata keyId occurrence =
            .error ⟨.noIntegrityAvailable, "no integrity record covers target"⟩ := by
  obtain ⟨entries, hlisted, hall⟩ := discover_eq_ok_some_iff.1 h
  refine ⟨entries, hlisted, ?_, ?_⟩
  · intro entry hmem
    exact verdict_of_listed sha256 hparse h hlisted hmem
  · intro keyId occurrence hnone
    rw [verifyTarget, record_eq_none hall hnone]
    rfl

end IntegrityMetadata

end VBuf.Ml
