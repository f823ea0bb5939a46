import VBuf.Ml.Error
import VBuf.V06.EncodingGrammar
import VBuf.V06.Ranges

/-!
# The bootstrap region

One block under a fixed key lists the profile's regions by role, each as the
n-th block of a key.  `discover` resolves the list against a validated stream.
-/

namespace VBuf.Ml

open VBuf.Lib VBuf.Layout VBuf.V06

/-- `RegionRole`. -/
inductive RegionRole
  | tensorDirectory
  | modelMetadata
  | tokenizerMetadata
  | integrityMetadata
  | nestedDirectory
  | moeDirectory
  | sourceMetadata
  | quantizationMetadata
  deriving DecidableEq, Repr

namespace RegionRole

/-- `role as u16`. -/
def id : RegionRole → UInt16
  | .tensorDirectory => 1
  | .modelMetadata => 2
  | .tokenizerMetadata => 3
  | .integrityMetadata => 4
  | .nestedDirectory => 5
  | .moeDirectory => 6
  | .sourceMetadata => 7
  | .quantizationMetadata => 8

/-- `RegionRole::from_id`. -/
def fromId (id : UInt16) : Option RegionRole :=
  match id.toNat with
  | 1 => some .tensorDirectory
  | 2 => some .modelMetadata
  | 3 => some .tokenizerMetadata
  | 4 => some .integrityMetadata
  | 5 => some .nestedDirectory
  | 6 => some .moeDirectory
  | 7 => some .sourceMetadata
  | 8 => some .quantizationMetadata
  | _ => none

/-- `RegionRole::is_required`. -/
def isRequired : RegionRole → Bool
  | .tensorDirectory | .modelMetadata => true
  | _ => false

@[simp] theorem fromId_id (role : RegionRole) : fromId role.id = some role := by
  cases role <;> rfl

end RegionRole

/-- `BootstrapEntry`. -/
structure BootstrapEntry where
  roleId : UInt16
  required : Bool
  keyId : UInt16
  occurrence : UInt16
  deriving DecidableEq, Repr

/-- `SemanticRegion`. -/
structure SemanticRegion where
  role : RegionRole
  keyId : UInt16
  occurrence : UInt16
  blockIndex : Nat
  range : CheckedRange
  deriving DecidableEq

/-- `Bootstrap`. -/
structure Bootstrap where
  profileVersion : Nat
  regions : List SemanticRegion

/-- The blocks of a key with their indices, in stream order. -/
def keyBlocks (blocks : List Block) (keyId : UInt16) : List (Block × Nat) :=
  blocks.zipIdx.filter (fun pair => pair.1.keyId = keyId)

/-- `.filter(key_id).nth(occurrence)`: the index of the n-th block of a key. -/
def nthOccurrence (blocks : List Block) (keyId occurrence : UInt16) : Option Nat :=
  (keyBlocks blocks keyId)[occurrence.toNat]?.map Prod.snd

/-- A profile call of a canonical function. -/
def ofV06 {α : Type*} (result : Except V06.Error α) : Except MlError α := mapErr MlError.ofV06 result

namespace Bootstrap

/-- `BOOTSTRAP_KEY_ID`. -/
def keyId : UInt16 := 0xF000

/-- `PROFILE_VERSION`. -/
def profileVersionSupported : Nat := 1

/-- `BOOTSTRAP_MAGIC`: the bytes `VBUFML` and two zeros. -/
def magic : List UInt8 := [0x56, 0x42, 0x55, 0x46, 0x4d, 0x4c, 0, 0]

/-- `MAX_BOOTSTRAP_BYTES`. -/
def maxBytes : Nat := 4096

/-- The 16 bytes of an entry. -/
def entryBytes (entry : BootstrapEntry) : List UInt8 :=
  leBytes 2 entry.roleId.toNat ++ leBytes 2 (if entry.required then 1 else 0) ++
    leBytes 2 entry.keyId.toNat ++ leBytes 2 entry.occurrence.toNat ++ leBytes 8 0

/-- `encode_payload`. -/
def encodePayload (entries : List BootstrapEntry) : Except MlError (List UInt8) := do
  let total := 16 + entries.length * 16
  rejectIf (maxBytes < total ∨ 65535 < entries.length)
    ⟨.malformedBootstrap, "bootstrap exceeds bounded size"⟩
  pure (magic ++ leBytes 2 profileVersionSupported ++ leBytes 2 0 ++ leBytes 2 entries.length ++
    leBytes 2 0 ++ entries.flatMap entryBytes)

/-- One iteration of the entry loop of `parse_payload`. -/
def parseEntry (bytes : List UInt8) (offset : Nat) : Except MlError BootstrapEntry := do
  let flags := leAt bytes (offset + 2) 2
  rejectIf (1 < flags ∨ (slice bytes (offset + 8) 8).any (fun byte => byte != 0))
    ⟨.invalidBootstrapFlags, "bootstrap entry flags or reserved bytes are non-zero"⟩
  pure
    { roleId := UInt16.ofNat (leAt bytes offset 2)
      required := flags = 1
      keyId := UInt16.ofNat (leAt bytes (offset + 4) 2)
      occurrence := UInt16.ofNat (leAt bytes (offset + 6) 2) }

/-- The entry loop of `parse_payload`. -/
def parseEntries (bytes : List UInt8) (offset : Nat) :
    Nat → Except MlError (List BootstrapEntry)
  | 0 => .ok []
  | count + 1 => do
      let entry ← parseEntry bytes offset
      let rest ← parseEntries bytes (offset + 16) count
      pure (entry :: rest)

/-- `parse_payload`. -/
def parsePayload (bytes : List UInt8) : Except MlError (Nat × List BootstrapEntry) := do
  rejectIf (bytes.length < 16 ∨ maxBytes < bytes.length ∨ slice bytes 0 8 ≠ magic)
    ⟨.malformedBootstrap, "bootstrap header is invalid"⟩
  let version := leAt bytes 8 2
  rejectIf (version ≠ profileVersionSupported)
    ⟨.unsupportedProfileVersion, "unsupported vBuf-ML profile version"⟩
  rejectIf (leAt bytes 10 2 ≠ 0 ∨ leAt bytes 14 2 ≠ 0)
    ⟨.invalidBootstrapFlags, "bootstrap reserved fields are non-zero"⟩
  let count := leAt bytes 12 2
  let expected := 16 + count * 16
  rejectIf (expected ≠ bytes.length ∨ maxBytes < expected)
    ⟨.malformedBootstrap, "bootstrap length does not match entry count"⟩
  let entries ← parseEntries bytes 16 count
  pure (version, entries)

/-- One iteration of the region loop of `discover`; an unknown optional role is
skipped. -/
def discoverEntry (validated : Validated) (regions : List SemanticRegion) (entry : BootstrapEntry) :
    Except MlError (List SemanticRegion) :=
  match RegionRole.fromId entry.roleId with
  | none => do
      rejectIf (entry.required = true) ⟨.unknownRequiredRole, "unknown required profile role"⟩
      pure regions
  | some role => do
      rejectIf (role ∈ regions.map SemanticRegion.role)
        ⟨.duplicateRole, "profile role occurs more than once"⟩
      rejectIf (entry.required ≠ role.isRequired)
        ⟨.malformedBootstrap, "role requiredness does not match profile contract"⟩
      let blockIndex ← okOr (nthOccurrence validated.blocks entry.keyId entry.occurrence)
        ⟨.referencedRegionMissing, "bootstrap region reference is absent"⟩
      let range ← ofV06 (validated.payloadRange blockIndex)
      pure (regions ++
        [{ role, keyId := entry.keyId, occurrence := entry.occurrence, blockIndex, range }])

/-- `Bootstrap::discover`. -/
def discover (validated : Validated) : Except MlError Bootstrap := do
  let index ←
    match keyBlocks validated.blocks keyId with
    | [] => .error ⟨.bootstrapNotFound, "bootstrap Key-ID is absent"⟩
    | [(_, index)] => pure index
    | _ => .error ⟨.bootstrapDuplicate, "bootstrap Key-ID occurs more than once"⟩
  let block ← okOr validated.blocks[index]? ⟨.bootstrapNotFound, "bootstrap Key-ID is absent"⟩
  rejectIf (block.semantic ≠ .opaqueBytes ∨ block.bitWidth ≠ 8)
    ⟨.regionTypeMismatch, "bootstrap must be an opaque byte region"⟩
  let payload ← ofV06 (validated.payloadRange index)
  let (profileVersion, entries) ← parsePayload payload.bytes
  let regions ← entries.foldlM (discoverEntry validated) []
  rejectIf (.tensorDirectory ∉ regions.map SemanticRegion.role ∨
      .modelMetadata ∉ regions.map SemanticRegion.role)
    ⟨.missingRequiredRole, "required profile role is absent"⟩
  pure { profileVersion, regions }

/-- `Bootstrap::region`. -/
def region (bootstrap : Bootstrap) (role : RegionRole) : Option SemanticRegion :=
  bootstrap.regions.find? (fun region => region.role = role)

@[simp] theorem entryBytes_length (entry : BootstrapEntry) : (entryBytes entry).length = 16 := by
  simp [entryBytes]

private theorem uint16_lt (value : UInt16) : value.toNat < 256 ^ 2 := value.toNat_lt

/-- An entry is read back where its bytes stand. -/
theorem parseEntry_of_holds {bytes : List UInt8} {offset : Nat} {entry : BootstrapEntry}
    (h : Holds bytes offset (entryBytes entry)) : parseEntry bytes offset = .ok entry := by
  simp only [entryBytes, holds_append, leBytes_length, List.length_append] at h
  obtain ⟨⟨⟨⟨hrole, hflags⟩, hkey⟩, hoccurrence⟩, hzero⟩ := h
  have hrole' := leAt_of_holds hrole (uint16_lt _)
  have hflags' := leAt_of_holds hflags (by split <;> decide)
  have hkey' := leAt_of_holds hkey (uint16_lt _)
  have hoccurrence' := leAt_of_holds hoccurrence (uint16_lt _)
  have hreserved : slice bytes (offset + 8) 8 = List.replicate 8 0 := by
    rw [leBytes_zero_value] at hzero
    exact hzero
  unfold parseEntry
  rw [hrole', hflags', hkey', hoccurrence', hreserved]
  obtain ⟨roleId, required, keyId, occurrence⟩ := entry
  cases required <;> simp [rejectIf, bind, Except.bind, pure, Except.pure]

theorem parseEntries_of_holds {bytes : List UInt8} {offset : Nat} {entries : List BootstrapEntry}
    (h : Holds bytes offset (entries.flatMap entryBytes)) :
    parseEntries bytes offset entries.length = .ok entries := by
  induction entries generalizing offset with
  | nil => rfl
  | cons entry rest ih =>
      rw [List.flatMap_cons, holds_append, entryBytes_length] at h
      rw [List.length_cons, parseEntries, parseEntry_of_holds h.1]
      simp only [bind, Except.bind]
      rw [ih h.2]
      rfl

/-- The reader returns the entries that were written. -/
theorem parsePayload_encodePayload {entries : List BootstrapEntry} {bytes : List UInt8}
    (h : encodePayload entries = .ok bytes) :
    parsePayload bytes = .ok (profileVersionSupported, entries) := by
  simp only [encodePayload, bind_eq_ok_iff, rejectIf_eq_ok_iff, pure_eq_ok_iff, not_or, not_lt] at h
  obtain ⟨-, ⟨hmax, hcount⟩, hbytes⟩ := h
  have hflat : (entries.flatMap entryBytes).length = entries.length * 16 := by
    simp [List.length_flatMap]
  have hlength : bytes.length = 16 + entries.length * 16 := by
    rw [← hbytes]
    simp [hflat, magic]
    omega
  have hholds := holds_self bytes
  nth_rewrite 2 [← hbytes] at hholds
  simp only [holds_append, List.length_append, leBytes_length] at hholds
  obtain ⟨⟨⟨⟨⟨hmagic, hversion⟩, hzero⟩, hentries⟩, hzero'⟩, hrest⟩ := hholds
  have hmagic' : slice bytes 0 8 = magic := hmagic
  have hversion' : leAt bytes 8 2 = profileVersionSupported := leAt_of_holds hversion (by decide)
  have hflags : leAt bytes 10 2 = 0 := leAt_of_holds hzero (by decide)
  have hentries' : leAt bytes 12 2 = entries.length := leAt_of_holds hentries (by omega)
  have hreserved : leAt bytes 14 2 = 0 := leAt_of_holds hzero' (by decide)
  simp only [parsePayload, bind_eq_ok_iff, rejectIf_eq_ok_iff, pure_eq_ok_iff, not_or, not_lt,
    not_not, hentries', hversion']
  refine ⟨(), ⟨by omega, by omega, hmagic'⟩, (), trivial, (), ⟨hflags, hreserved⟩, (), ?_, entries,
    parseEntries_of_holds hrest, rfl⟩
  exact ⟨hlength.symm, hmax⟩

end Bootstrap

end VBuf.Ml
