import VBuf.Lib.Utf8
import VBuf.Ml.Bootstrap
import VBuf.Ml.Representation
import VBuf.Ml.Source

/-!
# The tensor directory

`encodePayload` writes the entries in name order and `parsePayload` reads them
back; `parse` binds each entry to the n-th block of its key and checks that the
block carries the entry's shape.
-/

namespace VBuf.Ml

open VBuf.Lib VBuf.Layout VBuf.V06

/-- `TensorEntry`. -/
structure TensorEntry where
  name : String
  dimensions : List Nat
  representation : TensorRepresentation
  keyId : UInt16
  occurrence : UInt16
  deriving DecidableEq, Repr

/-- `RawEntry`. -/
structure RawEntry where
  name : List UInt8
  dimensions : List Nat
  representation : TensorRepresentation
  keyId : UInt16
  occurrence : UInt16
  deriving DecidableEq, Repr

/-- `TensorDescriptor`. -/
structure TensorDescriptor where
  name : String
  dimensions : List Nat
  representation : TensorRepresentation
  keyId : UInt16
  occurrence : UInt16
  blockIndex : Nat
  range : Option CheckedRange
  payload : TensorRef
  deriving DecidableEq

/-- `TensorDirectory`. -/
structure TensorDirectory where
  tensors : List TensorDescriptor
  deriving DecidableEq

/-- What the directory stores of an entry. -/
def TensorEntry.raw (entry : TensorEntry) : RawEntry where
  name := utf8 entry.name
  dimensions := entry.dimensions
  representation := entry.representation
  keyId := entry.keyId
  occurrence := entry.occurrence

/-- The order of names: by bytes. -/
def NameLe (a b : String) : Prop := byteKey a ≤ byteKey b

instance : DecidableRel NameLe := fun a b => inferInstanceAs (Decidable (byteKey a ≤ byteKey b))

/-- `windows(2)` finds two equal neighbours. -/
def hasEqualNeighbours {α : Type*} [DecidableEq α] (items : List α) : Bool :=
  (items.zip items.tail).any (fun pair => pair.1 = pair.2)

namespace TensorDirectory

/-- `DIRECTORY_MAGIC`: the bytes `VBTDIR` and two zeros. -/
def magic : List UInt8 := [0x56, 0x42, 0x54, 0x44, 0x49, 0x52, 0, 0]

/-- `DIRECTORY_VERSION`. -/
def version : Nat := 1

/-- `MAX_DIRECTORY_BYTES`. -/
def maxBytes : Nat := 16 * 1024 * 1024

/-- `MAX_TENSORS`. -/
def maxTensors : Nat := 1000000

/-- `MAX_NAME_BYTES`. -/
def maxNameBytes : Nat := 4096

/-- `MAX_RANK`. -/
def maxRank : Nat := 16

/-- `validate_entry`; a `String` is UTF-8 already. -/
def validateEntry (entry : TensorEntry) : Except MlError Unit := do
  rejectIf (entry.name = "" ∨ maxNameBytes < (utf8 entry.name).length ∨ 0 ∈ utf8 entry.name)
    ⟨.invalidTensorName, "tensor name is invalid"⟩
  rejectIf (maxRank < entry.dimensions.length)
    ⟨.invalidRank, "tensor rank exceeds profile maximum"⟩
  rejectIf (0 ∈ entry.dimensions)
    ⟨.invalidDimension, "zero tensor dimensions are not supported"⟩
  let _elements ← okOr (checkedProduct entry.dimensions)
    ⟨.shapeOverflow, "tensor shape product overflows u64"⟩
  pure ()

/-- The bytes of an entry. -/
def entryBytes (entry : TensorEntry) : List UInt8 :=
  leBytes 2 (utf8 entry.name).length ++ leBytes 1 entry.dimensions.length ++
    leBytes 1 entry.representation.code ++ leBytes 2 entry.keyId.toNat ++
    leBytes 2 entry.occurrence.toNat ++ leBytes 2 0 ++ utf8 entry.name ++
    entry.dimensions.flatMap (leBytes 8)

/-- The loop of `encode_payload`. -/
def encodeEntries : List TensorEntry → Except MlError (List UInt8)
  | [] => .ok []
  | entry :: rest => do
      validateEntry entry
      let tail ← encodeEntries rest
      pure (entryBytes entry ++ tail)

/-- The entries in name order. -/
def ordered (entries : List TensorEntry) : List TensorEntry :=
  entries.insertionSort (fun left right => NameLe left.name right.name)

/-- `encode_payload`. -/
def encodePayload (entries : List TensorEntry) : Except MlError (List UInt8) := do
  rejectIf (maxTensors < entries.length)
    ⟨.malformedTensorDirectory, "tensor count exceeds profile maximum"⟩
  let ordered := ordered entries
  rejectIf (hasEqualNeighbours (ordered.map TensorEntry.name) = true)
    ⟨.duplicateTensorName, "tensor names must be unique"⟩
  let body ← encodeEntries ordered
  let output := magic ++ leBytes 2 version ++ leBytes 2 0 ++ leBytes 4 ordered.length ++
    leBytes 4 0 ++ body
  rejectIf (maxBytes < output.length)
    ⟨.malformedTensorDirectory, "tensor directory exceeds bounded size"⟩
  pure output

/-- The loop of `parse_payload` over the dimension table. -/
def parseDimensions (bytes : List UInt8) (offset : Nat) : Nat → Except MlError (List Nat)
  | 0 => .ok []
  | rank + 1 => do
      let dimension := leAt bytes offset 8
      rejectIf (dimension = 0)
        ⟨.invalidDimension, "zero tensor dimensions are not supported"⟩
      let rest ← parseDimensions bytes (offset + 8) rank
      pure (dimension :: rest)

/-- One iteration of the entry loop of `parse_payload`, with the next cursor. -/
def parseEntry (bytes : List UInt8) (cursor : Nat) : Except MlError (RawEntry × Nat) := do
  let fixed ← okOr (range? bytes cursor (cursor + 10))
    ⟨.malformedTensorDirectory, "truncated tensor directory entry"⟩
  let nameLen := leAt fixed 0 2
  let rank := leAt fixed 2 1
  rejectIf (nameLen = 0 ∨ maxNameBytes < nameLen)
    ⟨.invalidTensorName, "tensor name length is invalid"⟩
  rejectIf (maxRank < rank) ⟨.invalidRank, "tensor rank exceeds profile maximum"⟩
  rejectIf (leAt fixed 8 2 ≠ 0)
    ⟨.malformedTensorDirectory, "tensor entry reserved field is non-zero"⟩
  let representation ← representationFromId (leAt fixed 3 1)
  let cursor := cursor + 10
  let name ← okOr (range? bytes cursor (cursor + nameLen))
    ⟨.malformedTensorDirectory, "truncated tensor name"⟩
  rejectIf (fromUtf8 name = none ∨ 0 ∈ name)
    ⟨.invalidTensorName, "tensor name is invalid UTF-8 or contains NUL"⟩
  let cursor := cursor + nameLen
  let _table ← okOr (range? bytes cursor (cursor + rank * 8))
    ⟨.malformedTensorDirectory, "truncated tensor dimensions"⟩
  let dimensions ← parseDimensions bytes cursor rank
  pure
    ({ name
       dimensions
       representation
       keyId := UInt16.ofNat (leAt fixed 4 2)
       occurrence := UInt16.ofNat (leAt fixed 6 2) },
     cursor + rank * 8)

/-- The entry loop of `parse_payload`. -/
def parseEntries (bytes : List UInt8) (cursor : Nat) :
    Nat → Except MlError (List RawEntry × Nat)
  | 0 => .ok ([], cursor)
  | count + 1 => do
      let (entry, cursor) ← parseEntry bytes cursor
      let (rest, cursor) ← parseEntries bytes cursor count
      pure (entry :: rest, cursor)

/-- `parse_payload`. -/
def parsePayload (bytes : List UInt8) : Except MlError (List RawEntry) := do
  rejectIf (bytes.length < 20 ∨ maxBytes < bytes.length ∨ slice bytes 0 8 ≠ magic)
    ⟨.malformedTensorDirectory, "tensor directory header is invalid"⟩
  rejectIf (leAt bytes 8 2 ≠ version)
    ⟨.unsupportedTensorDirectoryVersion, "unsupported tensor directory version"⟩
  rejectIf (leAt bytes 10 2 ≠ 0 ∨ leAt bytes 16 4 ≠ 0 ∨ maxTensors < leAt bytes 12 4)
    ⟨.malformedTensorDirectory, "tensor directory flags or count are invalid"⟩
  let (entries, cursor) ← parseEntries bytes 20 (leAt bytes 12 4)
  rejectIf (cursor ≠ bytes.length)
    ⟨.malformedTensorDirectory, "tensor directory has trailing bytes"⟩
  pure entries

/-- The payload of an entry: its external binding, or the target block itself. -/
def bindPayload (sources : SourceRegistry) (external : List (UInt16 × UInt16 × TensorRef))
    (raw : RawEntry) (target : Block) : Except MlError TensorRef :=
  match external.find? (fun binding => binding.1 = raw.keyId ∧ binding.2.1 = raw.occurrence) with
  | some (_, _, payload) => .ok payload
  | none => do
      let selfSource ← okOr (sources.get .self)
        ⟨.tensorReferenceMissing, "self source descriptor is absent"⟩
      mapErr (fun _ => ⟨.tensorReferenceMissing, "canonical self range is not source-bounded"⟩)
        (selfSource.tensorRef target.payloadStart target.payloadLen)

/-- The shape check of a bound entry: an empty self payload is a placeholder. -/
def checkGeometry (raw : RawEntry) (target : Block) (payload : TensorRef) : Except MlError Unit :=
  if payload.sourceId = .self ∧ target.payloadLen ≠ 0 then
    validateTensorRepresentation raw.representation raw.dimensions target
  else
    validateExternalTensorRepresentation raw.representation raw.dimensions target payload.length

/-- The range of a payload that the artifact itself holds. -/
def selfRange (validated : Validated) (blockIndex : Nat) (payload : TensorRef) :
    Except MlError (Option CheckedRange) :=
  if payload.sourceId = .self then
    some <$> ofV06 (validated.payloadRange blockIndex)
  else .ok none

/-- One iteration of the loop of `parse_with_sources`, after the order check. -/
def resolveEntry (validated : Validated) (sources : SourceRegistry)
    (external : List (UInt16 × UInt16 × TensorRef)) (raw : RawEntry) :
    Except MlError TensorDescriptor := do
  let name ← okOr (fromUtf8 raw.name) ⟨.invalidTensorName, "tensor name is not valid UTF-8"⟩
  let missing : MlError := ⟨.tensorReferenceMissing, "tensor canonical reference is absent"⟩
  let blockIndex ← okOr (nthOccurrence validated.blocks raw.keyId raw.occurrence) missing
  let target ← okOr validated.blocks[blockIndex]? missing
  rejectIf (target.continuation = true)
    ⟨.tensorRepresentationMismatch, "continuation tensor values are not supported by profile 0.1"⟩
  let payload ← bindPayload sources external raw target
  checkGeometry raw target payload
  rejectIf (payload.sourceId = .self ∧ payload.length ≠ target.payloadLen)
    ⟨.tensorPayloadSizeMismatch,
      "external tensor range length does not match canonical tensor geometry"⟩
  rejectIf (sources.get payload.sourceId = none)
    ⟨.tensorReferenceMissing, "tensor source ID is not registered"⟩
  let range ← selfRange validated blockIndex payload
  pure
    { name
      dimensions := raw.dimensions
      representation := raw.representation
      keyId := raw.keyId
      occurrence := raw.occurrence
      blockIndex
      range
      payload }

/-- Byte strings compare as sequences of unsigned numbers. -/
def bytesKey (bytes : List UInt8) : List Nat := bytes.map UInt8.toNat

/-- The loop of `parse_with_sources`, with the previous name. -/
def resolveEntries (validated : Validated) (sources : SourceRegistry)
    (external : List (UInt16 × UInt16 × TensorRef)) :
    Option (List UInt8) → List RawEntry → Except MlError (List TensorDescriptor)
  | _, [] => .ok []
  | previous, raw :: rest => do
      rejectIf (∃ name ∈ previous, bytesKey raw.name ≤ bytesKey name)
        ⟨if previous = some raw.name then .duplicateTensorName else .invalidDirectoryOrder,
          "tensor names must be unique and strictly sorted"⟩
      let tensor ← resolveEntry validated sources external raw
      let tensors ← resolveEntries validated sources external (some raw.name) rest
      pure (tensor :: tensors)

/-- `TensorDirectory::parse_with_sources`. -/
def parseWithSources (validated : Validated) (bootstrap : Bootstrap) (sources : SourceRegistry)
    (external : List (UInt16 × UInt16 × TensorRef)) : Except MlError TensorDirectory := do
  let region ← okOr (bootstrap.region .tensorDirectory)
    ⟨.tensorDirectoryMissing, "bootstrap has no tensor directory role"⟩
  let block ← okOr validated.blocks[region.blockIndex]?
    ⟨.tensorReferenceMissing, "tensor directory block index is absent"⟩
  rejectIf (block.semantic ≠ .opaqueBytes ∨ block.physical ≠ .array ∨ block.bitWidth ≠ 8 ∨
      block.continuation = true)
    ⟨.regionTypeMismatch, "tensor directory must be a non-continuing opaque byte array"⟩
  let entries ← parsePayload region.range.bytes
  let tensors ← resolveEntries validated sources external none entries
  pure { tensors }

/-- `TensorDirectory::parse`. -/
def parse (validated : Validated) (bootstrap : Bootstrap) : Except MlError TensorDirectory := do
  let registry ← mapErr (fun _ => ⟨.malformedTensorDirectory, "self source registry is invalid"⟩)
    (SourceRegistry.new [.selfArtifact validated.bytes.length])
  parseWithSources validated bootstrap registry []

/-- `TensorDirectory::get`: in a strictly sorted list the binary search finds
the one tensor of that name. -/
def get (directory : TensorDirectory) (name : String) : Option TensorDescriptor :=
  directory.tensors.find? (fun tensor => tensor.name = name)

theorem validateEntry_eq_ok_iff {entry : TensorEntry} :
    validateEntry entry = .ok () ↔
      (entry.name ≠ "" ∧ (utf8 entry.name).length ≤ maxNameBytes ∧ 0 ∉ utf8 entry.name) ∧
        entry.dimensions.length ≤ maxRank ∧ 0 ∉ entry.dimensions ∧
        ∃ elements, checkedProduct entry.dimensions = some elements := by
  simp only [validateEntry, bind_eq_ok_iff, rejectIf_eq_ok_iff, okOr_eq_ok_iff, pure_eq_ok_iff,
    not_or, not_lt, exists_const, and_true]

theorem encodeEntries_eq_ok_iff {entries : List TensorEntry} {bytes : List UInt8} :
    encodeEntries entries = .ok bytes ↔
      (∀ entry ∈ entries, validateEntry entry = .ok ()) ∧ bytes = entries.flatMap entryBytes := by
  induction entries generalizing bytes with
  | nil => simp [encodeEntries, eq_comm]
  | cons entry rest ih =>
      simp only [encodeEntries, bind_eq_ok_iff, pure_eq_ok_iff, ih, List.forall_mem_cons,
        List.flatMap_cons]
      constructor
      · intro h
        obtain ⟨_, hentry, tail, ⟨hrest, rfl⟩, rfl⟩ := h
        exact ⟨⟨hentry, hrest⟩, rfl⟩
      · intro h
        obtain ⟨⟨hentry, hrest⟩, rfl⟩ := h
        exact ⟨(), hentry, _, ⟨hrest, rfl⟩, rfl⟩

@[simp] theorem ordered_length (entries : List TensorEntry) :
    (ordered entries).length = entries.length :=
  (List.perm_insertionSort _ entries).length_eq

theorem encodePayload_eq_ok_iff {entries : List TensorEntry} {bytes : List UInt8} :
    encodePayload entries = .ok bytes ↔
      entries.length ≤ maxTensors ∧
        hasEqualNeighbours ((ordered entries).map TensorEntry.name) = false ∧
        (∀ entry ∈ entries, validateEntry entry = .ok ()) ∧
        bytes = magic ++ leBytes 2 version ++ leBytes 2 0 ++ leBytes 4 entries.length ++
          leBytes 4 0 ++ (ordered entries).flatMap entryBytes ∧
        bytes.length ≤ maxBytes := by
  simp only [encodePayload, bind_eq_ok_iff, rejectIf_eq_ok_iff, pure_eq_ok_iff,
    encodeEntries_eq_ok_iff, not_lt, exists_const, Bool.not_eq_true, ordered_length]
  have hmem : (∀ entry ∈ ordered entries, validateEntry entry = .ok ()) ↔
      ∀ entry ∈ entries, validateEntry entry = .ok () := by
    unfold ordered
    simp only [List.mem_insertionSort]
  rw [hmem]
  constructor
  · intro h
    obtain ⟨hcount, hnames, body, ⟨hentries, rfl⟩, hsize, rfl⟩ := h
    exact ⟨hcount, hnames, hentries, rfl, hsize⟩
  · intro h
    obtain ⟨hcount, hnames, hentries, rfl, hsize⟩ := h
    exact ⟨hcount, hnames, _, ⟨hentries, rfl⟩, hsize, rfl⟩

/-! ### The reader returns what was written -/

theorem parseDimensions_of_holds {bytes : List UInt8} {offset : Nat} {dimensions : List Nat}
    (hzero : 0 ∉ dimensions) (hlt : ∀ dimension ∈ dimensions, dimension < u64Bound)
    (h : Holds bytes offset (dimensions.flatMap (leBytes 8))) :
    parseDimensions bytes offset dimensions.length = .ok dimensions := by
  induction dimensions generalizing offset with
  | nil => rfl
  | cons dimension rest ih =>
      rw [List.flatMap_cons, holds_append, leBytes_length] at h
      rw [List.mem_cons, not_or] at hzero
      have hbound := hlt dimension List.mem_cons_self
      rw [u64Bound_eq] at hbound
      have hread := leAt_of_holds h.1 hbound
      have hrest := ih hzero.2 (fun d hd => hlt d (List.mem_cons_of_mem _ hd)) h.2
      simp only [List.length_cons, parseDimensions, bind_eq_ok_iff, rejectIf_eq_ok_iff,
        pure_eq_ok_iff, hread]
      exact ⟨(), Ne.symm hzero.1, rest, hrest, rfl⟩

/-- A dimension of a shape whose product is a `u64` is a `u64`. -/
theorem dimension_lt {dimensions : List Nat} {elements : Nat} (hzero : 0 ∉ dimensions)
    (hproduct : checkedProduct dimensions = some elements) :
    ∀ dimension ∈ dimensions, dimension < u64Bound := by
  suffices hfold : ∀ start, 0 < start → dimensions.foldlM checkedMul? start = some elements →
      ∀ dimension ∈ dimensions, dimension < u64Bound from hfold 1 Nat.one_pos hproduct
  clear hproduct
  induction dimensions with
  | nil => simp
  | cons first rest ih =>
      intro start hstart h dimension hmem
      rw [List.mem_cons, not_or] at hzero
      rw [List.foldlM_cons, Option.bind_eq_bind, Option.bind_eq_some_iff] at h
      obtain ⟨next, hnext, hrest⟩ := h
      obtain ⟨hlt, rfl⟩ := checkedMul?_eq_some_iff.1 hnext
      have hfirst : 0 < first := Nat.pos_of_ne_zero (Ne.symm hzero.1)
      rcases List.mem_cons.1 hmem with rfl | hlater
      · exact Nat.lt_of_le_of_lt (Nat.le_mul_of_pos_left _ hstart) hlt
      · exact ih hzero.2 _ (Nat.mul_pos hstart hfirst) hrest dimension hlater

@[simp] theorem flatMap_leBytes_length (width : Nat) (values : List Nat) :
    (values.flatMap (leBytes width)).length = values.length * width := by
  simp [List.length_flatMap]

theorem entryBytes_length (entry : TensorEntry) :
    (entryBytes entry).length = 10 + (utf8 entry.name).length + entry.dimensions.length * 8 := by
  simp only [entryBytes, List.length_append, leBytes_length, flatMap_leBytes_length]

/-- An entry is read back where its bytes stand. -/
theorem parseEntry_of_holds {bytes : List UInt8} {cursor : Nat} {entry : TensorEntry}
    (hvalid : validateEntry entry = .ok ()) (hcursor : cursor ≤ bytes.length)
    (h : Holds bytes cursor (entryBytes entry)) :
    parseEntry bytes cursor = .ok (entry.raw, cursor + (entryBytes entry).length) := by
  obtain ⟨⟨hname, hlong, hnul⟩, hrank, hzero, elements, hproduct⟩ :=
    validateEntry_eq_ok_iff.1 hvalid
  have hinside := h.length_le hcursor
  rw [entryBytes_length] at hinside ⊢
  have hempty : (utf8 entry.name).length ≠ 0 := by
    intro hnil
    apply hname
    apply utf8_injective
    rw [List.length_eq_zero_iff.1 hnil]
    rfl
  simp only [entryBytes, holds_append, List.length_append, leBytes_length] at h
  obtain ⟨⟨⟨⟨⟨⟨⟨hlen, hdims⟩, hrep⟩, hkey⟩, hocc⟩, hreserved⟩, htext⟩, htable⟩ := h
  unfold maxNameBytes at hlong
  unfold maxRank at hrank
  -- The fixed part is read from the ten bytes at the cursor.
  have hfixed : ∀ offset width, offset + width ≤ 10 →
      leAt (slice bytes cursor 10) offset width = leAt bytes (cursor + offset) width := by
    intro offset width hle
    rw [leAt, slice_slice hle]
    rfl
  have hsub : cursor + 10 - cursor = 10 := Nat.add_sub_cancel_left _ _
  have hlen' := leAt_of_holds hlen (by omega)
  have hdims' := leAt_of_holds hdims (by omega)
  have hrep' := leAt_of_holds hrep entry.representation.code_lt
  have hkey' := leAt_of_holds hkey entry.keyId.toNat_lt
  have hocc' := leAt_of_holds hocc entry.occurrence.toNat_lt
  have hreserved' := leAt_of_holds hreserved (by decide)
  have htext' : slice bytes (cursor + 10) (utf8 entry.name).length = utf8 entry.name := htext
  have hrange₁ : range? bytes cursor (cursor + 10) = some (slice bytes cursor 10) := by
    rw [range?_of_le (by omega) (by omega), hsub]
  have hrange₂ : range? bytes (cursor + 10) (cursor + 10 + (utf8 entry.name).length) =
      some (utf8 entry.name) := by
    rw [range?_of_le (by omega) (by omega), Nat.add_sub_cancel_left, htext']
  have hrange₃ : ∃ table, range? bytes (cursor + 10 + (utf8 entry.name).length)
      (cursor + 10 + (utf8 entry.name).length + entry.dimensions.length * 8) = some table :=
    ⟨_, range?_of_le (by omega) (by omega)⟩
  obtain ⟨table, hrange₃⟩ := hrange₃
  have htable' : Holds bytes (cursor + 10 + (utf8 entry.name).length)
      (entry.dimensions.flatMap (leBytes 8)) := by
    rw [Nat.add_assoc]
    exact htable
  have hread := parseDimensions_of_holds hzero (dimension_lt hzero hproduct) htable'
  simp only [parseEntry, bind_eq_ok_iff, okOr_eq_ok_iff, rejectIf_eq_ok_iff, pure_eq_ok_iff]
  refine ⟨_, hrange₁, ?_⟩
  rw [hfixed 0 2 (by decide), hfixed 2 1 (by decide), hfixed 3 1 (by decide),
    hfixed 4 2 (by decide), hfixed 6 2 (by decide), hfixed 8 2 (by decide)]
  simp only [Nat.add_zero, hlen', hdims', hrep', hkey', hocc', hreserved', hrange₂, hrange₃,
    representationFromId_code, Option.some.injEq, UInt16.ofNat_toNat]
  refine ⟨(), ?_, (), ?_, (), ?_, _, rfl, _, rfl, (), ?_, _, rfl, _, hread, ?_⟩
  · exact not_or.2 ⟨hempty, Nat.not_lt.2 hlong⟩
  · exact Nat.not_lt.2 hrank
  · exact not_not.2 rfl
  · rw [fromUtf8_utf8]
    exact not_or.2 ⟨Option.some_ne_none _, hnul⟩
  · rw [Prod.mk.injEq]
    exact ⟨rfl, by omega⟩

theorem parseEntries_of_holds {bytes : List UInt8} {cursor : Nat} {entries : List TensorEntry}
    (hvalid : ∀ entry ∈ entries, validateEntry entry = .ok ()) (hcursor : cursor ≤ bytes.length)
    (h : Holds bytes cursor (entries.flatMap entryBytes)) :
    parseEntries bytes cursor entries.length =
      .ok (entries.map TensorEntry.raw, cursor + (entries.flatMap entryBytes).length) := by
  induction entries generalizing cursor with
  | nil => rfl
  | cons entry rest ih =>
      rw [List.flatMap_cons, holds_append] at h
      have hinside := h.1.length_le hcursor
      have hentry := parseEntry_of_holds (hvalid entry List.mem_cons_self) hcursor h.1
      have hrest := ih (fun e he => hvalid e (List.mem_cons_of_mem _ he)) hinside h.2
      simp only [List.length_cons, parseEntries, bind_eq_ok_iff, pure_eq_ok_iff]
      refine ⟨_, hentry, _, hrest, ?_⟩
      rw [List.map_cons, List.flatMap_cons, List.length_append, Nat.add_assoc]

/-- The reader returns the entries that were written, in name order. -/
theorem parsePayload_encodePayload {entries : List TensorEntry} {bytes : List UInt8}
    (h : encodePayload entries = .ok bytes) :
    parsePayload bytes = .ok ((ordered entries).map TensorEntry.raw) := by
  obtain ⟨hcount, -, hvalid, hbytes, hsize⟩ := encodePayload_eq_ok_iff.1 h
  have hvalid' : ∀ entry ∈ ordered entries, validateEntry entry = .ok () := by
    intro entry hmem
    exact hvalid entry ((List.mem_insertionSort _).1 hmem)
  have hlength : bytes.length = 20 + ((ordered entries).flatMap entryBytes).length := by
    rw [hbytes]
    simp only [List.length_append, leBytes_length]
    rfl
  have hholds := holds_self bytes
  nth_rewrite 2 [hbytes] at hholds
  simp only [holds_append, List.length_append, leBytes_length] at hholds
  obtain ⟨⟨⟨⟨⟨hmagic, hversion⟩, hzero⟩, hentries⟩, hzero'⟩, hrest⟩ := hholds
  unfold maxTensors at hcount
  have hmagic' : slice bytes 0 8 = magic := hmagic
  have hversion' : leAt bytes 8 2 = version := leAt_of_holds hversion (by decide)
  have hflags : leAt bytes 10 2 = 0 := leAt_of_holds hzero (by decide)
  have hentries' : leAt bytes 12 4 = entries.length := leAt_of_holds hentries (by omega)
  have hreserved : leAt bytes 16 4 = 0 := leAt_of_holds hzero' (by decide)
  have hrest' : Holds bytes 20 ((ordered entries).flatMap entryBytes) := hrest
  have hread := parseEntries_of_holds hvalid' (by omega) hrest'
  rw [ordered_length] at hread
  simp only [parsePayload, bind_eq_ok_iff, rejectIf_eq_ok_iff, pure_eq_ok_iff, hversion', hflags,
    hentries', hreserved, not_or, not_lt, not_not]
  refine ⟨(), ⟨by omega, hsize, hmagic'⟩, (), trivial, (), ⟨trivial, trivial, hcount⟩, _, hread, (),
    hlength.symm, rfl⟩

end TensorDirectory

end VBuf.Ml
