import VBuf.Ml.TensorDirectory

/-!
# Quantization metadata

Which scale tensor belongs to which FP8 weight, and in which block geometry.
The directory is kept in weight-name order; `validateAgainst` compares it with
the shapes of the tensor directory.
-/

namespace VBuf.Ml

open VBuf.Lib VBuf.V06

/-- `F8QuantizationEntry`. -/
structure F8QuantizationEntry where
  weightName : String
  scaleName : String
  blockRows : Nat
  blockColumns : Nat
  deriving DecidableEq, Repr

/-- `F8QuantizationDirectory`. -/
structure F8QuantizationDirectory where
  entries : List F8QuantizationEntry
  deriving DecidableEq, Repr

/-- `value.div_ceil(divisor)` for a divisor that is not zero. -/
def divCeil (value divisor : Nat) : Nat :=
  if value % divisor = 0 then value / divisor else value / divisor + 1

namespace F8QuantizationDirectory

/-- `QUANTIZATION_MAGIC`: the bytes `VBTQNT` and two zeros. -/
def magic : List UInt8 := [0x56, 0x42, 0x54, 0x51, 0x4e, 0x54, 0, 0]

/-- `QUANTIZATION_VERSION`. -/
def version : Nat := 1

/-- `MAX_ENTRIES`. -/
def maxEntries : Nat := 1000000

/-- What `validate_entry` accepts. -/
def ValidEntry (entry : F8QuantizationEntry) : Prop :=
  entry.weightName ≠ "" ∧ entry.scaleName ≠ "" ∧ (utf8 entry.weightName).length ≤ 65535 ∧
    (utf8 entry.scaleName).length ≤ 65535 ∧ entry.blockRows ≠ 0 ∧ entry.blockColumns ≠ 0

instance (entry : F8QuantizationEntry) : Decidable (ValidEntry entry) :=
  inferInstanceAs (Decidable (_ ∧ _ ∧ _ ∧ _ ∧ _ ∧ _))

/-- The entries in weight-name order. -/
def ordered (entries : List F8QuantizationEntry) : List F8QuantizationEntry :=
  entries.insertionSort (fun a b => NameLe a.weightName b.weightName)

/-- `F8QuantizationDirectory::new`. -/
def new (entries : List F8QuantizationEntry) : Except MlError F8QuantizationDirectory := do
  let entries := ordered entries
  rejectIf (¬ ∀ entry ∈ entries, ValidEntry entry)
    ⟨.invalidQuantizationMetadata, "FP8 quantization metadata entry is invalid"⟩
  rejectIf (hasEqualNeighbours (entries.map F8QuantizationEntry.weightName) = true)
    ⟨.invalidQuantizationMetadata, "duplicate FP8 quantization weight"⟩
  pure { entries }

/-- The bytes of an entry. -/
def entryBytes (entry : F8QuantizationEntry) : List UInt8 :=
  leBytes 2 (utf8 entry.weightName).length ++ leBytes 2 (utf8 entry.scaleName).length ++
    leBytes 8 entry.blockRows ++ leBytes 8 entry.blockColumns ++ utf8 entry.weightName ++
    utf8 entry.scaleName

/-- `encode_payload`. -/
def encodePayload (entries : List F8QuantizationEntry) : Except MlError (List UInt8) := do
  let directory ← new entries
  rejectIf (maxEntries < directory.entries.length)
    ⟨.malformedQuantizationMetadata, "quantization metadata entry count exceeds profile maximum"⟩
  pure (magic ++ leBytes 2 version ++ leBytes 2 0 ++ leBytes 4 directory.entries.length ++
    leBytes 4 0 ++ directory.entries.flatMap entryBytes)

/-- One iteration of the entry loop of `parse_payload`, with the next offset. -/
def parseEntry (bytes : List UInt8) (offset : Nat) :
    Except MlError (F8QuantizationEntry × Nat) := do
  rejectIf (bytes.length - offset < 20)
    ⟨.malformedQuantizationMetadata, "quantization metadata entry is truncated"⟩
  let weightLen := leAt bytes offset 2
  let scaleLen := leAt bytes (offset + 2) 2
  let blockRows := leAt bytes (offset + 4) 8
  let blockColumns := leAt bytes (offset + 12) 8
  let offset := offset + 20
  rejectIf (bytes.length - offset < weightLen + scaleLen)
    ⟨.malformedQuantizationMetadata, "quantization metadata names are truncated"⟩
  let weightName ← okOr (fromUtf8 (slice bytes offset weightLen))
    ⟨.invalidQuantizationMetadata, "FP8 weight name is not UTF-8"⟩
  let offset := offset + weightLen
  let scaleName ← okOr (fromUtf8 (slice bytes offset scaleLen))
    ⟨.invalidQuantizationMetadata, "FP8 scale name is not UTF-8"⟩
  pure ({ weightName, scaleName, blockRows, blockColumns }, offset + scaleLen)

/-- The entry loop of `parse_payload`. -/
def parseEntries (bytes : List UInt8) (offset : Nat) :
    Nat → Except MlError (List F8QuantizationEntry × Nat)
  | 0 => .ok ([], offset)
  | count + 1 => do
      let (entry, offset) ← parseEntry bytes offset
      let (rest, offset) ← parseEntries bytes offset count
      pure (entry :: rest, offset)

/-- `parse_payload`; the reserved header fields are not read. -/
def parsePayload (bytes : List UInt8) : Except MlError F8QuantizationDirectory := do
  rejectIf (bytes.length < 20 ∨ slice bytes 0 8 ≠ magic)
    ⟨.malformedQuantizationMetadata, "quantization metadata header is invalid"⟩
  rejectIf (leAt bytes 8 2 ≠ version)
    ⟨.malformedQuantizationMetadata, "unsupported quantization metadata version"⟩
  rejectIf (maxEntries < leAt bytes 12 4)
    ⟨.malformedQuantizationMetadata, "quantization metadata entry count is too large"⟩
  let (entries, offset) ← parseEntries bytes 20 (leAt bytes 12 4)
  rejectIf (offset ≠ bytes.length)
    ⟨.malformedQuantizationMetadata, "quantization metadata has trailing bytes"⟩
  new entries

/-- `F8QuantizationDirectory::parse`. -/
def parse (validated : Validated) (bootstrap : Bootstrap) :
    Except MlError (Option F8QuantizationDirectory) :=
  match bootstrap.region .quantizationMetadata with
  | none => .ok none
  | some region => do
      let block ← okOr validated.blocks[region.blockIndex]?
        ⟨.quantizationMetadataMissing, "quantization metadata block is absent"⟩
      rejectIf (block.semantic ≠ .opaqueBytes ∨ block.physical ≠ .array ∨ block.bitWidth ≠ 8 ∨
          block.continuation = true)
        ⟨.regionTypeMismatch, "quantization metadata must be a non-continuing opaque byte array"⟩
      let directory ← parsePayload region.range.bytes
      pure (some directory)

/-- The scale of a weight in a block geometry: one value for each block, or one
for each row of a channel-scaled weight. -/
def ScaleShape (rows columns blockRows blockColumns : Nat) (dimensions : List Nat) : Prop :=
  dimensions = [divCeil rows blockRows, divCeil columns blockColumns] ∨
    (blockRows = 1 ∧ blockColumns = columns) ∧ dimensions = [rows]

instance (rows columns blockRows blockColumns : Nat) (dimensions : List Nat) :
    Decidable (ScaleShape rows columns blockRows blockColumns dimensions) :=
  inferInstanceAs (Decidable (_ ∨ _))

/-- One iteration of the loop of `validate_against`. -/
def validateEntryAgainst (directory : TensorDirectory) (entry : F8QuantizationEntry) :
    Except MlError Unit := do
  let weight ← okOr (directory.get entry.weightName)
    ⟨.invalidQuantizationMetadata, "FP8 weight named by quantization metadata is absent"⟩
  let scale ← okOr (directory.get entry.scaleName)
    ⟨.invalidQuantizationMetadata, "FP8 scale named by quantization metadata is absent"⟩
  rejectIf (weight.representation ≠ .f8E4M3 ∨ weight.dimensions.length ≠ 2 ∨
      scale.representation ≠ .canonicalPrimitive ∨
      scale.dimensions.length ≠ 2 ∧ scale.dimensions.length ≠ 1)
    ⟨.invalidQuantizationMetadata,
      "FP8 quantization metadata has incompatible tensor representations"⟩
  let rows := weight.dimensions.getD 0 0
  let columns := weight.dimensions.getD 1 0
  let expectedBytes ← okOr
    ((checkedMul? (divCeil rows entry.blockRows) (divCeil columns entry.blockColumns)).bind
      fun value => checkedMul? value 4)
    ⟨.representationArithmeticOverflow, "FP8 scale payload size overflows u64"⟩
  rejectIf (¬ ScaleShape rows columns entry.blockRows entry.blockColumns scale.dimensions ∨
      scale.payload.length ≠ expectedBytes)
    ⟨.invalidQuantizationMetadata, "FP8 scale shape does not match quantization metadata"⟩

/-- `F8QuantizationDirectory::validate_against`. -/
def validateAgainst (quantization : F8QuantizationDirectory) (directory : TensorDirectory) :
    Except MlError Unit :=
  quantization.entries.forM (validateEntryAgainst directory)

theorem new_eq_ok_iff {entries : List F8QuantizationEntry} {directory : F8QuantizationDirectory} :
    new entries = .ok directory ↔
      (∀ entry ∈ entries, ValidEntry entry) ∧
        hasEqualNeighbours ((ordered entries).map F8QuantizationEntry.weightName) = false ∧
        directory = { entries := ordered entries } := by
  have hmem : (∀ entry ∈ ordered entries, ValidEntry entry) ↔
      ∀ entry ∈ entries, ValidEntry entry := by
    unfold ordered
    simp only [List.mem_insertionSort]
  simp only [new, bind_eq_ok_iff, rejectIf_eq_ok_iff, pure_eq_ok_iff, not_not, hmem,
    Bool.not_eq_true]
  constructor
  · intro h
    obtain ⟨_, hvalid, _, hunique, rfl⟩ := h
    exact ⟨hvalid, hunique, rfl⟩
  · intro h
    obtain ⟨hvalid, hunique, rfl⟩ := h
    exact ⟨(), hvalid, (), hunique, rfl⟩

theorem ordered_of_sorted {entries : List F8QuantizationEntry}
    (h : entries.Pairwise (fun a b => NameLe a.weightName b.weightName)) :
    ordered entries = entries :=
  h.insertionSort_eq

theorem ordered_sorted (entries : List F8QuantizationEntry) :
    (ordered entries).Pairwise (fun a b => NameLe a.weightName b.weightName) := by
  have htotal : Std.Total (fun a b : F8QuantizationEntry => NameLe a.weightName b.weightName) :=
    ⟨fun a b => le_total (byteKey a.weightName) (byteKey b.weightName)⟩
  have htrans : IsTrans F8QuantizationEntry (fun a b => NameLe a.weightName b.weightName) :=
    ⟨fun _ _ _ hab hbc => le_trans hab hbc⟩
  exact List.pairwise_insertionSort _ entries

theorem encodePayload_eq_ok_iff {entries : List F8QuantizationEntry} {bytes : List UInt8} :
    encodePayload entries = .ok bytes ↔
      new entries = .ok { entries := ordered entries } ∧ entries.length ≤ maxEntries ∧
        bytes = magic ++ leBytes 2 version ++ leBytes 2 0 ++ leBytes 4 entries.length ++
          leBytes 4 0 ++ (ordered entries).flatMap entryBytes := by
  have hlength : (ordered entries).length = entries.length :=
    (List.perm_insertionSort _ entries).length_eq
  simp only [encodePayload, bind_eq_ok_iff, rejectIf_eq_ok_iff, pure_eq_ok_iff, not_lt,
    exists_const]
  constructor
  · intro h
    obtain ⟨directory, hnew, hcount, rfl⟩ := h
    obtain ⟨-, -, rfl⟩ := new_eq_ok_iff.1 hnew
    rw [hlength] at hcount
    exact ⟨hnew, hcount, by rw [hlength]⟩
  · intro h
    obtain ⟨hnew, hcount, rfl⟩ := h
    exact ⟨_, hnew, by rw [hlength]; exact hcount, by rw [hlength]⟩

theorem entryBytes_length (entry : F8QuantizationEntry) :
    (entryBytes entry).length =
      20 + (utf8 entry.weightName).length + (utf8 entry.scaleName).length := by
  simp only [entryBytes, List.length_append, leBytes_length]

/-- The block geometry of an entry is two `u64` values. -/
def Bounded (entry : F8QuantizationEntry) : Prop :=
  entry.blockRows < u64Bound ∧ entry.blockColumns < u64Bound

theorem parseEntry_of_holds {bytes : List UInt8} {offset : Nat} {entry : F8QuantizationEntry}
    (hvalid : ValidEntry entry) (hbounded : Bounded entry) (hoffset : offset ≤ bytes.length)
    (h : Holds bytes offset (entryBytes entry)) :
    parseEntry bytes offset = .ok (entry, offset + (entryBytes entry).length) := by
  obtain ⟨-, -, hweight, hscale, -, -⟩ := hvalid
  obtain ⟨hrows, hcolumns⟩ := hbounded
  rw [u64Bound_eq] at hrows hcolumns
  have hinside := h.length_le hoffset
  rw [entryBytes_length] at hinside ⊢
  simp only [entryBytes, holds_append, List.length_append, leBytes_length] at h
  obtain ⟨⟨⟨⟨⟨h₁, h₂⟩, h₃⟩, h₄⟩, h₅⟩, h₆⟩ := h
  have hweightLen := leAt_of_holds h₁ (by omega)
  have hscaleLen : leAt bytes (offset + 2) 2 = _ := leAt_of_holds h₂ (by omega)
  have hrows' : leAt bytes (offset + 4) 8 = _ := leAt_of_holds h₃ hrows
  have hcolumns' : leAt bytes (offset + 12) 8 = _ := leAt_of_holds h₄ hcolumns
  have hweightName : slice bytes (offset + 20) (utf8 entry.weightName).length =
      utf8 entry.weightName := h₅
  have hscaleName : slice bytes (offset + 20 + (utf8 entry.weightName).length)
      (utf8 entry.scaleName).length = utf8 entry.scaleName := by
    rw [Nat.add_assoc]
    exact h₆
  simp only [parseEntry, bind_eq_ok_iff, rejectIf_eq_ok_iff, okOr_eq_ok_iff, pure_eq_ok_iff,
    hweightLen, hscaleLen, hrows', hcolumns', hweightName, hscaleName, fromUtf8_utf8, not_lt]
  refine ⟨(), by omega, (), by omega, _, rfl, _, rfl, ?_⟩
  rw [Prod.mk.injEq]
  exact ⟨rfl, by omega⟩

theorem parseEntries_of_holds {bytes : List UInt8} {offset : Nat}
    {entries : List F8QuantizationEntry} (hvalid : ∀ entry ∈ entries, ValidEntry entry)
    (hbounded : ∀ entry ∈ entries, Bounded entry) (hoffset : offset ≤ bytes.length)
    (h : Holds bytes offset (entries.flatMap entryBytes)) :
    parseEntries bytes offset entries.length =
      .ok (entries, offset + (entries.flatMap entryBytes).length) := by
  induction entries generalizing offset with
  | nil => rfl
  | cons entry rest ih =>
      rw [List.flatMap_cons, holds_append] at h
      rw [List.forall_mem_cons] at hvalid hbounded
      have hinside := h.1.length_le hoffset
      have hentry := parseEntry_of_holds hvalid.1 hbounded.1 hoffset h.1
      have hrest := ih hvalid.2 hbounded.2 hinside h.2
      simp only [List.length_cons, parseEntries, bind_eq_ok_iff, pure_eq_ok_iff]
      refine ⟨_, hentry, _, hrest, ?_⟩
      rw [List.flatMap_cons, List.length_append, Nat.add_assoc]

/-- The reader returns the directory that was written. -/
theorem parsePayload_encodePayload {entries : List F8QuantizationEntry} {bytes : List UInt8}
    (hbounded : ∀ entry ∈ entries, Bounded entry) (h : encodePayload entries = .ok bytes) :
    parsePayload bytes = .ok { entries := ordered entries } := by
  obtain ⟨hnew, hcount, hbytes⟩ := encodePayload_eq_ok_iff.1 h
  obtain ⟨hvalid, hunique, -⟩ := new_eq_ok_iff.1 hnew
  have hmem : ∀ entry ∈ ordered entries, entry ∈ entries := by
    intro entry hentry
    exact (List.mem_insertionSort _).1 hentry
  have hordered : (ordered entries).length = entries.length :=
    (List.perm_insertionSort _ entries).length_eq
  have hlength : bytes.length = 20 + ((ordered entries).flatMap entryBytes).length := by
    rw [hbytes]
    simp only [List.length_append, leBytes_length]
    rfl
  have hholds := holds_self bytes
  nth_rewrite 2 [hbytes] at hholds
  simp only [holds_append, List.length_append, leBytes_length] at hholds
  obtain ⟨⟨⟨⟨⟨hmagic, hversion⟩, -⟩, hentries⟩, -⟩, hrest⟩ := hholds
  unfold maxEntries at hcount
  have hmagic' : slice bytes 0 8 = magic := hmagic
  have hversion' : leAt bytes 8 2 = version := leAt_of_holds hversion (by decide)
  have hentries' : leAt bytes 12 4 = entries.length := leAt_of_holds hentries (by omega)
  have hrest' : Holds bytes 20 ((ordered entries).flatMap entryBytes) := hrest
  have hread := parseEntries_of_holds (fun entry he => hvalid entry (hmem entry he))
    (fun entry he => hbounded entry (hmem entry he)) (by omega) hrest'
  rw [hordered] at hread
  have hagain : new (ordered entries) = .ok { entries := ordered entries } := by
    rw [new_eq_ok_iff, ordered_of_sorted (ordered_sorted entries)]
    exact ⟨fun entry he => hvalid entry (hmem entry he), hunique, rfl⟩
  simp only [parsePayload, bind_eq_ok_iff, rejectIf_eq_ok_iff, hversion', hentries', not_or, not_lt,
    not_not]
  exact ⟨(), ⟨by omega, hmagic'⟩, (), trivial, (), hcount, _, hread, (), hlength.symm, hagain⟩

end F8QuantizationDirectory

end VBuf.Ml
