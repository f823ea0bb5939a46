import VBuf.Ml.DirectoryCodec
import VBuf.Ml.Quantization

/-!
# The quantization metadata as a canonical form

What `encodePayload` writes is read back.  The converse needs what the reader
does not check: zero reserved fields in the header, and the records in
weight-name order.
-/

namespace VBuf.Ml.F8QuantizationDirectory

open VBuf.Lib VBuf.V06

/-- The records stand in strict weight-name order. -/
def Sorted (entries : List F8QuantizationEntry) : Prop :=
  entries.Pairwise (fun a b => byteKey a.weightName < byteKey b.weightName)

instance (entries : List F8QuantizationEntry) : Decidable (Sorted entries) :=
  inferInstanceAs (Decidable (List.Pairwise _ _))

/-- The bytes behind the header are those of the records, in this order. -/
structure Stores (bytes : List UInt8) (records : List F8QuantizationEntry) : Prop where
  valid : ∀ record ∈ records, ValidEntry record
  bounded : ∀ record ∈ records, Bounded record
  count : leAt bytes 12 4 = records.length
  holds : Holds bytes 20 (records.flatMap entryBytes)
  length : bytes.length = 20 + (records.flatMap entryBytes).length

/-- The two reserved fields of the header are zero. -/
def ReservedZero (bytes : List UInt8) : Prop := leAt bytes 10 2 = 0 ∧ leAt bytes 16 4 = 0

instance (bytes : List UInt8) : Decidable (ReservedZero bytes) :=
  inferInstanceAs (Decidable (_ ∧ _))

theorem hasEqualNeighbours_weights {entries : List F8QuantizationEntry}
    (hsorted : entries.Pairwise (fun a b => NameLe a.weightName b.weightName)) :
    hasEqualNeighbours (entries.map F8QuantizationEntry.weightName) = false ↔ Sorted entries := by
  rw [TensorDirectory.hasEqualNeighbours_eq_false_iff byteKey_injective
    (List.pairwise_map.2 hsorted), List.pairwise_map]
  rfl

theorem Sorted.ordered_eq {entries : List F8QuantizationEntry} (h : Sorted entries) :
    ordered entries = entries :=
  ordered_of_sorted (h.imp fun hlt => hlt.le)

/-- A directory lists valid entries in strict order. -/
theorem sorted_of_new {entries : List F8QuantizationEntry} {directory : F8QuantizationDirectory}
    (h : new entries = .ok directory) : Sorted directory.entries := by
  obtain ⟨-, hunique, rfl⟩ := new_eq_ok_iff.1 h
  exact (hasEqualNeighbours_weights (ordered_sorted entries)).1 hunique

/-! ### What is accepted stands as it would be written -/

/-- An accepted record stands where it was read. -/
theorem holds_of_parseEntry {bytes : List UInt8} {offset next : Nat}
    {entry : F8QuantizationEntry} (hoffset : offset ≤ bytes.length)
    (h : parseEntry bytes offset = .ok (entry, next)) :
    Bounded entry ∧ Holds bytes offset (entryBytes entry) ∧
      next = offset + (entryBytes entry).length ∧ next ≤ bytes.length := by
  simp only [parseEntry, bind_eq_ok_iff, okOr_eq_ok_iff, rejectIf_eq_ok_iff, pure_eq_ok_iff,
    fromUtf8_eq_some_iff, not_lt, Prod.mk.injEq] at h
  obtain ⟨_, hfixed, _, hnames, weightName, hweight, scaleName, hscale, rfl, rfl⟩ := h
  have hweightLength : (utf8 weightName).length = leAt bytes offset 2 := by
    rw [hweight, slice_length_of_le (by omega)]
  have hscaleLength : (utf8 scaleName).length = leAt bytes (offset + 2) 2 := by
    rw [hscale, slice_length_of_le (by omega)]
  have hrows : leAt bytes (offset + 4) 8 < 256 ^ 8 := leAt_lt
  have hcolumns : leAt bytes (offset + 12) 8 < 256 ^ 8 := leAt_lt
  refine ⟨⟨?_, ?_⟩, ?_, ?_, ?_⟩
  · rw [u64Bound_eq]
    exact hrows
  · rw [u64Bound_eq]
    exact hcolumns
  · simp only [entryBytes, holds_append, List.length_append, leBytes_length]
    rw [hweightLength, hscaleLength]
    have hweightHolds : Holds bytes (offset + 20) (utf8 weightName) := by
      rw [Holds, hweightLength, ← hweight]
    have hscaleHolds : Holds bytes (offset + 20 + leAt bytes offset 2) (utf8 scaleName) := by
      rw [Holds, hscaleLength, ← hscale]
    refine ⟨⟨⟨⟨⟨?_, ?_⟩, ?_⟩, ?_⟩, hweightHolds⟩, ?_⟩
    · exact holds_leBytes_leAt (by omega)
    · exact holds_leBytes_leAt (by omega)
    · exact @holds_leBytes_leAt bytes (offset + 4) _ (by omega)
    · exact @holds_leBytes_leAt bytes (offset + 12) _ (by omega)
    · rw [Nat.add_assoc] at hscaleHolds
      exact hscaleHolds
  · rw [entryBytes_length, hweightLength, hscaleLength]
    omega
  · omega

/-- Accepted records stand one after the other. -/
theorem holds_of_parseEntries {bytes : List UInt8} {offset count next : Nat}
    {entries : List F8QuantizationEntry} (hoffset : offset ≤ bytes.length)
    (h : parseEntries bytes offset count = .ok (entries, next)) :
    entries.length = count ∧ (∀ entry ∈ entries, Bounded entry) ∧
      Holds bytes offset (entries.flatMap entryBytes) ∧
      next = offset + (entries.flatMap entryBytes).length := by
  induction count generalizing offset next entries with
  | zero =>
      cases h
      exact ⟨rfl, fun _ hmem => absurd hmem List.not_mem_nil, holds_nil _ _, rfl⟩
  | succ count ih =>
      simp only [parseEntries, bind_eq_ok_iff, pure_eq_ok_iff, Prod.exists, Prod.mk.injEq] at h
      obtain ⟨entry, middle, hentry, rest, _, hrest, rfl, rfl⟩ := h
      obtain ⟨hbounded, hholds, rfl, hmiddle⟩ := holds_of_parseEntry hoffset hentry
      obtain ⟨hcount, hall, htail, hnext⟩ := ih hmiddle hrest
      refine ⟨by rw [List.length_cons, hcount], ?_, ?_, ?_⟩
      · rw [List.forall_mem_cons]
        exact ⟨hbounded, hall⟩
      · rw [List.flatMap_cons, holds_append]
        exact ⟨hholds, htail⟩
      · rw [List.flatMap_cons, List.length_append, hnext, Nat.add_assoc]

/-- An accepted payload stores records, and the directory is made of them. -/
theorem stores_of_parsePayload {bytes : List UInt8} {directory : F8QuantizationDirectory}
    (h : parsePayload bytes = .ok directory) :
    ∃ records, Stores bytes records ∧ new records = .ok directory ∧
      records.length ≤ maxEntries ∧ slice bytes 0 8 = magic ∧ leAt bytes 8 2 = version := by
  simp only [parsePayload, bind_eq_ok_iff, rejectIf_eq_ok_iff, not_or, not_lt, not_not,
    Prod.exists] at h
  obtain ⟨_, ⟨hlong, hmagic⟩, _, hversion, _, hcount, records, offset, hrecords, _, hoffset,
    hnew⟩ := h
  obtain ⟨hlength, hbounded, hholds, hnext⟩ := holds_of_parseEntries hlong hrecords
  obtain ⟨hvalid, -, -⟩ := new_eq_ok_iff.1 hnew
  have hstores : Stores bytes records :=
    ⟨hvalid, hbounded, hlength.symm, hholds, by rw [← hoffset, hnext]⟩
  exact ⟨records, hstores, hnew, hlength ▸ hcount, hmagic, hversion⟩

/-- A payload stores one list of records. -/
theorem Stores.unique {bytes : List UInt8} {records others : List F8QuantizationEntry}
    (h : Stores bytes records) (hothers : Stores bytes others) : records = others := by
  have hinside : 20 ≤ bytes.length := by
    rw [h.length]
    exact Nat.le_add_right _ _
  have hread := parseEntries_of_holds h.valid h.bounded hinside h.holds
  have hread' := parseEntries_of_holds hothers.valid hothers.bounded hinside hothers.holds
  rw [← h.count] at hread
  rw [← hothers.count, hread] at hread'
  exact (Prod.mk.inj (Except.ok.inj hread')).1

/-- A payload with zero reserved fields is its header and its records. -/
theorem Stores.eq_encoded {bytes : List UInt8} {records : List F8QuantizationEntry}
    (h : Stores bytes records) (hmagic : slice bytes 0 8 = magic)
    (hversion : leAt bytes 8 2 = version) (hzero : ReservedZero bytes) :
    bytes = magic ++ leBytes 2 version ++ leBytes 2 0 ++ leBytes 4 records.length ++
      leBytes 4 0 ++ records.flatMap entryBytes :=
  TensorDirectory.eq_header_append rfl hmagic hversion hzero.1 h.count hzero.2 h.holds h.length

/-- The written payload has zero reserved fields and stores the ordered entries. -/
theorem stores_of_encodePayload {entries : List F8QuantizationEntry} {bytes : List UInt8}
    (hbounded : ∀ entry ∈ entries, Bounded entry) (h : encodePayload entries = .ok bytes) :
    ReservedZero bytes ∧ Stores bytes (ordered entries) := by
  obtain ⟨hnew, hcount, hbytes⟩ := encodePayload_eq_ok_iff.1 h
  obtain ⟨hvalid, -, -⟩ := new_eq_ok_iff.1 hnew
  have hmem : ∀ entry ∈ ordered entries, entry ∈ entries := by
    intro entry hentry
    exact (List.mem_insertionSort _).1 hentry
  have hordered : (ordered entries).length = entries.length :=
    (List.perm_insertionSort _ entries).length_eq
  have hholds := holds_self bytes
  nth_rewrite 2 [hbytes] at hholds
  simp only [holds_append, List.length_append, leBytes_length] at hholds
  obtain ⟨⟨⟨⟨⟨-, -⟩, hflags⟩, hentries⟩, hreserved⟩, hrest⟩ := hholds
  unfold maxEntries at hcount
  refine ⟨⟨leAt_of_holds hflags (by decide), leAt_of_holds hreserved (by decide)⟩, ?_⟩
  refine ⟨fun entry he => hvalid entry (hmem entry he),
    fun entry he => hbounded entry (hmem entry he), ?_, hrest, ?_⟩
  · rw [hordered]
    exact leAt_of_holds hentries (by omega)
  · rw [hbytes]
    simp only [List.length_append, leBytes_length]
    rfl

/-- The records of a directory that was read are bounded. -/
theorem bounded_of_parsePayload {bytes : List UInt8} {directory : F8QuantizationDirectory}
    (h : parsePayload bytes = .ok directory) : ∀ entry ∈ directory.entries, Bounded entry := by
  obtain ⟨records, hstores, hnew, -⟩ := stores_of_parsePayload h
  obtain ⟨-, -, rfl⟩ := new_eq_ok_iff.1 hnew
  intro entry hentry
  exact hstores.bounded entry ((List.mem_insertionSort _).1 hentry)

/-- An accepted payload is what writing its entries gives exactly when its reserved
fields are zero and its records stand in weight-name order; a written list is
always read back. -/
theorem encodePayload_parsePayload_iff (bytes : List UInt8) :
    (∀ directory, parsePayload bytes = .ok directory →
      (encodePayload directory.entries = .ok bytes ↔
        ReservedZero bytes ∧ ∃ records, Stores bytes records ∧ Sorted records)) ∧
    ∀ entries, (∀ entry ∈ entries, Bounded entry) → encodePayload entries = .ok bytes →
      ∃ directory, parsePayload bytes = .ok directory ∧ directory.entries.Perm entries ∧
        Sorted directory.entries := by
  constructor
  · intro directory h
    obtain ⟨records, hstores, hnew, hcount, hmagic, hversion⟩ := stores_of_parsePayload h
    have hstrict := sorted_of_new hnew
    constructor
    · intro hencode
      obtain ⟨hzero, hstores'⟩ := stores_of_encodePayload (bounded_of_parsePayload h) hencode
      rw [hstrict.ordered_eq] at hstores'
      exact ⟨hzero, directory.entries, hstores', hstrict⟩
    · intro hcanonical
      obtain ⟨hzero, others, hothers, hsorted⟩ := hcanonical
      obtain rfl := hstores.unique hothers
      have hbytes := hstores.eq_encoded hmagic hversion hzero
      obtain ⟨-, -, rfl⟩ := new_eq_ok_iff.1 hnew
      have hordered := hsorted.ordered_eq
      rw [hordered] at hnew ⊢
      refine encodePayload_eq_ok_iff.2 ⟨?_, hcount, ?_⟩
      · rw [hordered]
        exact hnew
      · rw [hordered]
        exact hbytes
  · intro entries hbounded hencode
    obtain ⟨hnew, -, -⟩ := encodePayload_eq_ok_iff.1 hencode
    exact ⟨_, parsePayload_encodePayload hbounded hencode, List.perm_insertionSort _ entries,
      sorted_of_new hnew⟩

/-- Two records. -/
def pairRecords : List F8QuantizationEntry := [⟨"v", "s", 128, 128⟩, ⟨"w", "t", 64, 32⟩]

/-- The payload of the two. -/
def pairPayload : List UInt8 :=
  magic ++ leBytes 2 version ++ leBytes 2 0 ++ leBytes 4 2 ++ leBytes 4 0 ++
    pairRecords.flatMap entryBytes

/-- Both records are read, in order and with the reserved fields zero. -/
theorem encodePayload_parsePayload_iff_pair :
    parsePayload pairPayload = .ok ⟨pairRecords⟩ ∧ ReservedZero pairPayload ∧
      ∃ records, Stores pairPayload records ∧ Sorted records := by
  have hparse : parsePayload pairPayload = .ok ⟨pairRecords⟩ := by decide +kernel
  have hencode : encodePayload pairRecords = .ok pairPayload := by decide +kernel
  exact ⟨hparse, ((encodePayload_parsePayload_iff pairPayload).1 _ hparse).1 hencode⟩

/-- One record whose first reserved header byte is set. -/
def reservedExample : List UInt8 :=
  magic ++ leBytes 2 version ++ leBytes 2 1 ++ leBytes 4 1 ++ leBytes 4 0 ++
    entryBytes ⟨"w", "s", 128, 128⟩

/-- The reader accepts a payload that writing its records does not give. -/
theorem parsePayload_reservedExample :
    parsePayload reservedExample = .ok ⟨[⟨"w", "s", 128, 128⟩]⟩ ∧
      encodePayload [⟨"w", "s", 128, 128⟩] ≠ .ok reservedExample := by
  constructor
  · decide +kernel
  · decide +kernel

end VBuf.Ml.F8QuantizationDirectory
