import VBuf.Ml.DirectoryCodec
import VBuf.Ml.NestedOverlap

/-!
# The nested directory as a canonical form

`encode_payload` refuses a name with a zero byte; the reader and `NestedDirectory::parse`
let it through.  What is written is always read back in name order, and an accepted
directory is what writing its entries gives exactly when no name holds a zero byte.
-/

namespace VBuf.Ml.NestedDirectory

open VBuf.Lib VBuf.Lib.Reader VBuf.Layout VBuf.V06

/-- `validate_entry`. -/
def validateEntry (entry : NestedEntry) : Except MlError Unit := do
  rejectIf (entry.name = "" ∨ maxNameBytes < (utf8 entry.name).length ∨ 0 ∈ utf8 entry.name)
    ⟨.invalidTensorName, "nested child name is invalid"⟩
  rejectIf (entry.childLength = 0 ∨ u64Bound ≤ entry.childOffset + entry.childLength)
    ⟨.nestedChildRangeInvalid, "nested child range is invalid"⟩

/-- One iteration of the loop of `encode_payload`. -/
def writeEntry (entry : NestedEntry) : Except MlError (List UInt8) := do
  validateEntry entry
  pure (entryBytes entry)

/-- The entries in name order. -/
def ordered (entries : List NestedEntry) : List NestedEntry :=
  entries.insertionSort (fun left right => NameLe left.name right.name)

/-- `encode_payload`. -/
def encodePayload (entries : List NestedEntry) : Except MlError (List UInt8) := do
  rejectIf (maxChildren < entries.length)
    ⟨.malformedNestedDirectory, "nested child count exceeds profile maximum"⟩
  let ordered := ordered entries
  rejectIf (hasEqualNeighbours (ordered.map NestedEntry.name) = true)
    ⟨.duplicateTensorName, "nested child names must be unique"⟩
  let body ← concat (ordered.map writeEntry)
  let output := magic ++ leBytes 2 version ++ leBytes 2 0 ++ leBytes 4 ordered.length ++
    leBytes 4 0 ++ body
  rejectIf (maxBytes < output.length)
    ⟨.malformedNestedDirectory, "nested directory exceeds bounded size"⟩
  pure output

/-- The entries stand in strict name order. -/
def Sorted (entries : List NestedEntry) : Prop :=
  entries.Pairwise (fun a b => byteKey a.name < byteKey b.name)

/-- A name that the reader accepts, with a range that `parse` accepts. -/
structure Listable (entry : NestedEntry) : Prop where
  name_ne : entry.name ≠ ""
  name_le : (utf8 entry.name).length ≤ maxNameBytes
  nonempty : 0 < entry.childLength
  fits : entry.childOffset + entry.childLength < u64Bound

/-- The name of an entry holds no zero byte. -/
def NulFree (entry : NestedEntry) : Prop := 0 ∉ utf8 entry.name

theorem validateEntry_eq_ok_iff {entry : NestedEntry} :
    validateEntry entry = .ok () ↔ Listable entry ∧ NulFree entry := by
  simp only [validateEntry, bind_eq_ok_iff, rejectIf_eq_ok_iff, not_or, not_lt, not_le,
    exists_const]
  constructor
  · rintro ⟨⟨hname, hlong, hnul⟩, hempty, hfits⟩
    exact ⟨⟨hname, hlong, Nat.pos_of_ne_zero hempty, hfits⟩, hnul⟩
  · rintro ⟨⟨hname, hlong, hpos, hfits⟩, hnul⟩
    exact ⟨⟨hname, hlong, hnul⟩, Nat.ne_of_gt hpos, hfits⟩

theorem writeEntry_eq_ok_iff {entry : NestedEntry} {piece : List UInt8} :
    writeEntry entry = .ok piece ↔ Listable entry ∧ NulFree entry ∧ piece = entryBytes entry := by
  rw [writeEntry, bind_eq_ok_iff]
  constructor
  · rintro ⟨_, hvalid, heq⟩
    obtain ⟨hlistable, hnul⟩ := validateEntry_eq_ok_iff.1 hvalid
    exact ⟨hlistable, hnul, (pure_eq_ok_iff.1 heq).symm⟩
  · rintro ⟨hlistable, hnul, rfl⟩
    exact ⟨(), validateEntry_eq_ok_iff.2 ⟨hlistable, hnul⟩, rfl⟩

theorem concat_writeEntry_eq_ok_iff {entries : List NestedEntry} {bytes : List UInt8} :
    concat (entries.map writeEntry) = .ok bytes ↔
      (∀ entry ∈ entries, Listable entry ∧ NulFree entry) ∧
        bytes = entries.flatMap entryBytes := by
  induction entries generalizing bytes with
  | nil => simp
  | cons entry rest ih =>
      simp only [List.map_cons, concat_cons_eq_ok_iff, writeEntry_eq_ok_iff, ih,
        List.forall_mem_cons, List.flatMap_cons]
      constructor
      · rintro ⟨_, ⟨hlistable, hnul, rfl⟩, _, ⟨hrest, rfl⟩, rfl⟩
        exact ⟨⟨⟨hlistable, hnul⟩, hrest⟩, rfl⟩
      · rintro ⟨⟨⟨hlistable, hnul⟩, hrest⟩, rfl⟩
        exact ⟨_, ⟨hlistable, hnul, rfl⟩, _, ⟨hrest, rfl⟩, rfl⟩

theorem ordered_perm (entries : List NestedEntry) : (ordered entries).Perm entries :=
  List.perm_insertionSort _ entries

theorem ordered_pairwise (entries : List NestedEntry) :
    (ordered entries).Pairwise (fun a b => NameLe a.name b.name) := by
  have htotal : Std.Total (fun a b : NestedEntry => NameLe a.name b.name) :=
    ⟨fun a b => le_total (byteKey a.name) (byteKey b.name)⟩
  have htrans : IsTrans NestedEntry (fun a b => NameLe a.name b.name) :=
    ⟨fun _ _ _ hab hbc => le_trans hab hbc⟩
  exact List.pairwise_insertionSort _ entries

theorem hasEqualNeighbours_names {entries : List NestedEntry}
    (hsorted : entries.Pairwise (fun a b => NameLe a.name b.name)) :
    hasEqualNeighbours (entries.map NestedEntry.name) = false ↔ Sorted entries := by
  rw [TensorDirectory.hasEqualNeighbours_eq_false_iff byteKey_injective
    (List.pairwise_map.2 hsorted), List.pairwise_map]
  rfl

theorem Sorted.ordered_eq {entries : List NestedEntry} (h : Sorted entries) :
    ordered entries = entries :=
  List.Pairwise.insertionSort_eq (h.imp fun hlt => hlt.le)

theorem encodePayload_eq_ok_iff {entries : List NestedEntry} {bytes : List UInt8} :
    encodePayload entries = .ok bytes ↔
      entries.length ≤ maxChildren ∧ Sorted (ordered entries) ∧
        (∀ entry ∈ entries, Listable entry ∧ NulFree entry) ∧
        bytes = magic ++ leBytes 2 version ++ leBytes 2 0 ++ leBytes 4 entries.length ++
          leBytes 4 0 ++ (ordered entries).flatMap entryBytes ∧
        bytes.length ≤ maxBytes := by
  simp only [encodePayload, bind_eq_ok_iff, rejectIf_eq_ok_iff, pure_eq_ok_iff,
    concat_writeEntry_eq_ok_iff, not_lt, exists_const, Bool.not_eq_true,
    hasEqualNeighbours_names (ordered_pairwise entries), (ordered_perm entries).length_eq,
    (ordered_perm entries).mem_iff]
  constructor
  · rintro ⟨hcount, hnames, _, ⟨hentries, rfl⟩, hsize, rfl⟩
    exact ⟨hcount, hnames, hentries, rfl, hsize⟩
  · rintro ⟨hcount, hnames, hentries, rfl, hsize⟩
    exact ⟨hcount, hnames, _, ⟨hentries, rfl⟩, hsize, rfl⟩

/-- Encoding looks at the entries, not at their order. -/
theorem encodePayload_perm {entries others : List NestedEntry} {bytes : List UInt8}
    (hperm : others.Perm entries) (h : encodePayload entries = .ok bytes) :
    encodePayload others = .ok bytes := by
  obtain ⟨hcount, hstrict, hvalid, hbytes, hsize⟩ := encodePayload_eq_ok_iff.1 h
  have hsame : ordered entries = ordered others :=
    TensorDirectory.eq_of_perm_of_strict hstrict (ordered_pairwise others)
      ((ordered_perm entries).trans (hperm.symm.trans (ordered_perm others).symm))
  refine encodePayload_eq_ok_iff.2 ⟨?_, hsame ▸ hstrict, ?_, ?_, hsize⟩
  · rw [hperm.length_eq]
    exact hcount
  · intro entry hmem
    exact hvalid entry (hperm.mem_iff.1 hmem)
  · rw [hperm.length_eq, ← hsame]
    exact hbytes

/-! ### What is written is read back -/

/-- The fixed part of an entry. -/
def entryHeader (entry : NestedEntry) : List UInt8 :=
  leBytes 2 (utf8 entry.name).length ++ leBytes 2 0 ++ leBytes 2 entry.keyId.toNat ++
    leBytes 2 entry.occurrence.toNat ++ leBytes 8 entry.childOffset ++ leBytes 8 entry.childLength

theorem entryHeader_length (entry : NestedEntry) : (entryHeader entry).length = 24 := by
  simp only [entryHeader, List.length_append, leBytes_length]

theorem entryBytes_eq (entry : NestedEntry) : entryBytes entry = entryHeader entry ++ utf8 entry.name :=
  rfl

theorem entryBytes_length (entry : NestedEntry) :
    (entryBytes entry).length = 24 + (utf8 entry.name).length := by
  rw [entryBytes_eq, List.length_append, entryHeader_length]

/-- The fields of an entry are read where they were written. -/
theorem entryHeader_fields {entry : NestedEntry} (h : Listable entry) :
    leAt (entryHeader entry) 0 2 = (utf8 entry.name).length ∧
      anyNonzero (slice (entryHeader entry) 2 2) = false ∧
      leAt (entryHeader entry) 4 2 = entry.keyId.toNat ∧
      leAt (entryHeader entry) 6 2 = entry.occurrence.toNat ∧
      leAt (entryHeader entry) 8 8 = entry.childOffset ∧
      leAt (entryHeader entry) 16 8 = entry.childLength := by
  have hname := h.name_le
  have hfits := h.fits
  rw [u64Bound_eq] at hfits
  unfold maxNameBytes at hname
  have hholds := holds_self (entryHeader entry)
  nth_rewrite 2 [entryHeader] at hholds
  simp only [holds_append, List.length_append, leBytes_length] at hholds
  obtain ⟨⟨⟨⟨⟨h₁, h₂⟩, h₃⟩, h₄⟩, h₅⟩, h₆⟩ := hholds
  exact ⟨leAt_of_holds h₁ (by omega), anyNonzero_zero h₂, leAt_of_holds h₃ entry.keyId.toNat_lt,
    leAt_of_holds h₄ entry.occurrence.toNat_lt, leAt_of_holds h₅ (by omega),
    leAt_of_holds h₆ (by omega)⟩

/-- A written entry is read back. -/
theorem reads_readEntry {limit : Nat} {entry : NestedEntry} (h : Listable entry) :
    Reads limit readEntry (entryBytes entry) entry := by
  obtain ⟨h₁, h₂, h₃, h₄, h₅, h₆⟩ := entryHeader_fields h
  have hempty : (utf8 entry.name).length ≠ 0 := by
    intro hnil
    exact h.name_ne (utf8_injective (List.length_eq_zero_iff.1 hnil))
  rw [entryBytes_eq]
  refine (reads_takeBytes (entryHeader_length entry)).bind ?_
  rw [h₁, h₂, h₃, h₄, h₅, h₆]
  refine Reads.check_bind ?_ ?_
  · rintro (hnil | hlong | hreserved)
    · exact hempty hnil
    · exact absurd h.name_le (not_le.2 hlong)
    · cases hreserved
  · rw [← List.append_nil (utf8 entry.name)]
    refine (reads_takeBytes (by rw [List.append_nil])).bind ?_
    refine Reads.require_bind (fromUtf8_utf8 _) ?_
    rw [UInt16.ofNat_toNat, UInt16.ofNat_toNat]
    exact reads_pure entry

/-- The reader returns the entries that were written, in name order. -/
theorem parsePayload_encodePayload {entries : List NestedEntry} {bytes : List UInt8}
    (h : encodePayload entries = .ok bytes) : parsePayload bytes = .ok (ordered entries) := by
  obtain ⟨hcount, -, hvalid, hbytes, hsize⟩ := encodePayload_eq_ok_iff.1 h
  have hvalid' : ∀ entry ∈ ordered entries, Listable entry ∧ NulFree entry := by
    intro entry hmem
    exact hvalid entry ((ordered_perm entries).mem_iff.1 hmem)
  have hbody : Reads (bytes.length + 1) (many readEntry entries.length)
      ((ordered entries).flatMap entryBytes) (ordered entries) := by
    rw [← (ordered_perm entries).length_eq]
    refine reads_concat_self (concat_writeEntry_eq_ok_iff.2 ⟨hvalid', rfl⟩) ?_
    intro entry hmem piece hpiece
    obtain ⟨hlistable, -, rfl⟩ := writeEntry_eq_ok_iff.1 hpiece
    exact reads_readEntry hlistable
  have hlength : bytes.length = 20 + ((ordered entries).flatMap entryBytes).length := by
    rw [hbytes]
    simp only [List.length_append, leBytes_length]
    rfl
  -- The entries are read behind the header, to the end.
  have hread := hbody (magic ++ leBytes 2 version ++ leBytes 2 0 ++ leBytes 4 entries.length ++
    leBytes 4 0) [] (by rw [List.append_nil, ← hbytes]; exact Nat.lt_succ_self _)
  rw [List.append_nil, ← hbytes] at hread
  have hholds := holds_self bytes
  nth_rewrite 2 [hbytes] at hholds
  simp only [holds_append, List.length_append, leBytes_length] at hholds
  obtain ⟨⟨⟨⟨⟨hmagic, hversion⟩, hflags⟩, hentries⟩, hreserved⟩, -⟩ := hholds
  unfold maxChildren at hcount
  have hmagic' : slice bytes 0 8 = magic := hmagic
  have hversion' : leAt bytes 8 2 = version := leAt_of_holds hversion (by decide)
  have hflags' : leAt bytes 10 2 = 0 := leAt_of_holds hflags (by decide)
  have hentries' : leAt bytes 12 4 = entries.length := leAt_of_holds hentries (by omega)
  have hreserved' : anyNonzero (slice bytes 16 4) = false := anyNonzero_zero hreserved
  simp only [parsePayload, bind_eq_ok_iff, rejectIf_eq_ok_iff, pure_eq_ok_iff, hversion', hflags',
    hentries', hreserved', not_or, not_lt, not_not]
  refine ⟨(), ⟨by omega, hsize, hmagic'⟩, (), trivial, (), ⟨trivial, Bool.false_ne_true⟩, (), hcount, _, hread,
    (), rfl, rfl⟩

/-! ### What is accepted stands as it would be written -/

/-- An accepted entry stands where it was read. -/
theorem holds_of_readEntry {bytes : List UInt8} {cursor next : Nat} {entry : NestedEntry}
    (h : readEntry bytes cursor = .ok (entry, next)) :
    (entry.name ≠ "" ∧ (utf8 entry.name).length ≤ maxNameBytes) ∧
      Holds bytes cursor (entryBytes entry) ∧ next = cursor + (entryBytes entry).length ∧
      next ≤ bytes.length := by
  unfold readEntry at h
  obtain ⟨fixed, _, hfixed, h⟩ := bind_eq_ok h
  obtain ⟨hinside, rfl, rfl⟩ := takeBytes_eq_ok hfixed
  obtain ⟨_, _, hcheck, h⟩ := bind_eq_ok h
  obtain ⟨hgood, rfl⟩ := check_eq_ok hcheck
  obtain ⟨nameBytes, _, hname, h⟩ := bind_eq_ok h
  obtain ⟨hnameInside, rfl, rfl⟩ := takeBytes_eq_ok hname
  obtain ⟨name, _, hrequire, h⟩ := bind_eq_ok h
  obtain ⟨htext, rfl⟩ := require_eq_ok hrequire
  obtain ⟨rfl, rfl⟩ := pure_eq_ok h
  rw [not_or, not_or, not_lt, Bool.not_eq_true, slice_slice (by decide)] at hgood
  obtain ⟨hempty, hlong, hreserved⟩ := hgood
  -- The fixed part is read from the twenty-four bytes at the cursor.
  have hat : ∀ offset width, offset + width ≤ 24 →
      leAt (slice bytes cursor 24) offset width = leAt bytes (cursor + offset) width := by
    intro offset width hle
    rw [leAt, slice_slice hle]
    rfl
  rw [hat 0 2 (by decide)] at hempty hlong hnameInside htext ⊢
  rw [hat 4 2 (by decide), hat 6 2 (by decide), hat 8 8 (by decide), hat 16 8 (by decide)]
  have hfield : ∀ offset, leAt bytes offset 2 < 2 ^ 16 := fun _ => leAt_lt
  have hkey := UInt16.toNat_ofNat_of_lt' (hfield (cursor + 4))
  have hoccurrence := UInt16.toNat_ofNat_of_lt' (hfield (cursor + 6))
  have hbytes : utf8 name = slice bytes (cursor + 24) (leAt bytes (cursor + 0) 2) :=
    fromUtf8_eq_some_iff.1 htext
  have hlength : (utf8 name).length = leAt bytes (cursor + 0) 2 := by
    rw [hbytes, slice_length_of_le hnameInside]
  have hnameHolds : Holds bytes (cursor + 24) (utf8 name) := by
    rw [Holds, hlength, ← hbytes]
  refine ⟨⟨?_, ?_⟩, ?_, ?_, hnameInside⟩
  · rintro rfl
    exact hempty (hlength ▸ rfl)
  · rw [hlength]
    exact hlong
  · simp only [entryBytes, holds_append, List.length_append, leBytes_length]
    rw [hlength, hkey, hoccurrence]
    refine ⟨⟨⟨⟨⟨⟨?_, ?_⟩, ?_⟩, ?_⟩, ?_⟩, ?_⟩, hnameHolds⟩
    · exact holds_leBytes_leAt (by omega)
    · exact holds_zero_of_anyNonzero (by omega) hreserved
    · exact @holds_leBytes_leAt bytes (cursor + 4) _ (by omega)
    · exact @holds_leBytes_leAt bytes (cursor + 6) _ (by omega)
    · exact @holds_leBytes_leAt bytes (cursor + 8) _ (by omega)
    · exact @holds_leBytes_leAt bytes (cursor + 16) _ (by omega)
  · rw [entryBytes_length, hlength]
    omega

/-- Accepted entries stand one after the other. -/
theorem holds_of_many {bytes : List UInt8} {cursor count next : Nat} {entries : List NestedEntry}
    (h : many readEntry count bytes cursor = .ok (entries, next)) :
    entries.length = count ∧
      (∀ entry ∈ entries, entry.name ≠ "" ∧ (utf8 entry.name).length ≤ maxNameBytes) ∧
      Holds bytes cursor (entries.flatMap entryBytes) ∧
      next = cursor + (entries.flatMap entryBytes).length := by
  induction count generalizing cursor next entries with
  | zero =>
      obtain ⟨rfl, rfl⟩ := pure_eq_ok h
      exact ⟨rfl, fun _ hmem => absurd hmem List.not_mem_nil, holds_nil _ _, rfl⟩
  | succ count ih =>
      unfold many at h
      obtain ⟨entry, _, hentry, h⟩ := bind_eq_ok h
      obtain ⟨rest, _, hrest, h⟩ := bind_eq_ok h
      obtain ⟨rfl, rfl⟩ := pure_eq_ok h
      obtain ⟨hname, hholds, rfl, -⟩ := holds_of_readEntry hentry
      obtain ⟨hcount, hnames, htail, hnext⟩ := ih hrest
      refine ⟨by rw [List.length_cons, hcount], List.forall_mem_cons.2 ⟨hname, hnames⟩, ?_, ?_⟩
      · rw [List.flatMap_cons, holds_append]
        exact ⟨hholds, htail⟩
      · rw [List.flatMap_cons, List.length_append, hnext, Nat.add_assoc]

/-- An accepted payload is its header and its entries, each as it would be written. -/
theorem encoded_of_parsePayload {bytes : List UInt8} {entries : List NestedEntry}
    (h : parsePayload bytes = .ok entries) :
    (∀ entry ∈ entries, entry.name ≠ "" ∧ (utf8 entry.name).length ≤ maxNameBytes) ∧
      entries.length ≤ maxChildren ∧ bytes.length ≤ maxBytes ∧
      bytes = magic ++ leBytes 2 version ++ leBytes 2 0 ++ leBytes 4 entries.length ++
        leBytes 4 0 ++ entries.flatMap entryBytes := by
  simp only [parsePayload, bind_eq_ok_iff, rejectIf_eq_ok_iff, pure_eq_ok_iff, not_or, not_lt,
    not_not, Bool.not_eq_true, Prod.exists] at h
  obtain ⟨_, ⟨hlong, hsize, hmagic⟩, _, hversion, _, ⟨hflags, hreserved⟩, _, hcount, _, cursor,
    hentries, _, hcursor, rfl⟩ := h
  obtain ⟨hlength, hnames, hholds, hnext⟩ := holds_of_many hentries
  refine ⟨hnames, hlength ▸ hcount, hsize, ?_⟩
  have hreserved' : leAt bytes 16 4 = 0 :=
    leAt_of_holds (holds_zero_of_anyNonzero (by omega) hreserved) (by decide)
  refine TensorDirectory.eq_header_append rfl hmagic hversion hflags hlength.symm hreserved' hholds ?_
  rw [← hcursor, hnext]

/-! ### What `parse` checks -/

/-- The child carries what its entry says. -/
def Lists (child : NestedChild) (entry : NestedEntry) : Prop :=
  child.name = entry.name ∧ child.keyId = entry.keyId ∧ child.occurrence = entry.occurrence ∧
    child.childLength = entry.childLength

theorem lists_of_readChild {parent : Validated} {index : Nat} {entry : NestedEntry}
    {child : NestedChild} (h : readChild parent index entry = .ok child) : Lists child entry := by
  simp only [readChild, bind_eq_ok_iff, pure_eq_ok_iff, Prod.exists] at h
  obtain ⟨_, _, -, rfl⟩ := h
  exact ⟨rfl, rfl, rfl, rfl⟩

/-- The loop accepts entries in strict name order, each with a range that is there. -/
theorem sorted_of_parseChildren {parent : Validated} {previous : Option String}
    {occupied : List (Nat × Nat)} {entries : List NestedEntry} {children : List NestedChild}
    (h : parseChildren parent previous occupied entries = .ok children) :
    (∀ name ∈ previous, ∀ entry ∈ entries, byteKey name < byteKey entry.name) ∧ Sorted entries ∧
      (∀ entry ∈ entries, 0 < entry.childLength ∧
        entry.childOffset + entry.childLength < u64Bound) ∧
      List.Forall₂ Lists children entries := by
  induction entries generalizing previous occupied children with
  | nil =>
      cases h
      exact ⟨fun _ _ _ hmem => absurd hmem List.not_mem_nil, List.Pairwise.nil,
        fun _ hmem => absurd hmem List.not_mem_nil, List.Forall₂.nil⟩
  | cons entry rest ih =>
      simp only [parseChildren, bind_eq_ok_iff, rejectIf_eq_ok_iff, pure_eq_ok_iff, Prod.exists,
        not_or, not_le, exists_const] at h
      obtain ⟨horder, _, _, -, hfits, ⟨hempty, -⟩, -, child, hchild, tail, htail, rfl⟩ := h
      obtain ⟨hafter, hsorted, hranges, hlists⟩ := ih htail
      have hbefore : ∀ name ∈ previous, byteKey name < byteKey entry.name := by
        intro name hname
        by_contra hle
        exact horder ⟨name, hname, not_lt.1 hle⟩
      have hrest := hafter entry.name rfl
      refine ⟨?_, List.pairwise_cons.2 ⟨hrest, hsorted⟩,
        List.forall_mem_cons.2 ⟨⟨Nat.pos_of_ne_zero hempty, hfits⟩, hranges⟩,
        List.Forall₂.cons (lists_of_readChild hchild) hlists⟩
      intro name hname
      exact List.forall_mem_cons.2 ⟨hbefore name hname,
        fun other hmem => (hbefore name hname).trans (hrest other hmem)⟩

/-- What the directory of an accepted artifact says. -/
theorem entries_of_parse {parent : Validated} {bootstrap : Bootstrap} {children : List NestedChild}
    (h : parse parent bootstrap = .ok children) :
    ∃ region entries, bootstrap.region .nestedDirectory = some region ∧
      parsePayload region.range.bytes = .ok entries ∧
      parseChildren parent none [] entries = .ok children := by
  simp only [parse, parseEntries, bind_eq_ok_iff, okOr_eq_ok_iff, rejectIf_eq_ok_iff,
    exists_const] at h
  obtain ⟨entries, ⟨region, hregion, _, -, -, hpayload⟩, hchildren⟩ := h
  exact ⟨region, entries, hregion, hpayload, hchildren⟩

/-- Writing the entries of an accepted directory gives its region back, unless a name
holds a zero byte. -/
theorem encodePayload_of_parseChildren_iff {parent : Validated} {bytes : List UInt8}
    {entries : List NestedEntry} {children : List NestedChild}
    (hpayload : parsePayload bytes = .ok entries)
    (hchildren : parseChildren parent none [] entries = .ok children) :
    encodePayload entries = .ok bytes ↔ ∀ entry ∈ entries, NulFree entry := by
  obtain ⟨hnames, hcount, hsize, hbytes⟩ := encoded_of_parsePayload hpayload
  obtain ⟨-, hsorted, hranges, -⟩ := sorted_of_parseChildren hchildren
  rw [encodePayload_eq_ok_iff, hsorted.ordered_eq]
  constructor
  · rintro ⟨-, -, hvalid, -⟩ entry hmem
    exact (hvalid entry hmem).2
  · intro hnul
    refine ⟨hcount, hsorted, ?_, hbytes, hsize⟩
    intro entry hmem
    obtain ⟨hname, hlong⟩ := hnames entry hmem
    obtain ⟨hpos, hfits⟩ := hranges entry hmem
    exact ⟨⟨hname, hlong, hpos, hfits⟩, hnul entry hmem⟩

theorem forall_nulFree_of_lists {children : List NestedChild} {entries : List NestedEntry}
    (h : List.Forall₂ Lists children entries) :
    (∀ entry ∈ entries, NulFree entry) ↔ ∀ child ∈ children, 0 ∉ utf8 child.name := by
  induction h with
  | nil =>
      exact iff_of_true (fun _ hmem => absurd hmem List.not_mem_nil)
        (fun _ hmem => absurd hmem List.not_mem_nil)
  | cons hhead _ ih =>
      rw [List.forall_mem_cons, List.forall_mem_cons, ih, NulFree, hhead.1]

/-- A written list is read back in name order, and its bytes do not depend on the order it
came in; writing the entries of an accepted directory gives its region back exactly when no
child name holds a zero byte. -/
theorem nestedCodec_canonical_iff (parent : Validated) (bootstrap : Bootstrap) :
    (∀ entries bytes, encodePayload entries = .ok bytes →
      (∃ sorted, sorted.Perm entries ∧ Sorted sorted ∧ parsePayload bytes = .ok sorted) ∧
        ∀ others : List NestedEntry, others.Perm entries → encodePayload others = .ok bytes) ∧
    ∀ children, parse parent bootstrap = .ok children →
      ∃ region entries, bootstrap.region .nestedDirectory = some region ∧
        parsePayload region.range.bytes = .ok entries ∧ List.Forall₂ Lists children entries ∧
        (encodePayload entries = .ok region.range.bytes ↔
          ∀ child ∈ children, 0 ∉ utf8 child.name) := by
  constructor
  · intro entries bytes h
    refine ⟨⟨ordered entries, ordered_perm entries, (encodePayload_eq_ok_iff.1 h).2.1,
      parsePayload_encodePayload h⟩, ?_⟩
    intro others hperm
    exact encodePayload_perm hperm h
  · intro children h
    obtain ⟨region, entries, hregion, hpayload, hchildren⟩ := entries_of_parse h
    have hlists := (sorted_of_parseChildren hchildren).2.2.2
    refine ⟨region, entries, hregion, hpayload, hlists, ?_⟩
    rw [encodePayload_of_parseChildren_iff hpayload hchildren, forall_nulFree_of_lists hlists]

/-- Two children, one behind the other. -/
def pairEntries : List NestedEntry :=
  [⟨"a", 7, 0, 0, emptyStream.length⟩, ⟨"b", 7, 0, emptyStream.length, emptyStream.length⟩]

/-- The parsed artifact of the two. -/
def pairView : Validated :=
  (parseV06 (artifactOf pairEntries [emptyStream ++ emptyStream])).toOption.get (by decide +kernel)

/-- Its bootstrap. -/
def pairRegions : Bootstrap := (Bootstrap.discover pairView).toOption.get (by decide +kernel)

/-- The children that are read. -/
def pairChildren : List NestedChild := (parse pairView pairRegions).toOption.get (by decide +kernel)

/-- Writing both children gives their region back. -/
theorem nestedCodec_canonical_iff_pair :
    pairChildren.length = 2 ∧ ∃ region entries,
      pairRegions.region .nestedDirectory = some region ∧
        parsePayload region.range.bytes = .ok entries ∧ List.Forall₂ Lists pairChildren entries ∧
        encodePayload entries = .ok region.range.bytes := by
  obtain ⟨region, entries, hregion, hpayload, hlists, hiff⟩ :=
    (nestedCodec_canonical_iff pairView pairRegions).2 pairChildren (eq_ok_get _)
  exact ⟨by decide +kernel, region, entries, hregion, hpayload, hlists,
    hiff.2 (by decide +kernel)⟩

/-- One child whose name ends in a zero byte. -/
def nulEntries : List NestedEntry := [⟨"a\x00", 7, 0, 0, emptyStream.length⟩]

/-- An artifact with the child. -/
def nulArtifact : List UInt8 := artifactOf nulEntries [emptyStream]

/-- The parsed artifact. -/
def nulView : Validated := (parseV06 nulArtifact).toOption.get (by decide +kernel)

/-- Its bootstrap. -/
def nulRegions : Bootstrap := (Bootstrap.discover nulView).toOption.get (by decide +kernel)

/-- `parse` accepts the artifact, and the entry it read cannot be written. -/
theorem parse_nulArtifact :
    parseV06 nulArtifact = .ok nulView ∧ Bootstrap.discover nulView = .ok nulRegions ∧
      (parse nulView nulRegions).toOption.isSome = true ∧
      (nulRegions.region .nestedDirectory).map (fun region => parsePayload region.range.bytes) =
        some (.ok nulEntries) ∧
      encodePayload nulEntries =
        .error ⟨.invalidTensorName, "nested child name is invalid"⟩ := by
  refine ⟨eq_ok_get _, eq_ok_get _, ?_⟩
  decide +kernel

end VBuf.Ml.NestedDirectory
