import Mathlib.Data.List.Nodup
import VBuf.Ml.TensorDirectory

/-!
# The tensor directory as a canonical form

What `parsePayload` accepts is what `encodePayload` writes: an accepted entry
stands in the bytes as it would be written, and the checks of
`parseWithSources` supply those that only the writer makes.
-/

namespace VBuf.Ml

open VBuf.Lib VBuf.Layout VBuf.V06

theorem representationFromId_eq_ok_iff {id : Nat} {representation : TensorRepresentation} :
    representationFromId id = .ok representation ↔ id = representation.code := by
  constructor
  · intro h
    unfold representationFromId at h
    split at h
    all_goals
      cases h
      try rfl
  · intro h
    rw [h, representationFromId_code]

/-- The number that stands at an offset stands there as its bytes. -/
theorem holds_leBytes_leAt {bytes : List UInt8} {offset width : Nat}
    (hfits : offset + width ≤ bytes.length) :
    Holds bytes offset (leBytes width (leAt bytes offset width)) := by
  have hslice : leBytes width (leAt bytes offset width) = slice bytes offset width :=
    leBytes_ofLeBytes_of_length (slice_length_of_le hfits)
  rw [hslice, Holds, slice_length_of_le hfits]

/-- The entry that a descriptor was read from. -/
def TensorDescriptor.entry (tensor : TensorDescriptor) : TensorEntry where
  name := tensor.name
  dimensions := tensor.dimensions
  representation := tensor.representation
  keyId := tensor.keyId
  occurrence := tensor.occurrence

theorem TensorEntry.raw_injective : Function.Injective TensorEntry.raw := by
  intro a b h
  cases a
  cases b
  simp only [TensorEntry.raw, RawEntry.mk.injEq, TensorEntry.mk.injEq] at h ⊢
  exact ⟨utf8_injective h.1, h.2⟩

namespace TensorDirectory

/-- Neighbours of a sorted list differ exactly when the list is strictly sorted. -/
theorem hasEqualNeighbours_eq_false_iff {α β : Type*} [DecidableEq α] [LinearOrder β]
    {key : α → β} (hkey : Function.Injective key) {items : List α}
    (hsorted : items.Pairwise (fun a b => key a ≤ key b)) :
    hasEqualNeighbours items = false ↔ items.Pairwise (fun a b => key a < key b) := by
  induction items with
  | nil => simp [hasEqualNeighbours]
  | cons first rest ih =>
      obtain ⟨hfirst, hrest⟩ := List.pairwise_cons.1 hsorted
      cases rest with
      | nil => simp [hasEqualNeighbours]
      | cons second rest =>
          have hsplit : hasEqualNeighbours (first :: second :: rest) = false ↔
              first ≠ second ∧ hasEqualNeighbours (second :: rest) = false := by
            simp [hasEqualNeighbours]
          rw [hsplit, ih hrest, List.pairwise_cons (a := first)]
          have hle := hfirst second List.mem_cons_self
          constructor
          · intro h
            obtain ⟨hne, hstrict⟩ := h
            refine ⟨?_, hstrict⟩
            have hlt : key first < key second := lt_of_le_of_ne hle (fun heq => hne (hkey heq))
            intro other hother
            rcases List.mem_cons.1 hother with rfl | hlater
            · exact hlt
            · exact hlt.trans ((List.pairwise_cons.1 hstrict).1 other hlater)
          · intro h
            obtain ⟨hlt, hstrict⟩ := h
            refine ⟨?_, hstrict⟩
            rintro rfl
            exact lt_irrefl _ (hlt first List.mem_cons_self)

/-- A strictly sorted list and a sorted list of the same items are one list. -/
theorem eq_of_perm_of_strict {α β : Type*} [LinearOrder β] {key : α → β} {items others : List α}
    (h : items.Pairwise (fun a b => key a < key b))
    (hothers : others.Pairwise (fun a b => key a ≤ key b)) (hperm : items.Perm others) :
    items = others := by
  refine List.Perm.eq_of_pairwise ?_ (h.imp fun hlt => hlt.le) hothers hperm
  intro a b ha hb hab hba
  have hsame : key a = key b := le_antisymm hab hba
  have hnodup : (items.map key).Nodup := List.pairwise_map.2 (h.imp fun hlt => hlt.ne)
  exact List.inj_on_of_nodup_map hnodup ha (hperm.mem_iff.2 hb) hsame

/-- The entries stand in strict name order. -/
def Sorted (entries : List TensorEntry) : Prop :=
  entries.Pairwise (fun a b => byteKey a.name < byteKey b.name)

theorem ordered_pairwise (entries : List TensorEntry) :
    (ordered entries).Pairwise (fun a b => NameLe a.name b.name) := by
  have htotal : Std.Total (fun a b : TensorEntry => NameLe a.name b.name) :=
    ⟨fun a b => le_total (byteKey a.name) (byteKey b.name)⟩
  have htrans : IsTrans TensorEntry (fun a b => NameLe a.name b.name) :=
    ⟨fun _ _ _ hab hbc => le_trans hab hbc⟩
  exact List.pairwise_insertionSort _ entries

theorem hasEqualNeighbours_names {entries : List TensorEntry}
    (hsorted : entries.Pairwise (fun a b => NameLe a.name b.name)) :
    hasEqualNeighbours (entries.map TensorEntry.name) = false ↔ Sorted entries := by
  rw [hasEqualNeighbours_eq_false_iff byteKey_injective (List.pairwise_map.2 hsorted),
    List.pairwise_map]
  rfl

theorem Sorted.ordered_eq {entries : List TensorEntry} (h : Sorted entries) :
    ordered entries = entries :=
  List.Pairwise.insertionSort_eq (h.imp fun hlt => hlt.le)

/-- Two strictly sorted lists of the same entries are one list. -/
theorem Sorted.eq_of_perm {entries others : List TensorEntry} (h : Sorted entries)
    (hothers : others.Pairwise (fun a b => NameLe a.name b.name)) (hperm : entries.Perm others) :
    entries = others :=
  eq_of_perm_of_strict h hothers hperm

/-- Encoding looks at the entries, not at their order. -/
theorem encodePayload_perm {entries others : List TensorEntry} {bytes : List UInt8}
    (hperm : others.Perm entries) (h : encodePayload entries = .ok bytes) :
    encodePayload others = .ok bytes := by
  obtain ⟨hcount, hnames, hvalid, hbytes, hsize⟩ := encodePayload_eq_ok_iff.1 h
  have hstrict := (hasEqualNeighbours_names (ordered_pairwise entries)).1 hnames
  have hsame : ordered entries = ordered others :=
    hstrict.eq_of_perm (ordered_pairwise others)
      ((List.perm_insertionSort _ entries).trans
        (hperm.symm.trans (List.perm_insertionSort _ others).symm))
  refine encodePayload_eq_ok_iff.2 ⟨?_, hsame ▸ hnames, ?_, ?_, hsize⟩
  · rw [hperm.length_eq]
    exact hcount
  · intro entry hmem
    exact hvalid entry (hperm.mem_iff.1 hmem)
  · rw [hperm.length_eq, ← hsame]
    exact hbytes

/-! ### What is accepted stands as it would be written -/

theorem holds_of_parseDimensions {bytes : List UInt8} {offset rank : Nat} {dimensions : List Nat}
    (h : parseDimensions bytes offset rank = .ok dimensions)
    (hinside : offset + rank * 8 ≤ bytes.length) :
    dimensions.length = rank ∧ 0 ∉ dimensions ∧
      Holds bytes offset (dimensions.flatMap (leBytes 8)) := by
  induction rank generalizing offset dimensions with
  | zero =>
      cases h
      exact ⟨rfl, List.not_mem_nil, holds_nil bytes offset⟩
  | succ rank ih =>
      simp only [parseDimensions, bind_eq_ok_iff, rejectIf_eq_ok_iff, pure_eq_ok_iff] at h
      obtain ⟨_, hzero, rest, hrest, rfl⟩ := h
      obtain ⟨hlength, hnonzero, hholds⟩ := ih hrest (by omega)
      refine ⟨by rw [List.length_cons, hlength], ?_, ?_⟩
      · rw [List.mem_cons, not_or]
        exact ⟨Ne.symm hzero, hnonzero⟩
      · rw [List.flatMap_cons, holds_append, leBytes_length]
        exact ⟨holds_leBytes_leAt (by omega), hholds⟩

/-- The checks of an entry that the payload reader makes. -/
def Readable (entry : TensorEntry) : Prop :=
  (entry.name ≠ "" ∧ (utf8 entry.name).length ≤ maxNameBytes ∧ 0 ∉ utf8 entry.name) ∧
    entry.dimensions.length ≤ maxRank ∧ 0 ∉ entry.dimensions

/-- An accepted entry stands where it was read. -/
theorem holds_of_parseEntry {bytes : List UInt8} {cursor next : Nat} {raw : RawEntry}
    (h : parseEntry bytes cursor = .ok (raw, next)) :
    ∃ entry, entry.raw = raw ∧ Readable entry ∧ Holds bytes cursor (entryBytes entry) ∧
      next = cursor + (entryBytes entry).length ∧ next ≤ bytes.length := by
  simp only [parseEntry, bind_eq_ok_iff, okOr_eq_ok_iff, rejectIf_eq_ok_iff, pure_eq_ok_iff,
    range?_eq_some_iff, representationFromId_eq_ok_iff, not_or, not_lt, not_not,
    Prod.mk.injEq] at h
  obtain ⟨fixed, ⟨-, hfixed, rfl⟩, _, ⟨hempty, hlong⟩, _, hrank, _, hreserved, representation,
    hcode, name, ⟨-, hname, hnameEq⟩, _, ⟨htext, hnul⟩, table, ⟨-, htable, -⟩, dimensions,
    hdimensions, rfl, hnext⟩ := h
  obtain ⟨text, htext⟩ := Option.ne_none_iff_exists'.1 htext
  obtain rfl := fromUtf8_eq_some_iff.1 htext
  -- The fixed part is read from the ten bytes at the cursor.
  have hat : ∀ offset width, offset + width ≤ 10 →
      leAt (slice bytes cursor (cursor + 10 - cursor)) offset width =
        leAt bytes (cursor + offset) width := by
    intro offset width hle
    rw [Nat.add_sub_cancel_left, leAt, slice_slice hle]
    rfl
  have hat₀ : leAt (slice bytes cursor (cursor + 10 - cursor)) 0 2 = leAt bytes cursor 2 :=
    hat 0 2 (by decide)
  rw [hat₀] at hempty hlong hname htable hdimensions hnext hnameEq
  rw [hat 2 1 (by decide)] at hrank htable hdimensions hnext
  rw [hat 3 1 (by decide)] at hcode
  rw [hat 8 2 (by decide)] at hreserved
  rw [hat 4 2 (by decide), hat 6 2 (by decide)]
  rw [Nat.add_sub_cancel_left] at hnameEq
  have hlength : (utf8 text).length = leAt bytes cursor 2 := by
    rw [hnameEq, slice_length_of_le hname]
  obtain ⟨hdims, hzero, htableHolds⟩ := holds_of_parseDimensions hdimensions htable
  have hfield : ∀ offset, leAt bytes offset 2 < 2 ^ 16 := fun _ => leAt_lt
  have hkey := UInt16.toNat_ofNat_of_lt' (hfield (cursor + 4))
  have hoccurrence := UInt16.toNat_ofNat_of_lt' (hfield (cursor + 6))
  have htextHolds : Holds bytes (cursor + 10) (utf8 text) := by
    rw [Holds, hlength, ← hnameEq]
  refine ⟨⟨text, dimensions, representation, UInt16.ofNat (leAt bytes (cursor + 4) 2),
    UInt16.ofNat (leAt bytes (cursor + 6) 2)⟩, rfl, ⟨⟨?_, ?_, hnul⟩, ?_, hzero⟩, ?_, ?_, ?_⟩
  · rintro rfl
    exact hempty (hlength ▸ rfl)
  · rw [hlength]
    exact hlong
  · rw [hdims]
    exact hrank
  · simp only [entryBytes, holds_append, List.length_append, leBytes_length]
    rw [hlength, hdims, ← hcode, hkey, hoccurrence]
    refine ⟨⟨⟨⟨⟨⟨⟨?_, ?_⟩, ?_⟩, ?_⟩, ?_⟩, ?_⟩, htextHolds⟩, ?_⟩
    · exact holds_leBytes_leAt (by omega)
    · exact holds_leBytes_leAt (by omega)
    · exact @holds_leBytes_leAt bytes (cursor + 3) _ (by omega)
    · exact @holds_leBytes_leAt bytes (cursor + 4) _ (by omega)
    · exact @holds_leBytes_leAt bytes (cursor + 6) _ (by omega)
    · rw [← hreserved]
      exact @holds_leBytes_leAt bytes (cursor + 8) _ (by omega)
    · rw [Nat.add_assoc] at htableHolds
      exact htableHolds
  · rw [entryBytes_length, hlength, hdims]
    omega
  · omega

/-- Accepted entries stand one after the other. -/
theorem holds_of_parseEntries {bytes : List UInt8} {cursor count next : Nat}
    {raws : List RawEntry} (h : parseEntries bytes cursor count = .ok (raws, next))
    (hcursor : cursor ≤ bytes.length) :
    ∃ entries : List TensorEntry, entries.map TensorEntry.raw = raws ∧ entries.length = count ∧
      (∀ entry ∈ entries, Readable entry) ∧ Holds bytes cursor (entries.flatMap entryBytes) ∧
      next = cursor + (entries.flatMap entryBytes).length := by
  induction count generalizing cursor next raws with
  | zero =>
      cases h
      exact ⟨[], rfl, rfl, fun _ hmem => absurd hmem List.not_mem_nil, holds_nil _ _, rfl⟩
  | succ count ih =>
      simp only [parseEntries, bind_eq_ok_iff, pure_eq_ok_iff, Prod.exists, Prod.mk.injEq] at h
      obtain ⟨raw, middle, hentry, rest, _, hrest, rfl, rfl⟩ := h
      obtain ⟨entry, rfl, hreadable, hholds, rfl, hmiddle⟩ := holds_of_parseEntry hentry
      obtain ⟨entries, rfl, hcount, hall, htail, hnext⟩ := ih hrest hmiddle
      refine ⟨entry :: entries, rfl, by rw [List.length_cons, hcount], ?_, ?_, ?_⟩
      · intro other hmem
        rcases List.mem_cons.1 hmem with rfl | hlater
        · exact hreadable
        · exact hall other hlater
      · rw [List.flatMap_cons, holds_append]
        exact ⟨hholds, htail⟩
      · rw [List.flatMap_cons, List.length_append, hnext, Nat.add_assoc]

/-- Bytes whose first twenty are the fields of a profile header are the header and what
stands behind it. -/
theorem eq_header_append {bytes magic body : List UInt8} {version count : Nat}
    (hwidth : magic.length = 8) (hmagic : slice bytes 0 8 = magic)
    (hversion : leAt bytes 8 2 = version) (hflags : leAt bytes 10 2 = 0)
    (hcount : leAt bytes 12 4 = count) (hreserved : leAt bytes 16 4 = 0)
    (hbody : Holds bytes 20 body) (hlength : bytes.length = 20 + body.length) :
    bytes = magic ++ leBytes 2 version ++ leBytes 2 0 ++ leBytes 4 count ++ leBytes 4 0 ++
      body := by
  have hfield : ∀ offset width, offset + width ≤ 20 →
      Holds bytes offset (leBytes width (leAt bytes offset width)) :=
    fun offset width hle => holds_leBytes_leAt (by omega)
  have hversion' := hfield 8 2 (by decide)
  have hflags' := hfield 10 2 (by decide)
  have hcount' := hfield 12 4 (by decide)
  have hreserved' := hfield 16 4 (by decide)
  rw [hversion] at hversion'
  rw [hflags] at hflags'
  rw [hcount] at hcount'
  rw [hreserved] at hreserved'
  refine eq_of_holds ?_ ?_
  · simp only [holds_append, List.length_append, leBytes_length, Nat.zero_add, hwidth]
    refine ⟨⟨⟨⟨⟨?_, hversion'⟩, hflags'⟩, hcount'⟩, hreserved'⟩, hbody⟩
    rw [Holds, hwidth]
    exact hmagic
  · simp only [List.length_append, leBytes_length, hwidth]
    rw [hlength]

/-- An accepted payload is its header and its entries, each as it would be written. -/
theorem encoded_of_parsePayload {bytes : List UInt8} {raws : List RawEntry}
    (h : parsePayload bytes = .ok raws) :
    ∃ entries : List TensorEntry, entries.map TensorEntry.raw = raws ∧
      (∀ entry ∈ entries, Readable entry) ∧ entries.length ≤ maxTensors ∧
      bytes.length ≤ maxBytes ∧
      bytes = magic ++ leBytes 2 version ++ leBytes 2 0 ++ leBytes 4 entries.length ++
        leBytes 4 0 ++ entries.flatMap entryBytes := by
  simp only [parsePayload, bind_eq_ok_iff, rejectIf_eq_ok_iff, pure_eq_ok_iff, not_or, not_lt,
    not_not, Prod.exists] at h
  obtain ⟨_, ⟨hlong, hsize, hmagic⟩, _, hversion, _, ⟨hflags, hreserved, hcount⟩, _, cursor,
    hentries, _, hcursor, rfl⟩ := h
  obtain ⟨entries, rfl, hlength, hall, hholds, hnext⟩ := holds_of_parseEntries hentries hlong
  refine ⟨entries, rfl, hall, hlength ▸ hcount, hsize, ?_⟩
  refine eq_header_append rfl hmagic hversion hflags hlength.symm hreserved hholds ?_
  rw [← hcursor, hnext]

/-! ### Binding supplies the remaining check -/

theorem checkedProduct_of_checkGeometry {raw : RawEntry} {target : Block} {payload : TensorRef}
    (h : checkGeometry raw target payload = .ok ()) :
    ∃ elements, checkedProduct raw.dimensions = some elements := by
  unfold checkGeometry at h
  split at h
  · obtain ⟨elements, helements, -⟩ := bind_eq_ok_iff.1 h
    exact ⟨elements, logicalElements_eq_ok_iff.1 helements⟩
  · obtain ⟨elements, helements, -⟩ := bind_eq_ok_iff.1 h
    exact ⟨elements, logicalElements_eq_ok_iff.1 helements⟩

/-- A bound entry keeps what was read, and its shape has a `u64` product. -/
theorem entry_of_resolveEntry {validated : Validated} {sources : SourceRegistry}
    {external : List (UInt16 × UInt16 × TensorRef)} {raw : RawEntry} {tensor : TensorDescriptor}
    (h : resolveEntry validated sources external raw = .ok tensor) :
    tensor.entry.raw = raw ∧ ∃ elements, checkedProduct raw.dimensions = some elements := by
  simp only [resolveEntry, bind_eq_ok_iff, okOr_eq_ok_iff, pure_eq_ok_iff] at h
  obtain ⟨name, hname, _, -, target, -, _, -, payload, -, _, hgeometry, _, -, _, -, _, -, rfl⟩ := h
  refine ⟨?_, checkedProduct_of_checkGeometry hgeometry⟩
  cases raw
  simp only [TensorEntry.raw, TensorDescriptor.entry, RawEntry.mk.injEq, and_true]
  exact fromUtf8_eq_some_iff.1 hname

/-- Bound entries come one from each raw entry, in strict name order. -/
theorem resolveEntries_inv {validated : Validated} {sources : SourceRegistry}
    {external : List (UInt16 × UInt16 × TensorRef)} {previous : Option (List UInt8)}
    {raws : List RawEntry} {tensors : List TensorDescriptor}
    (h : resolveEntries validated sources external previous raws = .ok tensors) :
    List.Forall₂ (fun raw tensor => resolveEntry validated sources external raw = .ok tensor)
        raws tensors ∧
      raws.Pairwise (fun a b => bytesKey a.name < bytesKey b.name) ∧
      ∀ name ∈ previous, ∀ raw ∈ raws, bytesKey name < bytesKey raw.name := by
  induction raws generalizing previous tensors with
  | nil =>
      cases h
      exact ⟨List.Forall₂.nil, List.Pairwise.nil, fun _ _ _ hraw => absurd hraw List.not_mem_nil⟩
  | cons raw rest ih =>
      simp only [resolveEntries, bind_eq_ok_iff, rejectIf_eq_ok_iff, pure_eq_ok_iff] at h
      obtain ⟨_, horder, tensor, hentry, tail, hrest, rfl⟩ := h
      obtain ⟨hall, hstrict, hbehind⟩ := ih hrest
      refine ⟨List.Forall₂.cons hentry hall, List.pairwise_cons.2 ⟨hbehind raw.name rfl, hstrict⟩,
        ?_⟩
      intro name hname other hother
      have hfirst : bytesKey name < bytesKey raw.name := by
        by_contra hle
        exact horder ⟨name, hname, not_lt.1 hle⟩
      rcases List.mem_cons.1 hother with rfl | hlater
      · exact hfirst
      · exact hfirst.trans (hbehind raw.name rfl other hlater)

theorem map_entry_raw {validated : Validated} {sources : SourceRegistry}
    {external : List (UInt16 × UInt16 × TensorRef)} {raws : List RawEntry}
    {tensors : List TensorDescriptor}
    (h : List.Forall₂ (fun raw tensor => resolveEntry validated sources external raw = .ok tensor)
      raws tensors) :
    (tensors.map TensorDescriptor.entry).map TensorEntry.raw = raws := by
  induction h with
  | nil => rfl
  | cons hhead _ ih => rw [List.map_cons, List.map_cons, ih, (entry_of_resolveEntry hhead).1]

/-- What the parser has accepted: the bytes hold the entries of the listed tensors, each
tensor is what its entry resolves to, and they stand in strict name order. -/
structure Listing (validated : Validated) (sources : SourceRegistry)
    (external : List (UInt16 × UInt16 × TensorRef)) (bytes : List UInt8)
    (tensors : List TensorDescriptor) : Prop where
  payload : parsePayload bytes = .ok ((tensors.map TensorDescriptor.entry).map TensorEntry.raw)
  resolved : ∀ tensor ∈ tensors, resolveEntry validated sources external tensor.entry.raw = .ok tensor
  sorted : tensors.Pairwise fun a b => byteKey a.name < byteKey b.name

section Listing

variable {validated : Validated} {bootstrap : Bootstrap} {sources : SourceRegistry}
  {external : List (UInt16 × UInt16 × TensorRef)} {directory : TensorDirectory}
  {bytes : List UInt8} {tensors : List TensorDescriptor}

theorem listing_of_parseWithSources
    (h : parseWithSources validated bootstrap sources external = .ok directory) :
    ∃ region, bootstrap.region .tensorDirectory = some region ∧
      Listing validated sources external region.range.bytes directory.tensors := by
  simp only [parseWithSources, bind_eq_ok_iff, okOr_eq_ok_iff, rejectIf_eq_ok_iff,
    pure_eq_ok_iff] at h
  obtain ⟨region, hregion, _, -, _, -, raws, hraws, tensors, htensors, rfl⟩ := h
  obtain ⟨hall, hstrict, -⟩ := resolveEntries_inv htensors
  -- The descriptors keep the raw entries, so all that was checked of these is said of them.
  have hlisted := map_entry_raw hall
  subst hlisted
  rw [List.map_map, List.forall₂_map_left_iff, List.forall₂_same] at hall
  rw [List.pairwise_map, List.pairwise_map] at hstrict
  exact ⟨region, hregion, hraws, hall, hstrict⟩

theorem Listing.encoded (h : Listing validated sources external bytes tensors) :
    (∀ entry ∈ tensors.map TensorDescriptor.entry, Readable entry) ∧
      (tensors.map TensorDescriptor.entry).length ≤ maxTensors ∧ bytes.length ≤ maxBytes ∧
      bytes = magic ++ leBytes 2 version ++ leBytes 2 0 ++
        leBytes 4 (tensors.map TensorDescriptor.entry).length ++ leBytes 4 0 ++
        (tensors.map TensorDescriptor.entry).flatMap entryBytes := by
  obtain ⟨entries, hentries, hencoded⟩ := encoded_of_parsePayload h.payload
  rwa [List.map_injective_iff.2 TensorEntry.raw_injective hentries] at hencoded

theorem Listing.readable (h : Listing validated sources external bytes tensors)
    {tensor : TensorDescriptor} (hmem : tensor ∈ tensors) : Readable tensor.entry :=
  h.encoded.1 tensor.entry (List.mem_map_of_mem hmem)

/-- Encoding the listed entries of an accepted directory gives its region back. -/
theorem encodePayload_of_parseWithSources
    (h : parseWithSources validated bootstrap sources external = .ok directory) :
    ∃ region, bootstrap.region .tensorDirectory = some region ∧
      encodePayload (directory.tensors.map TensorDescriptor.entry) = .ok region.range.bytes := by
  obtain ⟨region, hregion, hlisting⟩ := listing_of_parseWithSources h
  obtain ⟨hreadable, hcount, hsize, hbytes⟩ := hlisting.encoded
  refine ⟨region, hregion, ?_⟩
  have hsorted : Sorted (directory.tensors.map TensorDescriptor.entry) :=
    List.pairwise_map.2 hlisting.sorted
  have hnames : (directory.tensors.map TensorDescriptor.entry).Pairwise
      (fun a b => NameLe a.name b.name) := hsorted.imp fun hlt => hlt.le
  refine encodePayload_eq_ok_iff.2 ⟨hcount, ?_, ?_, ?_, hsize⟩
  · rw [hsorted.ordered_eq]
    exact (hasEqualNeighbours_names hnames).2 hsorted
  · intro entry hmem
    obtain ⟨hname, hrank, hzero⟩ := hreadable entry hmem
    obtain ⟨tensor, htensor, rfl⟩ := List.mem_map.1 hmem
    have hproduct := (entry_of_resolveEntry (hlisting.resolved tensor htensor)).2
    exact validateEntry_eq_ok_iff.2 ⟨hname, hrank, hzero, hproduct⟩
  · rw [hsorted.ordered_eq]
    exact hbytes

end Listing

/-- The directory payload is a canonical form: writing and reading return the
entries in name order whatever order they came in, and an accepted directory is
what writing its entries gives. -/
theorem directoryCodec_canonical :
    (∀ entries bytes, encodePayload entries = .ok bytes →
      (∃ sorted : List TensorEntry, sorted.Perm entries ∧ Sorted sorted ∧
        parsePayload bytes = .ok (sorted.map TensorEntry.raw)) ∧
      ∀ others : List TensorEntry, others.Perm entries → encodePayload others = .ok bytes) ∧
    ∀ validated bootstrap sources external directory,
      parseWithSources validated bootstrap sources external = .ok directory →
      ∃ region, bootstrap.region .tensorDirectory = some region ∧
        encodePayload (directory.tensors.map TensorDescriptor.entry) = .ok region.range.bytes := by
  refine ⟨?_, ?_⟩
  · intro entries bytes h
    refine ⟨⟨ordered entries, List.perm_insertionSort _ entries, ?_,
      parsePayload_encodePayload h⟩, ?_⟩
    · obtain ⟨-, hnames, -⟩ := encodePayload_eq_ok_iff.1 h
      exact (hasEqualNeighbours_names (ordered_pairwise entries)).1 hnames
    · intro others hperm
      exact encodePayload_perm hperm h
  · intro validated bootstrap sources external directory h
    exact encodePayload_of_parseWithSources h

end TensorDirectory

end VBuf.Ml
