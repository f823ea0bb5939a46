import VBuf.Ml.TokenizerUsable
import VBuf.Tokenizer.Termination

/-!
# The tokenizer of an artifact

Parsed metadata gives the runtime tokenizer its texts, merges and special ids, with
the bounds that the runtime relies on.
-/

namespace VBuf.Ml.TokenizerMetadata

open VBuf.Lib VBuf.Layout VBuf.V06

variable (metadata : TokenizerMetadata)

/-- The texts of the tokens. -/
def tokenTexts : List String :=
  (List.range metadata.tokenCount).map fun index => (metadata.tokenText index).getD ""

/-- The merges. -/
def mergePairs : List (UInt32 × UInt32) :=
  (List.range metadata.mergeCount).map fun index =>
    ((metadata.mergePair index).map fun pair => (UInt32.ofNat pair.1, UInt32.ofNat pair.2)).getD
      (0, 0)

/-- The id of a special token. -/
def specialId (special : SpecialToken) : Option UInt32 :=
  (metadata.specials.find? (fun entry => entry.1 = special)).map fun entry => UInt32.ofNat entry.2

/-- The ids of the special list. -/
def specialIdView : Option (List UInt32) := metadata.specialIdList.map (List.map UInt32.ofNat)

section View

variable {metadata} {validated : Validated}

theorem Checked.text_eq (h : Checked validated metadata)
    (hwell : WellFormed validated.bytes validated.header validated.blocks) {text : String}
    (htext : text ∈ metadata.tokenTexts) :
    ∃ i < metadata.tokenCount, metadata.tokenText i = some text ∧
      utf8 text = slice metadata.textPool.bytes (leAt metadata.offsets.bytes (i * 8) 8)
        (leAt metadata.offsets.bytes ((i + 1) * 8) 8 - leAt metadata.offsets.bytes (i * 8) 8) := by
  obtain ⟨i, hi, rfl⟩ := List.mem_map.1 htext
  have hi := List.mem_range.1 hi
  obtain ⟨start, stop, text, hstart, hstop, _, _, htext, hbytes⟩ := h.span hwell hi
  rw [h.offset_eq hwell (Nat.le_of_lt hi)] at hstart
  rw [h.offset_eq hwell hi] at hstop
  cases hstart
  cases hstop
  rw [htext]
  exact ⟨i, hi, htext, hbytes⟩

theorem Checked.texts_length_le (h : Checked validated metadata) :
    metadata.tokenTexts.length ≤ 10000000 := by
  rw [tokenTexts, List.length_map, List.length_range]
  exact h.count_le

theorem Checked.mergePairs_length_le (h : Checked validated metadata) :
    metadata.mergePairs.length ≤ 10000000 := by
  rw [mergePairs, List.length_map, List.length_range]
  exact h.merges_le

theorem Checked.text_length_le (h : Checked validated metadata)
    (hwell : WellFormed validated.bytes validated.header validated.blocks) :
    ∀ text ∈ metadata.tokenTexts, (utf8 text).length ≤ 4096 := by
  intro text htext
  obtain ⟨i, hi, _, hbytes⟩ := h.text_eq hwell htext
  have hshort := (h.texts i hi).2.2.1
  rw [hbytes, slice_length]
  exact Nat.le_trans (Nat.min_le_left _ _) hshort

theorem Checked.text_ne_zero (h : Checked validated metadata)
    (hwell : WellFormed validated.bytes validated.header validated.blocks) :
    ∀ text ∈ metadata.tokenTexts, ∀ byte ∈ utf8 text, byte ≠ 0 := by
  intro text htext byte hbyte hzero
  obtain ⟨i, hi, _, hbytes⟩ := h.text_eq hwell htext
  rw [hbytes, hzero] at hbyte
  exact (h.texts i hi).2.2.2.2 hbyte

theorem Checked.specialId_lt (h : Checked validated metadata) :
    ∀ ids, metadata.specialIdView = some ids → ∀ id ∈ ids, id.toNat < metadata.tokenTexts.length := by
  intro ids hids id hid
  obtain ⟨list, hlist, rfl⟩ := Option.map_eq_some_iff.1 hids
  obtain ⟨range, hrange, rfl⟩ := Option.map_eq_some_iff.1 hlist
  obtain ⟨value, hvalue, rfl⟩ := List.mem_map.1 hid
  have hlt := h.specialIds range hrange value hvalue
  have hcount := h.count_le
  rw [tokenTexts, List.length_map, List.length_range, UInt32.toNat_ofNat_of_lt']
  · exact hlt
  · exact Nat.lt_of_lt_of_le hlt (Nat.le_trans hcount (by decide))

/-- The metadata that the runtime tokenizer is built from. -/
def view (metadata : TokenizerMetadata) (h : Checked validated metadata)
    (hwell : WellFormed validated.bytes validated.header validated.blocks) :
    Tokenizer.TokenizerMetadata where
  kind := metadata.kind
  hasModel := metadata.model.isSome
  preTokenizer := metadata.preTokenizer
  texts := metadata.tokenTexts
  merges := metadata.mergePairs
  bos := metadata.specialId .bos
  unk := metadata.specialId .unk
  specialIds := metadata.specialIdView
  addBos := metadata.addBos
  ignoreMerges := metadata.ignoreMerges
  count_le := h.texts_length_le
  merges_le := h.mergePairs_length_le
  text_length := h.text_length_le hwell
  text_ne_zero := h.text_ne_zero hwell
  specialIds_lt := h.specialId_lt

/-- The texts of the view are those that the accessor returns. -/
theorem Checked.view_text (h : Checked validated metadata)
    (hwell : WellFormed validated.bytes validated.header validated.blocks) (i : Nat) :
    (metadata.view h hwell).texts[i]? = metadata.tokenText i := by
  show metadata.tokenTexts[i]? = _
  by_cases hi : i < metadata.tokenCount
  · obtain ⟨_, _, text, _, _, _, _, htext, _⟩ := h.span hwell hi
    rw [tokenTexts, List.getElem?_map, List.getElem?_range hi, Option.map_some, htext]
    rfl
  · have hnone : metadata.tokenText i = none := by
      rw [tokenText, tokenBytes, if_pos (Nat.le_of_not_lt hi)]
      rfl
    rw [hnone, List.getElem?_eq_none]
    rw [tokenTexts, List.length_map, List.length_range]
    omega

/-- The merges of the view are the pairs that the accessor returns. -/
theorem Checked.view_merge (h : Checked validated metadata)
    (hwell : WellFormed validated.bytes validated.header validated.blocks) {i : Nat}
    (hi : i < metadata.mergeCount) {left right : CheckedRange}
    (hleft : metadata.mergeLeftIds = some left) (hright : metadata.mergeRightIds = some right) :
    ((metadata.view h hwell).merges[i]?).map (fun pair => (pair.1.toNat, pair.2.toNat)) =
      metadata.mergePair i := by
  obtain ⟨leftBlock, rightBlock, _, _, hpairs⟩ := h.merge_eq hleft hright
  obtain ⟨hpair, hl, hr⟩ := hpairs i hi
  have hcount := h.count_le
  have hbound : metadata.tokenCount < 2 ^ 32 := Nat.lt_of_le_of_lt hcount (by decide)
  show (metadata.mergePairs[i]?).map _ = _
  rw [mergePairs, List.getElem?_map, List.getElem?_range hi]
  simp only [Option.map_some, hpair, Option.getD_some]
  rw [UInt32.toNat_ofNat_of_lt' (Nat.lt_trans hl hbound),
    UInt32.toNat_ofNat_of_lt' (Nat.lt_trans hr hbound)]

/-- The special ids of the view are those that the accessor returns. -/
theorem Checked.view_specialIds (h : Checked validated metadata)
    (hwell : WellFormed validated.bytes validated.header validated.blocks) :
    ((metadata.view h hwell).specialIds).map (List.map UInt32.toNat) = metadata.specialIdList := by
  show (metadata.specialIdView).map _ = _
  rw [specialIdView, Option.map_map]
  cases hids : metadata.specialIdList with
  | none => rfl
  | some ids =>
      obtain ⟨range, hrange, rfl⟩ := Option.map_eq_some_iff.1 hids
      rw [Option.map_some, Function.comp_apply, List.map_map]
      congr 1
      conv_rhs => rw [← List.map_id (chunks4 range.bytes)]
      refine List.map_congr_left fun id hid => ?_
      have hlt := h.specialIds range hrange id hid
      exact UInt32.toNat_ofNat_of_lt'
        (Nat.lt_of_lt_of_le hlt (Nat.le_trans h.count_le (by decide)))

/-- An artifact that is accepted gives checked metadata for the runtime. -/
theorem exists_view {bytes : List UInt8} {bootstrap : Bootstrap}
    (hvalidated : parseV06 bytes = .ok validated)
    (hparse : parse validated bootstrap = .ok metadata) :
    ∃ view : Tokenizer.TokenizerMetadata, view.kind = metadata.kind ∧
      (∀ i, view.texts[i]? = metadata.tokenText i) ∧
      (∀ left right, metadata.mergeLeftIds = some left → metadata.mergeRightIds = some right →
        ∀ i < metadata.mergeCount,
          (view.merges[i]?).map (fun pair => (pair.1.toNat, pair.2.toNat)) =
            metadata.mergePair i) ∧
      view.specialIds.map (List.map UInt32.toNat) = metadata.specialIdList := by
  obtain ⟨hbytes, hwell⟩ := parseV06_eq_ok_iff.1 hvalidated
  rw [← hbytes] at hwell
  have h := parse_checked hparse
  refine ⟨metadata.view h hwell, rfl, h.view_text hwell, ?_, h.view_specialIds hwell⟩
  exact fun left right hleft hright i hi => h.view_merge hwell hi hleft hright

end View

/-! ### An empty special token -/

/-- The roles of a byte-level tokenizer, each the one block of a key. -/
def byteLevelRegion : List UInt8 :=
  magic ++ leBytes 2 version ++ leBytes 2 0 ++ leBytes 1 3 ++ leBytes 1 0 ++ leBytes 2 9 ++
    leBytes 4 0 ++
    [⟨1, true, 10, 0⟩, ⟨2, true, 11, 0⟩, ⟨9, true, 12, 0⟩, ⟨10, true, 13, 0⟩, ⟨11, true, 14, 0⟩,
      ⟨12, true, 15, 0⟩, ⟨13, true, 16, 0⟩, ⟨16, false, 17, 0⟩, ⟨17, true, 18, 0⟩].flatMap entryBytes

/-- An artifact whose first token is empty and special. -/
def emptySpecialArtifact : List UInt8 :=
  encodeStream 3 .knownSize
    [TensorDirectory.arrayCall 0xF000 .opaqueBytes 8 tokenizerBootstrap.length tokenizerBootstrap,
     TensorDirectory.arrayCall 1 .opaqueBytes 8 0 [],
     TensorDirectory.arrayCall 2 .opaqueBytes 8 0 [],
     TensorDirectory.arrayCall 3 .opaqueBytes 8 byteLevelRegion.length byteLevelRegion,
     TensorDirectory.arrayCall 10 .opaqueBytes 8 1 (utf8 "a"),
     TensorDirectory.arrayCall 11 .unsigned 64 3 (leBytes 8 0 ++ leBytes 8 0 ++ leBytes 8 1),
     TensorDirectory.arrayCall 12 .unsigned 32 0 [],
     TensorDirectory.arrayCall 13 .unsigned 32 0 [],
     scalarCall 14 1,
     scalarCall 15 3,
     scalarCall 16 0,
     TensorDirectory.arrayCall 17 .unsigned 32 1 (leBytes 4 0),
     scalarCall 18 0]

/-- The parsed artifact. -/
def emptySpecialView : Validated := (parseV06 emptySpecialArtifact).toOption.get (by decide +kernel)

/-- Its bootstrap. -/
def emptySpecialBootstrap : Bootstrap :=
  (Bootstrap.discover emptySpecialView).toOption.get (by decide +kernel)

/-- Its tokenizer. -/
def emptySpecialMetadata : TokenizerMetadata :=
  (parse emptySpecialView emptySpecialBootstrap).toOption.get (by decide +kernel)

/-- The parser accepts a vocabulary whose first token is empty and special. -/
theorem parse_emptySpecial :
    parse emptySpecialView emptySpecialBootstrap = .ok emptySpecialMetadata ∧
      emptySpecialMetadata.tokenTexts = Tokenizer.emptySpecial.texts ∧
      emptySpecialMetadata.mergePairs = Tokenizer.emptySpecial.merges ∧
      emptySpecialMetadata.specialIdView = Tokenizer.emptySpecial.specialIds := by
  refine ⟨eq_ok_get _, ?_, ?_, ?_⟩
  · decide +kernel
  · decide +kernel
  · decide +kernel

end VBuf.Ml.TokenizerMetadata
