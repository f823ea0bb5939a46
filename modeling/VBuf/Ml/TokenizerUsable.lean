import VBuf.Ml.Metadata
import VBuf.Ml.PayloadPaths
import VBuf.Ml.TokenizerMetadata

/-!
# What the accessors return

Every accessor but one returns the element stored at its index.  The flags are read as
bytes, whatever the width of their block.
-/

namespace VBuf.Ml.TokenizerMetadata

open VBuf.Lib VBuf.Layout VBuf.V06
open VBuf.Tokenizer (TokenizerKind)

/-! ### Arrays -/

/-- The range is the payload of an array block. -/
structure HoldsArray (validated : Validated) (semantic : Semantic) (count : Nat)
    (range : CheckedRange) (block : Block) : Prop where
  payload : ∃ index, validated.blocks[index]? = some block ∧
    validated.payloadRange index = .ok range
  semantic_eq : block.semantic = semantic
  physical_eq : block.physical = .array
  count_eq : block.count = count

/-- The element at an index of the payload of a block, with the width of the block. -/
def elementAt (block : Block) (range : CheckedRange) (index : Nat) : Nat :=
  leAt range.bytes (index * (block.bitWidth / 8)) (block.bitWidth / 8)

/-- Everything the accessors are to return of parsed metadata. -/
structure Usable (validated : Validated) (metadata : TokenizerMetadata) : Prop where
  offset_zero : metadata.offset 0 = some 0
  spans : ∀ i < metadata.tokenCount, ∃ start stop text, metadata.offset i = some start ∧
    metadata.offset (i + 1) = some stop ∧ start ≤ stop ∧
    stop ≤ metadata.textPool.bytes.length ∧ metadata.tokenText i = some text ∧
    utf8 text = slice metadata.textPool.bytes start (stop - start)
  scores : ∀ range, metadata.scores = some range →
    ∃ block, HoldsArray validated .float metadata.tokenCount range block ∧
      ∀ i < metadata.tokenCount, ∃ value, metadata.score i = some value ∧
        floatOfWidth (block.bitWidth / 8) (elementAt block range i) = some value
  types : ∀ range, metadata.types = some range →
    ∃ block, HoldsArray validated .unsigned metadata.tokenCount range block ∧
      ∀ i < metadata.tokenCount, metadata.tokenType i = some (elementAt block range i)
  flags : ∀ range, metadata.tokenFlags = some range →
    ∃ block, HoldsArray validated .unsigned metadata.tokenCount range block ∧
      ∀ i < metadata.tokenCount, ∃ flag, metadata.tokenFlagsAt i = some flag ∧
        flag.toNat = elementAt block range i
  merges : ∀ left right, metadata.mergeLeftIds = some left → metadata.mergeRightIds = some right →
    ∃ leftBlock rightBlock, HoldsArray validated .unsigned metadata.mergeCount left leftBlock ∧
      HoldsArray validated .unsigned metadata.mergeCount right rightBlock ∧
      ∀ i < metadata.mergeCount,
        metadata.mergePair i = some (elementAt leftBlock left i, elementAt rightBlock right i) ∧
        elementAt leftBlock left i < metadata.tokenCount ∧
        elementAt rightBlock right i < metadata.tokenCount
  specialIds : ∀ ids, metadata.specialIdList = some ids → ∀ id ∈ ids, id < metadata.tokenCount
  specials : ∀ special ∈ metadata.specials, special.2 < metadata.tokenCount

/-- The flags are bytes, or all zero but the first, which is a byte. -/
def FlagsAreBytes (validated : Validated) (metadata : TokenizerMetadata) : Prop :=
  ∀ range, metadata.tokenFlags = some range →
    ∃ block, HoldsArray validated .unsigned metadata.tokenCount range block ∧
      (block.bitWidth = 8 ∨ elementAt block range 0 < 256 ∧
        ∀ i, 0 < i → i < metadata.tokenCount → elementAt block range i = 0)

section Arrays

variable {validated : Validated} {semantic : Semantic} {count : Nat} {range : CheckedRange}
  {block : Block}

/-- The payload of an array is its elements end to end. -/
theorem HoldsArray.length_eq (h : HoldsArray validated semantic count range block)
    (hwell : WellFormed validated.bytes validated.header validated.blocks)
    (hwidth : block.bitWidth ∈ [8, 16, 32, 64]) :
    range.bytes.length = count * (block.bitWidth / 8) := by
  obtain ⟨index, hblock, hrange⟩ := h.payload
  have hat := hwell.blockAt (List.mem_of_getElem? hblock)
  have hend := hat.payloadEnd_eq
  have hle := hat.payloadEnd_le
  rw [hwell.global.dataRegionEnd_eq] at hle
  rw [Validated.payloadRange_bytes hblock hend hrange, slice_length_of_le (by omega)]
  have hge := hat.payloadLen_ge
  have hlt := hat.payloadLen_lt
  rw [h.count_eq] at hge hlt
  simp only [List.mem_cons, List.not_mem_nil, or_false] at hwidth
  rcases hwidth with hw | hw | hw | hw <;> rw [hw] at hge hlt ⊢ <;> omega

/-- The width of an array block is one of the four. -/
theorem HoldsArray.width_mem (h : HoldsArray validated .unsigned count range block)
    (hwell : WellFormed validated.bytes validated.header validated.blocks) :
    block.bitWidth ∈ [8, 16, 32, 64] := by
  obtain ⟨index, hblock, _⟩ := h.payload
  have hwidth := (hwell.blockAt (List.mem_of_getElem? hblock)).legalWidth
  rw [h.semantic_eq] at hwidth
  exact hwidth

end Arrays

/-- An element of a row of elements is inside it. -/
theorem range?_element {bytes : List UInt8} {count width i : Nat}
    (hlength : bytes.length = count * width) (hi : i < count) :
    range? bytes (i * width) (i * width + width) = some (slice bytes (i * width) width) := by
  have hinside : i * width + width ≤ count * width := by
    rw [← Nat.succ_mul]
    exact Nat.mul_le_mul_right width hi
  rw [range?_of_le (Nat.le_add_right _ _) (by omega), Nat.add_sub_cancel_left]

/-! ### Resolved blocks -/

/-- A resolved value is a block of the stream with its payload. -/
def Found (validated : Validated) (value : ResolvedValue) : Prop :=
  validated.blocks[value.index]? = some value.block ∧
    validated.payloadRange value.index = .ok value.range

section Resolving

variable {validated : Validated}

theorem resolveValue_found {keyId occurrence : UInt16} {value : ResolvedValue}
    (h : resolveValue validated keyId occurrence = .ok value) : Found validated value := by
  simp only [resolveValue, bind_eq_ok_iff, okOr_eq_ok_iff, ofV06, mapErr_eq_ok_iff,
    pure_eq_ok_iff] at h
  obtain ⟨index, _, block, hblock, _, _, range, hrange, rfl⟩ := h
  exact ⟨hblock, hrange⟩

theorem resolveEntries_found {kind : TokenizerKind} {previous : Option UInt16}
    {resolved out : Resolved} {entries : List TokenizerEntry}
    (h : resolveEntries validated kind previous resolved entries = .ok out)
    (hresolved : ∀ role value, resolved role = some value → Found validated value) :
    ∀ role value, out role = some value → Found validated value := by
  induction entries generalizing previous resolved with
  | nil =>
      cases h
      exact hresolved
  | cons entry rest ih =>
      rw [resolveEntries] at h
      obtain ⟨_, _, h⟩ := bind_eq_ok_iff.1 h
      split at h
      next =>
          obtain ⟨_, _, h⟩ := bind_eq_ok_iff.1 h
          exact ih h hresolved
      next role _ =>
          obtain ⟨_, _, h⟩ := bind_eq_ok_iff.1 h
          obtain ⟨_, _, h⟩ := bind_eq_ok_iff.1 h
          obtain ⟨value, hvalue, h⟩ := bind_eq_ok_iff.1 h
          refine ih h ?_
          intro other found hfound
          by_cases hother : other = role
          · subst hother
            rw [Function.update_self, Option.some.injEq] at hfound
            exact hfound ▸ resolveValue_found hvalue
          · rw [Function.update_of_ne hother] at hfound
            exact hresolved other found hfound

/-- The roles of a region name blocks of the stream. -/
theorem parseRoles_found {bootstrap : Bootstrap} {kind : TokenizerKind} {resolved : Resolved}
    (h : parseRoles validated bootstrap = .ok (kind, resolved)) :
    ∀ role value, resolved role = some value → Found validated value := by
  simp only [parseRoles, bind_eq_ok_iff, pure_eq_ok_iff] at h
  obtain ⟨region, _, block, _, _, _, payload, _, found, hfound, heq⟩ := h
  cases heq
  refine resolveEntries_found hfound ?_
  intro role value hnone
  cases hnone

end Resolving

/-! ### What the checks establish -/

section Checks

variable {validated : Validated} {value : Option ResolvedValue} {count : Nat}

theorem optionalArray_holds {isFloat : Bool} {result : Option CheckedRange}
    (h : optionalArray value count isFloat = .ok result)
    (hfound : ∀ v, value = some v → Found validated v) {range : CheckedRange}
    (hresult : result = some range) :
    ∃ block, HoldsArray validated (if isFloat = true then .float else .unsigned) count range block ∧
      block.bitWidth ∈ (if isFloat = true then [32, 64] else [8, 16, 32, 64]) := by
  subst hresult
  cases value with
  | none => cases h
  | some v =>
      simp only [optionalArray, bind_eq_ok_iff, rejectIf_eq_ok_iff, pure_eq_ok_iff] at h
      obtain ⟨_, hcheck, heq⟩ := h
      cases heq
      obtain ⟨hblock, hrange⟩ := hfound v rfl
      have hparts : v.block.semantic = (if isFloat = true then .float else .unsigned) ∧
          v.block.physical = .array ∧ v.block.count = count ∧
          v.block.bitWidth ∈ (if isFloat = true then [32, 64] else [8, 16, 32, 64]) := by
        cases isFloat <;> grind
      exact ⟨v.block, ⟨⟨v.index, hblock, hrange⟩, hparts.1, hparts.2.1, hparts.2.2.1⟩,
        hparts.2.2.2⟩

/-- The offsets are those of consecutive texts of the pool. -/
theorem checkOffsets_spec {bytes pool : List UInt8} {remaining j : Nat}
    (h : checkOffsets bytes pool remaining (j + 1) (leAt bytes (j * 8) 8) = .ok ()) :
    ∀ i, j ≤ i → i < j + remaining →
      leAt bytes (i * 8) 8 ≤ leAt bytes ((i + 1) * 8) 8 ∧
        leAt bytes ((i + 1) * 8) 8 ≤ pool.length ∧
        leAt bytes ((i + 1) * 8) 8 - leAt bytes (i * 8) 8 ≤ maxTokenBytes ∧
        IsText (slice pool (leAt bytes (i * 8) 8)
          (leAt bytes ((i + 1) * 8) 8 - leAt bytes (i * 8) 8)) := by
  induction remaining generalizing j with
  | zero =>
      intro i hle hlt
      omega
  | succ remaining ih =>
      simp only [checkOffsets, bind_eq_ok_iff, rejectIf_eq_ok_iff, okOr_eq_ok_iff,
        range?_eq_some_iff, not_not] at h
      obtain ⟨_, hbad, text, ⟨hle, hpool, rfl⟩, _, htext, hrest⟩ := h
      intro i hij hlt
      rcases Nat.eq_or_lt_of_le hij with rfl | hij
      · refine ⟨hle, hpool, ?_, htext⟩
        exact Nat.le_of_not_lt fun hlong => hbad (Or.inr (Or.inl hlong))
      · exact ih hrest i hij (by omega)

theorem checkMergeIds_spec {left right : List UInt8} {tokenCount remaining index : Nat}
    (h : checkMergeIds left right tokenCount remaining index = .ok ()) :
    ∀ i, index ≤ i → i < index + remaining →
      leAt left (i * 4) 4 < tokenCount ∧ leAt right (i * 4) 4 < tokenCount := by
  induction remaining generalizing index with
  | zero =>
      intro i hle hlt
      omega
  | succ remaining ih =>
      simp only [checkMergeIds, bind_eq_ok_iff, rejectIf_eq_ok_iff, not_or, not_le] at h
      obtain ⟨_, hids, hrest⟩ := h
      intro i hle hlt
      rcases Nat.eq_or_lt_of_le hle with rfl | hle
      · exact hids
      · exact ih hrest i hle (by omega)

theorem requiredU32Array_holds {maxCount : Nat} {range : CheckedRange}
    (h : requiredU32Array value maxCount = .ok range)
    (hfound : ∀ v, value = some v → Found validated v) :
    ∃ block, HoldsArray validated .unsigned (range.bytes.length / 4) range block ∧
      block.bitWidth = 32 ∧ range.bytes.length = block.count * 4 ∧ block.count ≤ maxCount := by
  simp only [requiredU32Array, bind_eq_ok_iff, okOr_eq_ok_iff, rejectIf_eq_ok_iff,
    pure_eq_ok_iff, not_or, not_not] at h
  obtain ⟨v, hv, _, ⟨hsemantic, hphysical, hwidth, hmax, hlength⟩, rfl⟩ := h
  obtain ⟨hblock, hrange⟩ := hfound v hv
  exact ⟨v.block, ⟨⟨v.index, hblock, hrange⟩, hsemantic, hphysical, by omega⟩, hwidth, hlength,
    Nat.le_of_not_lt hmax⟩

theorem optionalU32Array_lt {tokenCount : Nat} {result : Option CheckedRange}
    (h : optionalU32Array value tokenCount = .ok result) {range : CheckedRange}
    (hresult : result = some range) : ∀ id ∈ chunks4 range.bytes, id < tokenCount := by
  subst hresult
  cases value with
  | none => cases h
  | some v =>
      simp only [optionalU32Array, bind_eq_ok_iff, rejectIf_eq_ok_iff, pure_eq_ok_iff] at h
      obtain ⟨_, _, _, hids, heq⟩ := h
      cases heq
      intro id hid
      exact Nat.lt_of_not_le fun hle => hids ⟨id, hid, hle⟩

theorem parseSpecials_lt {resolved : Resolved} {tokenCount : Nat}
    {roles : List (TokenizerRole × SpecialToken)} {specials : List (SpecialToken × Nat)}
    (h : parseSpecials resolved tokenCount roles = .ok specials) :
    ∀ special ∈ specials, special.2 < tokenCount := by
  induction roles generalizing specials with
  | nil =>
      cases h
      exact fun special hnone => (nomatch hnone)
  | cons role rest ih =>
      rw [parseSpecials] at h
      split at h
      next => exact ih h
      next value _ =>
          simp only [bind_eq_ok_iff, rejectIf_eq_ok_iff, pure_eq_ok_iff, not_le] at h
          obtain ⟨id, _, _, hid, tail, htail, rfl⟩ := h
          intro special hspecial
          rcases List.mem_cons.1 hspecial with rfl | hspecial
          · exact hid
          · exact ih htail special hspecial

end Checks

/-- What `parse` has checked of the ranges it keeps. -/
structure Checked (validated : Validated) (metadata : TokenizerMetadata) : Prop where
  pos : 0 < metadata.tokenCount
  count_le : metadata.tokenCount ≤ maxVocabulary
  merges_le : metadata.mergeCount ≤ maxMerges
  offsets : ∃ block, HoldsArray validated .unsigned (metadata.tokenCount + 1) metadata.offsets block ∧
    block.bitWidth = 64
  first : leAt metadata.offsets.bytes 0 8 = 0
  texts : ∀ i < metadata.tokenCount,
    leAt metadata.offsets.bytes (i * 8) 8 ≤ leAt metadata.offsets.bytes ((i + 1) * 8) 8 ∧
      leAt metadata.offsets.bytes ((i + 1) * 8) 8 ≤ metadata.textPool.bytes.length ∧
      leAt metadata.offsets.bytes ((i + 1) * 8) 8 - leAt metadata.offsets.bytes (i * 8) 8 ≤
        maxTokenBytes ∧
      IsText (slice metadata.textPool.bytes (leAt metadata.offsets.bytes (i * 8) 8)
        (leAt metadata.offsets.bytes ((i + 1) * 8) 8 - leAt metadata.offsets.bytes (i * 8) 8))
  scores : ∀ range, metadata.scores = some range →
    ∃ block, HoldsArray validated .float metadata.tokenCount range block ∧ block.bitWidth ∈ [32, 64]
  types : ∀ range, metadata.types = some range →
    ∃ block, HoldsArray validated .unsigned metadata.tokenCount range block
  flags : ∀ range, metadata.tokenFlags = some range →
    ∃ block, HoldsArray validated .unsigned metadata.tokenCount range block
  merges : ∀ left right, metadata.mergeLeftIds = some left → metadata.mergeRightIds = some right →
    left.bytes.length = right.bytes.length ∧
      (∀ range ∈ [left, right], ∃ block,
        HoldsArray validated .unsigned (range.bytes.length / 4) range block ∧
          block.bitWidth = 32 ∧ range.bytes.length = block.count * 4 ∧ block.count ≤ maxMerges) ∧
      ∀ i < left.bytes.length / 4, leAt left.bytes (i * 4) 4 < metadata.tokenCount ∧
        leAt right.bytes (i * 4) 4 < metadata.tokenCount
  specialIds : ∀ range, metadata.specialIds = some range →
    ∀ id ∈ chunks4 range.bytes, id < metadata.tokenCount
  specials : ∀ special ∈ metadata.specials, special.2 < metadata.tokenCount

section Parsing

variable {validated : Validated} {bootstrap : Bootstrap} {metadata : TokenizerMetadata}

theorem parseMerges_checked {kind : TokenizerKind} {resolved : Resolved} {tokenCount : Nat}
    {merges : Option CheckedRange × Option CheckedRange}
    (h : parseMerges kind resolved tokenCount = .ok merges)
    (hfound : ∀ role value, resolved role = some value → Found validated value)
    {left right : CheckedRange} (hleft : merges.1 = some left) (hright : merges.2 = some right) :
    left.bytes.length = right.bytes.length ∧
      (∀ range ∈ [left, right], ∃ block,
        HoldsArray validated .unsigned (range.bytes.length / 4) range block ∧
          block.bitWidth = 32 ∧ range.bytes.length = block.count * 4 ∧ block.count ≤ maxMerges) ∧
      ∀ i < left.bytes.length / 4,
        leAt left.bytes (i * 4) 4 < tokenCount ∧ leAt right.bytes (i * 4) 4 < tokenCount := by
  unfold parseMerges at h
  split at h
  next =>
      simp only [bind_eq_ok_iff, rejectIf_eq_ok_iff, pure_eq_ok_iff, not_not] at h
      obtain ⟨left', hleft', right', hright', _, hlength, _, hids, rfl⟩ := h
      cases hleft
      cases hright
      have hleft_holds := requiredU32Array_holds hleft' (hfound _)
      have hright_holds := requiredU32Array_holds hright' (hfound _)
      refine ⟨hlength, ?_, ?_⟩
      · intro range hrange
        simp only [List.mem_cons, List.not_mem_nil, or_false] at hrange
        rcases hrange with rfl | rfl
        · exact hleft_holds
        · exact hright_holds
      · intro i hi
        exact checkMergeIds_spec hids i (Nat.zero_le i) (by omega)
  next =>
      cases h
      cases hleft

theorem parseMerges_count {kind : TokenizerKind} {resolved : Resolved} {tokenCount : Nat}
    {merges : Option CheckedRange × Option CheckedRange}
    (h : parseMerges kind resolved tokenCount = .ok merges)
    (hfound : ∀ role value, resolved role = some value → Found validated value) :
    (merges.1.map fun range => range.bytes.length / 4).getD 0 ≤ maxMerges := by
  unfold parseMerges at h
  split at h
  next =>
      simp only [bind_eq_ok_iff, rejectIf_eq_ok_iff, pure_eq_ok_iff] at h
      obtain ⟨left, hleft, right, _, _, _, _, _, rfl⟩ := h
      obtain ⟨block, _, _, hlength, hcount⟩ := requiredU32Array_holds hleft (hfound _)
      simp only [Option.map_some, Option.getD_some]
      omega
  next =>
      cases h
      exact Nat.zero_le _

/-- Metadata that is parsed is checked. -/
theorem parse_checked (h : parse validated bootstrap = .ok metadata) :
    Checked validated metadata := by
  simp only [parse, bind_eq_ok_iff, okOr_eq_ok_iff, rejectIf_eq_ok_iff, pure_eq_ok_iff] at h
  obtain ⟨⟨kind, resolved⟩, hroles, textPool, hpool, offsets, hoffsets, _, _, tokenCount, hcount,
    _, hmax, scores, hscores, types, htypes, _, _, merges, hmerges, _, _, _, _, _, _, _, _, _, _, flags,
    hflags, specialIds, hspecialIds, specials, hspecials, rfl⟩ := h
  have hfound := parseRoles_found hroles
  simp only [validateOffsets, bind_eq_ok_iff, rejectIf_eq_ok_iff, pure_eq_ok_iff, not_or,
    not_not, not_lt] at hcount
  obtain ⟨_, ⟨hsemantic, hphysical, hwidth, hmany, _⟩, _, hfirst, _, hoffsets_ok, rfl⟩ := hcount
  obtain ⟨hblock, hrange⟩ := hfound _ offsets hoffsets
  have htexts := checkOffsets_spec (j := 0) (by
    rw [Nat.zero_mul, hfirst]
    exact hoffsets_ok)
  refine
    { pos := ?_
      count_le := Nat.le_of_not_lt hmax
      merges_le := parseMerges_count hmerges hfound
      offsets :=
        ⟨offsets.block, ⟨⟨offsets.index, hblock, hrange⟩, hsemantic, hphysical, ?_⟩, hwidth⟩
      first := hfirst
      texts := fun i hi => htexts i (Nat.zero_le i) (by rwa [Nat.zero_add])
      scores := fun range heq => optionalArray_holds hscores (hfound _) heq
      types := fun range heq => ?_
      flags := fun range heq => ?_
      merges := fun left right hleft hright => parseMerges_checked hmerges hfound hleft hright
      specialIds := fun range heq => optionalU32Array_lt hspecialIds heq
      specials := parseSpecials_lt hspecials }
  · show 0 < offsets.block.count - 1
    omega
  · show offsets.block.count = offsets.block.count - 1 + 1
    omega
  · obtain ⟨block, hblock, _⟩ := optionalArray_holds htypes (hfound _) heq
    exact ⟨block, hblock⟩
  · obtain ⟨block, hblock, _⟩ := optionalArray_holds hflags (hfound _) heq
    exact ⟨block, hblock⟩

end Parsing

/-! ### The accessors -/

section Accessors

variable {validated : Validated} {metadata : TokenizerMetadata}

theorem Checked.offset_eq (h : Checked validated metadata)
    (hwell : WellFormed validated.bytes validated.header validated.blocks) {i : Nat}
    (hi : i ≤ metadata.tokenCount) :
    metadata.offset i = some (leAt metadata.offsets.bytes (i * 8) 8) := by
  obtain ⟨block, hblock, hwidth⟩ := h.offsets
  have hlength := hblock.length_eq hwell (by simp [hwidth])
  rw [hwidth] at hlength
  rw [offset, range?_element hlength (by omega)]
  rfl

theorem Checked.span (h : Checked validated metadata)
    (hwell : WellFormed validated.bytes validated.header validated.blocks) {i : Nat}
    (hi : i < metadata.tokenCount) :
    ∃ start stop text, metadata.offset i = some start ∧ metadata.offset (i + 1) = some stop ∧
      start ≤ stop ∧ stop ≤ metadata.textPool.bytes.length ∧ metadata.tokenText i = some text ∧
      utf8 text = slice metadata.textPool.bytes start (stop - start) := by
  obtain ⟨hle, hpool, _, htext, _⟩ := h.texts i hi
  obtain ⟨text, htext⟩ := Option.isSome_iff_exists.1 htext
  have hstart := h.offset_eq hwell (Nat.le_of_lt hi)
  have hstop := h.offset_eq hwell hi
  refine ⟨_, _, text, hstart, hstop, hle, hpool, ?_, fromUtf8_eq_some_iff.1 htext⟩
  rw [tokenText, tokenBytes, if_neg (Nat.not_le_of_lt hi), hstart, hstop]
  show (range? metadata.textPool.bytes _ _).bind _ = _
  rw [range?_of_le hle hpool]
  exact htext

theorem Checked.score_eq (h : Checked validated metadata)
    (hwell : WellFormed validated.bytes validated.header validated.blocks) {range : CheckedRange}
    (hscores : metadata.scores = some range) :
    ∃ block, HoldsArray validated .float metadata.tokenCount range block ∧
      ∀ i < metadata.tokenCount, ∃ value, metadata.score i = some value ∧
        floatOfWidth (block.bitWidth / 8) (elementAt block range i) = some value := by
  obtain ⟨block, hblock, hwidth⟩ := h.scores range hscores
  have hpos := h.pos
  have hfour : block.bitWidth = 32 ∨ block.bitWidth = 64 := by simpa using hwidth
  have hlength := hblock.length_eq hwell (by
    rcases hfour with hw | hw <;> simp [hw])
  refine ⟨block, hblock, fun i hi => ?_⟩
  have hvalue : ∃ value, floatOfWidth (block.bitWidth / 8) (elementAt block range i) =
      some value := by
    rcases hfour with hw | hw <;> rw [hw] <;> exact ⟨_, rfl⟩
  obtain ⟨value, hvalue⟩ := hvalue
  refine ⟨value, ?_, hvalue⟩
  rw [score, hscores]
  show (if metadata.tokenCount ≤ i then none else _) = _
  rw [if_neg (Nat.not_le_of_lt hi)]
  rw [show range.bytes.length / metadata.tokenCount = block.bitWidth / 8 by
    rw [hlength, Nat.mul_div_cancel_left _ hpos], range?_element hlength hi]
  exact hvalue

theorem Checked.type_eq (h : Checked validated metadata)
    (hwell : WellFormed validated.bytes validated.header validated.blocks) {range : CheckedRange}
    (htypes : metadata.types = some range) :
    ∃ block, HoldsArray validated .unsigned metadata.tokenCount range block ∧
      ∀ i < metadata.tokenCount, metadata.tokenType i = some (elementAt block range i) := by
  obtain ⟨block, hblock⟩ := h.types range htypes
  have hwidth := hblock.width_mem hwell
  have hlength := hblock.length_eq hwell hwidth
  refine ⟨block, hblock, fun i hi => ?_⟩
  rw [tokenType, htypes]
  show (if metadata.tokenCount ≤ i then none else _) = _
  rw [if_neg (Nat.not_le_of_lt hi)]
  rw [show range.bytes.length / metadata.tokenCount = block.bitWidth / 8 by
    rw [hlength, Nat.mul_div_cancel_left _ h.pos], range?_element hlength hi]
  show unsignedOfWidth (block.bitWidth / 8) _ = _
  rw [unsignedOfWidth, if_pos]
  · rfl
  · simp only [List.mem_cons, List.not_mem_nil, or_false] at hwidth ⊢
    omega

theorem Checked.merge_eq (h : Checked validated metadata) {left right : CheckedRange}
    (hleft : metadata.mergeLeftIds = some left) (hright : metadata.mergeRightIds = some right) :
    ∃ leftBlock rightBlock, HoldsArray validated .unsigned metadata.mergeCount left leftBlock ∧
      HoldsArray validated .unsigned metadata.mergeCount right rightBlock ∧
      ∀ i < metadata.mergeCount,
        metadata.mergePair i = some (elementAt leftBlock left i, elementAt rightBlock right i) ∧
        elementAt leftBlock left i < metadata.tokenCount ∧
        elementAt rightBlock right i < metadata.tokenCount := by
  obtain ⟨hsame, hblocks, hids⟩ := h.merges left right hleft hright
  obtain ⟨leftBlock, hleftBlock, hleftWidth, hleftLength, _⟩ := hblocks left (by simp)
  obtain ⟨rightBlock, hrightBlock, hrightWidth, hrightLength, _⟩ := hblocks right (by simp)
  have hcount : metadata.mergeCount = left.bytes.length / 4 := by
    rw [mergeCount, hleft]
    rfl
  rw [hcount]
  refine ⟨leftBlock, rightBlock, hleftBlock, hsame ▸ hrightBlock, fun i hi => ?_⟩
  have hl : left.bytes.length = left.bytes.length / 4 * 4 := by omega
  have hr : right.bytes.length = left.bytes.length / 4 * 4 := by omega
  rw [elementAt, elementAt, hleftWidth, hrightWidth]
  refine ⟨?_, hids i hi⟩
  rw [mergePair, hleft, hright]
  show (range? left.bytes _ _).bind (fun leftId => (range? right.bytes _ _).bind _) = _
  rw [range?_element hl hi, range?_element hr hi]
  rfl

end Accessors

/-! ### The flags -/

section Flags

variable {bytes : List UInt8} {width count : Nat}

/-- A byte of an element is a byte of the row. -/
theorem byte_element {j k : Nat} (hk : k < width) :
    leAt bytes (j * width) width / 256 ^ k % 256 = (bytes.getD (j * width + k) 0).toNat := by
  rw [leAt, ofLeBytes_digit, slice, List.getD_eq_getElem?_getD, List.getElem?_take_of_lt hk,
    List.getElem?_drop, List.getD_eq_getElem?_getD]

/-- A byte of an element that is zero but for its lowest byte. -/
theorem byte_eq_zero (hwidth : 2 ≤ width) (hfirst : leAt bytes 0 width < 256) {i : Nat} (hi : 0 < i)
    (hbefore : ∀ j, 0 < j → j < i → leAt bytes (j * width) width = 0) :
    (bytes.getD i 0).toNat = 0 := by
  have hlt : i / width < i := Nat.div_lt_self hi hwidth
  have hmod : i % width < width := Nat.mod_lt i (by omega)
  have hplace := @byte_element bytes width (i / width) (i % width) hmod
  rw [Nat.div_add_mod'] at hplace
  rw [← hplace]
  rcases Nat.eq_zero_or_pos (i / width) with hzero | hpos
  · -- A higher byte of the first element.
    have hself : i % width = i := by
      have hsplit := Nat.div_add_mod' i width
      rw [hzero, Nat.zero_mul, Nat.zero_add] at hsplit
      exact hsplit
    have hpow : 256 ^ 1 ≤ 256 ^ i := Nat.pow_le_pow_right (by decide) hi
    rw [hzero, Nat.zero_mul, hself, Nat.div_eq_of_lt (by omega)]
  · rw [hbefore (i / width) hpos hlt, Nat.zero_div]

/-- The bytes of a row are its elements exactly when they are all zero but the first,
and that one is a byte. -/
theorem bytes_eq_elements_iff (hwidth : 2 ≤ width) (hcount : 0 < count) :
    (∀ i < count, (bytes.getD i 0).toNat = leAt bytes (i * width) width) ↔
      leAt bytes 0 width < 256 ∧ ∀ i, 0 < i → i < count → leAt bytes (i * width) width = 0 := by
  have hlowest := @byte_element bytes width 0 0 (by omega)
  simp only [Nat.zero_mul, Nat.pow_zero, Nat.div_one, Nat.add_zero] at hlowest
  constructor
  · intro hall
    have hfirst : leAt bytes 0 width < 256 := by
      have hzero := hall 0 hcount
      rw [Nat.zero_mul] at hzero
      have hlt := (bytes.getD 0 0).toNat_lt
      omega
    refine ⟨hfirst, fun i => ?_⟩
    induction i using Nat.strongRecOn with
    | ind i ih =>
        intro hpos hi
        rw [← hall i hi]
        exact byte_eq_zero hwidth hfirst hpos fun j hj hlt => ih j hlt hj (by omega)
  · rintro ⟨hfirst, hrest⟩ i hi
    rcases Nat.eq_zero_or_pos i with rfl | hpos
    · rw [Nat.zero_mul]
      omega
    · rw [hrest i hpos hi]
      exact byte_eq_zero hwidth hfirst hpos fun j hj hlt => hrest j hj (by omega)

end Flags

section Parsed

variable {validated : Validated} {metadata : TokenizerMetadata}

/-- The flags are returned as stored exactly when they are bytes, or zero but for the
first. -/
theorem flags_eq_iff (hpos : 0 < metadata.tokenCount)
    (hwell : WellFormed validated.bytes validated.header validated.blocks) {range : CheckedRange}
    (hflags : metadata.tokenFlags = some range) {block : Block}
    (hblock : HoldsArray validated .unsigned metadata.tokenCount range block) :
    (∀ i < metadata.tokenCount, ∃ flag, metadata.tokenFlagsAt i = some flag ∧
        flag.toNat = elementAt block range i) ↔
      block.bitWidth = 8 ∨ elementAt block range 0 < 256 ∧
        ∀ i, 0 < i → i < metadata.tokenCount → elementAt block range i = 0 := by
  have hwidth := hblock.width_mem hwell
  have hlength := hblock.length_eq hwell hwidth
  simp only [List.mem_cons, List.not_mem_nil, or_false] at hwidth
  have hread : ∀ i < metadata.tokenCount,
      metadata.tokenFlagsAt i = some (range.bytes.getD i 0) := by
    intro i hi
    have hinside : i < range.bytes.length := by
      have hle : metadata.tokenCount * 1 ≤ metadata.tokenCount * (block.bitWidth / 8) :=
        Nat.mul_le_mul_left _ (by omega)
      omega
    rw [tokenFlagsAt, hflags]
    show (if metadata.tokenCount ≤ i then none else _) = _
    rw [if_neg (Nat.not_le_of_lt hi), List.getD_eq_getElem?_getD,
      List.getElem?_eq_getElem hinside]
    rfl
  have hall : (∀ i < metadata.tokenCount, ∃ flag, metadata.tokenFlagsAt i = some flag ∧
      flag.toNat = elementAt block range i) ↔
      ∀ i < metadata.tokenCount, (range.bytes.getD i 0).toNat = elementAt block range i := by
    refine forall₂_congr fun i hi => ?_
    rw [hread i hi]
    constructor
    · rintro ⟨flag, hflag, heq⟩
      cases hflag
      exact heq
    · exact fun heq => ⟨_, rfl, heq⟩
  rw [hall]
  by_cases height : block.bitWidth = 8
  · refine iff_of_true (fun i _ => ?_) (Or.inl height)
    have hbyte := @byte_element range.bytes 1 i 0 (by decide)
    have hlt := ofLeBytes_lt (slice range.bytes (i * 1) 1)
    have hone : 256 ^ (slice range.bytes (i * 1) 1).length ≤ 256 ^ 1 :=
      Nat.pow_le_pow_right (by decide) (by rw [slice_length]; exact Nat.min_le_left _ _)
    rw [Nat.pow_zero, Nat.div_one, Nat.mul_one, Nat.add_zero] at hbyte
    rw [elementAt, height, ← hbyte]
    show leAt range.bytes i 1 % 256 = leAt range.bytes (i * 1) 1
    rw [Nat.mul_one] at hlt ⊢
    exact Nat.mod_eq_of_lt (Nat.lt_of_lt_of_le hlt (by simpa using hone))
  · have hmany : 2 ≤ block.bitWidth / 8 := by omega
    simp only [elementAt, height, false_or, Nat.zero_mul]
    exact bytes_eq_elements_iff hmany hpos

/-- Parsed metadata is usable exactly when its flags, where it has them, are bytes, or
are all zero but the first and that one a byte. -/
theorem parse_usable_iff {bytes : List UInt8} {bootstrap : Bootstrap}
    (hvalidated : parseV06 bytes = .ok validated)
    (hparse : parse validated bootstrap = .ok metadata) :
    Usable validated metadata ↔ FlagsAreBytes validated metadata := by
  obtain ⟨hbytes, hwell⟩ := parseV06_eq_ok_iff.1 hvalidated
  rw [← hbytes] at hwell
  have hchecked := parse_checked hparse
  constructor
  · intro husable range hflags
    obtain ⟨block, hblock, hread⟩ := husable.flags range hflags
    exact ⟨block, hblock, (flags_eq_iff hchecked.pos hwell hflags hblock).1 hread⟩
  · intro hflags
    refine
      { offset_zero := ?_
        spans := fun i hi => hchecked.span hwell hi
        scores := fun range hscores => hchecked.score_eq hwell hscores
        types := fun range htypes => hchecked.type_eq hwell htypes
        flags := fun range hrange => ?_
        merges := fun left right hleft hright => hchecked.merge_eq hleft hright
        specialIds := fun ids hids => ?_
        specials := hchecked.specials }
    · rw [hchecked.offset_eq hwell (Nat.zero_le _), Nat.zero_mul, hchecked.first]
    · obtain ⟨block, hblock, hbytes⟩ := hflags range hrange
      exact ⟨block, hblock, (flags_eq_iff hchecked.pos hwell hrange hblock).2 hbytes⟩
    · obtain ⟨range, hrange, rfl⟩ := Option.map_eq_some_iff.1 hids
      exact hchecked.specialIds range hrange

end Parsed

/-! ### Wide flags -/

/-- A bootstrap with a tokenizer. -/
def tokenizerBootstrap : List UInt8 :=
  Bootstrap.magic ++ leBytes 2 1 ++ leBytes 2 0 ++ leBytes 2 3 ++ leBytes 2 0 ++
    Bootstrap.entryBytes ⟨1, true, 2, 0⟩ ++ Bootstrap.entryBytes ⟨2, true, 1, 0⟩ ++
    Bootstrap.entryBytes ⟨3, false, 3, 0⟩

/-- The bytes of an entry. -/
def entryBytes (entry : TokenizerEntry) : List UInt8 :=
  leBytes 2 entry.roleId.toNat ++ leBytes 2 (if entry.required then 1 else 0) ++
    leBytes 2 entry.genericKeyId.toNat ++ leBytes 2 entry.occurrence.toNat ++ leBytes 4 0

/-- A call that writes one byte as a scalar. -/
def scalarCall (keyId : UInt16) (value : Nat) : BlockWrite where
  options := { keyId, physical := .scalar, continuation := false, payloadShift := 0 }
  semantic := .unsigned
  bitWidth := 8
  count := 1
  payload := leBytes 1 value

/-- The five required keys, each the one block of a key. -/
def metadataRegion : List UInt8 :=
  ModelMetadata.magic ++ leBytes 2 1 ++ leBytes 2 0 ++ leBytes 2 5 ++ leBytes 2 0 ++
    [⟨1, true, 20, 0⟩, ⟨2, true, 21, 0⟩, ⟨3, true, 22, 0⟩, ⟨4, true, 23, 0⟩,
      ⟨5, true, 24, 0⟩].flatMap ModelMetadata.entryBytes

/-- A vocabulary of one text, and optional roles. -/
def vocabularyRegion (optional : List TokenizerEntry) : List UInt8 :=
  magic ++ leBytes 2 version ++ leBytes 2 0 ++ leBytes 1 1 ++ leBytes 1 0 ++
    leBytes 2 (2 + optional.length) ++ leBytes 4 0 ++
    (⟨1, true, 25, 0⟩ :: ⟨2, true, 26, 0⟩ :: optional).flatMap entryBytes

/-- The blocks that a model opens with, for a directory of its tensors. -/
def modelCalls (directory : List UInt8) (optional : List TokenizerEntry) : List BlockWrite :=
  [TensorDirectory.arrayCall 0xF000 .opaqueBytes 8 tokenizerBootstrap.length tokenizerBootstrap,
   TensorDirectory.arrayCall 1 .opaqueBytes 8 metadataRegion.length metadataRegion,
   TensorDirectory.arrayCall 2 .opaqueBytes 8 directory.length directory,
   TensorDirectory.arrayCall 3 .opaqueBytes 8 (vocabularyRegion optional).length
     (vocabularyRegion optional),
   TensorDirectory.arrayCall 20 .opaqueBytes 8 5 (utf8 "qwen3"),
   scalarCall 21 1,
   scalarCall 22 1,
   scalarCall 23 1,
   scalarCall 24 1,
   TensorDirectory.arrayCall 25 .opaqueBytes 8 1 (utf8 "a"),
   TensorDirectory.arrayCall 26 .unsigned 64 2 (leBytes 8 0 ++ leBytes 8 1)]

/-- A vocabulary with texts, offsets and flags. -/
def flagsRegion : List UInt8 :=
  magic ++ leBytes 2 version ++ leBytes 2 0 ++ leBytes 1 1 ++ leBytes 1 0 ++ leBytes 2 3 ++
    leBytes 4 0 ++ [⟨1, true, 10, 0⟩, ⟨2, true, 11, 0⟩, ⟨15, false, 12, 0⟩].flatMap entryBytes

/-- An artifact with two tokens and their flags. -/
def flagsArtifactOf (bitWidth : Nat) (flags : List UInt8) : List UInt8 :=
  encodeStream 3 .knownSize
    [TensorDirectory.arrayCall 0xF000 .opaqueBytes 8 tokenizerBootstrap.length tokenizerBootstrap,
     TensorDirectory.arrayCall 1 .opaqueBytes 8 0 [],
     TensorDirectory.arrayCall 2 .opaqueBytes 8 0 [],
     TensorDirectory.arrayCall 3 .opaqueBytes 8 flagsRegion.length flagsRegion,
     TensorDirectory.arrayCall 10 .opaqueBytes 8 2 (utf8 "ab"),
     TensorDirectory.arrayCall 11 .unsigned 64 3 (leBytes 8 0 ++ leBytes 8 1 ++ leBytes 8 2),
     TensorDirectory.arrayCall 12 .unsigned bitWidth 2 flags]

/-- The parsed artifact with flags of one byte. -/
def byteFlagsView : Validated :=
  (parseV06 (flagsArtifactOf 8 [1, 2])).toOption.get (by decide +kernel)

/-- Its bootstrap. -/
def byteFlagsBootstrap : Bootstrap :=
  (Bootstrap.discover byteFlagsView).toOption.get (by decide +kernel)

/-- Its tokenizer. -/
def byteFlagsMetadata : TokenizerMetadata :=
  (parse byteFlagsView byteFlagsBootstrap).toOption.get (by decide +kernel)

/-- Flags of one byte are returned as they are stored. -/
theorem parse_usable_iff_byteFlags :
    Usable byteFlagsView byteFlagsMetadata ∧ byteFlagsMetadata.tokenFlagsAt 1 = some 2 := by
  refine ⟨(parse_usable_iff (eq_ok_get _ : parseV06 (flagsArtifactOf 8 [1, 2]) = .ok byteFlagsView)
    (eq_ok_get _)).2 ?_, by decide +kernel⟩
  intro range hrange
  have hpayload : ∀ range ∈ byteFlagsMetadata.tokenFlags,
      byteFlagsView.payloadRange 6 = .ok range := by
    decide +kernel
  refine ⟨byteFlagsView.blocks[6]?.get (by decide +kernel), ⟨⟨6, (Option.some_get _).symm,
    hpayload range hrange⟩, ?_, ?_, ?_⟩, Or.inl ?_⟩
  all_goals decide +kernel

/-- Two tokens whose flags are sixteen bits wide. -/
def flagsArtifact : List UInt8 := flagsArtifactOf 16 (leBytes 2 1 ++ leBytes 2 2)

/-- The parsed artifact. -/
def flagsView : Validated := (parseV06 flagsArtifact).toOption.get (by decide +kernel)

/-- Its bootstrap. -/
def flagsBootstrap : Bootstrap :=
  (Bootstrap.discover flagsView).toOption.get (by decide +kernel)

/-- Its tokenizer. -/
def flagsMetadata : TokenizerMetadata :=
  (parse flagsView flagsBootstrap).toOption.get (by decide +kernel)

/-- The range of its flags. -/
def flagsRange : CheckedRange := flagsMetadata.tokenFlags.get (by decide +kernel)

theorem flagsView_eq : parseV06 flagsArtifact = .ok flagsView := eq_ok_get _

theorem flagsMetadata_eq : parse flagsView flagsBootstrap = .ok flagsMetadata :=
  eq_ok_get _

/-- The second flag is stored as two, and returned as the high byte of the first. -/
theorem parse_wideFlags :
    parseV06 flagsArtifact = .ok flagsView ∧
      Bootstrap.discover flagsView = .ok flagsBootstrap ∧
      parse flagsView flagsBootstrap = .ok flagsMetadata ∧
      flagsMetadata.tokenFlagsAt 1 = some 0 ∧ ¬ Usable flagsView flagsMetadata := by
  have hread : flagsMetadata.tokenFlagsAt 1 = some 0 := by decide +kernel
  refine ⟨flagsView_eq, eq_ok_get _, flagsMetadata_eq, hread, fun husable => ?_⟩
  obtain ⟨block, hblock, hflags⟩ := husable.flags flagsRange (Option.some_get _).symm
  obtain ⟨hbytes, hwell⟩ := parseV06_eq_ok_iff.1 flagsView_eq
  rw [← hbytes] at hwell
  have hwidth := hblock.width_mem hwell
  have hlength := hblock.length_eq hwell hwidth
  have hfour : flagsRange.bytes.length = 4 := by decide +kernel
  have htwo : flagsMetadata.tokenCount = 2 := by decide +kernel
  have hstored : leAt flagsRange.bytes 2 2 = 2 := by decide +kernel
  rw [hfour, htwo] at hlength
  obtain ⟨flag, hflag, heq⟩ := hflags 1 (by omega)
  rw [hread, Option.some.injEq] at hflag
  rw [elementAt, show block.bitWidth / 8 = 2 by omega, Nat.one_mul, hstored, ← hflag] at heq
  exact absurd heq (by decide)

end VBuf.Ml.TokenizerMetadata
