import VBuf.Layout.Range
import VBuf.Lib.Tiling
import VBuf.V06.ParseGrammar

/-!
# Block and payload ranges of a validated stream

`block_range` ends where the next block starts, not where its own bytes end.
The block sequence that the reader accepted makes these ranges tile the data
region, with every payload inside its own tile.
-/

namespace VBuf.V06

open VBuf.Lib VBuf.Layout

/-- `range_error`. -/
def rangeError (error : RangeError) : Error :=
  let code : ErrorCode :=
    match error with
    | .invalidAlignment | .misaligned => .misaligned
    | .outsideMapping | .outsideParent | .hostIndexOverflow => .lengthMismatch
    | .overflow | .endBeforeStart => .arithmeticOverflow
  Error.global code "checked physical range is invalid"

/-- `make_checked_range`. -/
def makeCheckedRange (bytes : List UInt8) (start stop : Nat) : Except Error CheckedRange := do
  let range ← mapErr rangeError (ByteRange.fromEnd start stop)
  mapErr rangeError (CheckedRange.fromMapping bytes range)

namespace Validated

/-- `ValidatedV06::block_range`. -/
def blockRange (validated : Validated) (index : Nat) : Except Error CheckedRange := do
  let block ← okOr validated.blocks[index]? (Error.global .notFound "block index not found")
  let stop :=
    if block.payloadEnd = validated.header.dataRegionEnd then block.payloadEnd
    else block.nextBlockStart
  makeCheckedRange validated.bytes block.blockStart stop

/-- `ValidatedV06::payload_range`. -/
def payloadRange (validated : Validated) (index : Nat) : Except Error CheckedRange := do
  let block ← okOr validated.blocks[index]? (Error.global .notFound "block index not found")
  makeCheckedRange validated.bytes block.payloadStart block.payloadEnd

/-- `ValidatedV06::payload_subrange`. -/
def payloadSubrange (validated : Validated) (index relativeOffset length : Nat) :
    Except Error CheckedRange := do
  let payload ← validated.payloadRange index
  mapErr rangeError (payload.refine relativeOffset length)

end Validated

theorem makeCheckedRange_eq_ok_iff {bytes : List UInt8} {start stop : Nat} {checked : CheckedRange} :
    makeCheckedRange bytes start stop = .ok checked ↔
      checked.mapping = bytes ∧ checked.offset = start ∧ checked.stop = stop := by
  simp only [makeCheckedRange, bind_eq_ok_iff, mapErr_eq_ok_iff, ByteRange.fromEnd_eq_ok_iff,
    CheckedRange.fromMapping_eq_ok_iff]
  constructor
  · rintro ⟨range, ⟨hoffset, hstop⟩, hmapping, rfl⟩
    exact ⟨hmapping, hoffset, hstop⟩
  · rintro ⟨hmapping, hoffset, hstop⟩
    exact ⟨_, ⟨hoffset, hstop⟩, hmapping, rfl⟩

/-- A range inside the mapping can be made. -/
theorem exists_makeCheckedRange {bytes : List UInt8} {start stop : Nat}
    (hlength : bytes.length < u64Bound) (hle : start ≤ stop) (hstop : stop ≤ bytes.length) :
    ∃ checked, makeCheckedRange bytes start stop = .ok checked := by
  refine ⟨⟨bytes, ⟨start, stop - start, by omega⟩, ?_⟩, makeCheckedRange_eq_ok_iff.2 ⟨rfl, rfl, ?_⟩⟩
  · unfold ByteRange.stop
    show start + (stop - start) ≤ bytes.length
    omega
  · show start + (stop - start) = stop
    omega

/-- Where `block_range` ends. -/
def Block.rangeEnd (header : Header) (block : Block) : Nat :=
  if block.payloadEnd = header.dataRegionEnd then block.payloadEnd else block.nextBlockStart

/-- The block ranges of a sequence tile the rest of the data region. -/
theorem BlockSequence.tiles {bytes : List UInt8} {header : Header} {required : Option UInt16}
    {start : Nat} {blocks : List Block} (h : BlockSequence bytes header required start blocks) :
    Tiles Block.blockStart (Block.rangeEnd header) start header.dataRegionEnd blocks := by
  induction h with
  | @last required block hblock _ hends _ =>
      obtain ⟨hfirst, hsecond, -⟩ := hblock.advances
      have hrange : block.rangeEnd header = header.dataRegionEnd := by
        rw [Block.rangeEnd, if_pos hends, hends]
      rw [← hrange]
      exact Tiles.singleton (by omega)
  | @next required block rest hblock _ hinside _ _ ih =>
      obtain ⟨hfirst, hsecond, hthird⟩ := hblock.advances
      have hrange : block.rangeEnd header = block.nextBlockStart := by
        rw [Block.rangeEnd, if_neg (by omega)]
      refine Tiles.cons rfl (by omega) ?_
      rw [hrange]
      exact ih

theorem BlockSequence.blockAt {bytes : List UInt8} {header : Header} {required : Option UInt16}
    {start : Nat} {blocks : List Block} (h : BlockSequence bytes header required start blocks)
    {block : Block} (hmem : block ∈ blocks) : BlockAt bytes header block := by
  induction h with
  | last hblock _ _ _ =>
      rw [List.mem_singleton] at hmem
      rwa [hmem]
  | next hblock _ _ _ _ ih =>
      rcases List.mem_cons.1 hmem with rfl | hrest
      · exact hblock
      · exact ih hrest

namespace WellFormed

variable {bytes : List UInt8} {header : Header} {blocks : List Block}

/-- The blocks of a stream tile its data region. -/
theorem tiles (h : WellFormed bytes header blocks) :
    Tiles Block.blockStart (Block.rangeEnd header) header.dataRegionStart header.dataRegionEnd
      blocks := by
  have hsize := h.global.dataRegionSize_eq
  rcases h.region with ⟨hzero, rfl⟩ | hsequence
  · have hempty : header.dataRegionStart = header.dataRegionEnd := by omega
    rw [hempty]
    exact Tiles.nil _
  · exact hsequence.tiles

theorem blockAt (h : WellFormed bytes header blocks) {block : Block} (hmem : block ∈ blocks) :
    BlockAt bytes header block := by
  rcases h.region with ⟨-, rfl⟩ | hsequence
  · cases hmem
  · exact hsequence.blockAt hmem

/-- The payload lies inside the tile of its block. -/
theorem payload_inside (h : WellFormed bytes header blocks) {block : Block} (hmem : block ∈ blocks) :
    block.blockStart ≤ block.payloadStart ∧ block.payloadStart ≤ block.payloadEnd ∧
      block.payloadEnd ≤ block.rangeEnd header := by
  obtain ⟨hfirst, hsecond, hthird⟩ := (h.blockAt hmem).advances
  refine ⟨by omega, hsecond, ?_⟩
  unfold Block.rangeEnd
  split <;> omega

end WellFormed

namespace Validated

/-- The reported block ranges tile the data region: each block has one, they
increase without gap or overlap, and a position is in the data region exactly
when one of them holds it. -/
structure TilesDataRegion (validated : Validated) : Prop where
  reported : ∀ index < validated.blocks.length, ∃ range, validated.blockRange index = .ok range
  nonempty : ∀ {index range}, validated.blockRange index = .ok range → range.offset < range.stop
  first : ∀ {range}, validated.blockRange 0 = .ok range →
    range.offset = validated.header.dataRegionStart
  consecutive : ∀ {index range next}, validated.blockRange index = .ok range →
    validated.blockRange (index + 1) = .ok next → range.stop = next.offset
  increasing : ∀ {i j range range'}, i < j → validated.blockRange i = .ok range →
    validated.blockRange j = .ok range' → range.stop ≤ range'.offset
  last : ∀ {index range}, index + 1 = validated.blocks.length →
    validated.blockRange index = .ok range → range.stop = validated.header.dataRegionEnd
  union : ∀ position,
    (validated.header.dataRegionStart ≤ position ∧ position < validated.header.dataRegionEnd) ↔
      ∃ index range, validated.blockRange index = .ok range ∧
        range.offset ≤ position ∧ position < range.stop

/-- Every payload range lies in its block range, at its alignment. -/
def PayloadsInside (validated : Validated) : Prop :=
  ∀ index block, validated.blocks[index]? = some block →
    ∃ range payload, validated.blockRange index = .ok range ∧
      validated.payloadRange index = .ok payload ∧ range.offset ≤ payload.offset ∧
      payload.stop ≤ range.stop ∧ payload.offset % block.payloadAlignment = 0

/-- Every successful `payload_subrange` followed by `refine` calls ends inside
the payload, at the summed offset: it is the one sub-range taken there. -/
def ChainsStayInside (validated : Validated) : Prop :=
  ∀ index payload relativeOffset length first chain child,
    validated.payloadRange index = .ok payload →
    validated.payloadSubrange index relativeOffset length = .ok first →
    first.refineChain chain = .ok child →
      (payload.offset ≤ child.offset ∧ child.stop ≤ payload.stop) ∧
        validated.payloadSubrange index (relativeOffset + CheckedRange.totalOffset chain)
          child.length = .ok child ∧
        child.length = CheckedRange.finalLength length chain ∧
        child.bytes = slice payload.bytes (relativeOffset + CheckedRange.totalOffset chain)
          child.length

theorem blockRange_eq_ok_iff {validated : Validated} {index : Nat} {range : CheckedRange} :
    validated.blockRange index = .ok range ↔
      ∃ block, validated.blocks[index]? = some block ∧ range.mapping = validated.bytes ∧
        range.offset = block.blockStart ∧ range.stop = block.rangeEnd validated.header := by
  simp only [blockRange, bind_eq_ok_iff, okOr_eq_ok_iff, makeCheckedRange_eq_ok_iff]
  rfl

theorem payloadRange_eq_ok_iff {validated : Validated} {index : Nat} {range : CheckedRange} :
    validated.payloadRange index = .ok range ↔
      ∃ block, validated.blocks[index]? = some block ∧ range.mapping = validated.bytes ∧
        range.offset = block.payloadStart ∧ range.stop = block.payloadEnd := by
  simp only [payloadRange, bind_eq_ok_iff, okOr_eq_ok_iff, makeCheckedRange_eq_ok_iff]

/-- The bytes of a payload range are the payload of its block. -/
theorem payloadRange_bytes {validated : Validated} {index : Nat} {block : Block}
    {range : CheckedRange} (hblock : validated.blocks[index]? = some block)
    (hlen : block.payloadEnd = block.payloadStart + block.payloadLen)
    (hrange : validated.payloadRange index = .ok range) :
    range.bytes = slice validated.bytes block.payloadStart block.payloadLen := by
  obtain ⟨block', hblock', hmapping, hoffset, hstop⟩ := payloadRange_eq_ok_iff.1 hrange
  rw [hblock] at hblock'
  cases hblock'
  have hlength : range.length = block.payloadLen := by
    have hsum : range.offset + range.length = range.stop := rfl
    omega
  rw [CheckedRange.bytes, hmapping, hoffset, hlength]

end Validated

theorem WellFormed.tilesDataRegion {validated : Validated}
    (h : WellFormed validated.bytes validated.header validated.blocks) :
    validated.TilesDataRegion := by
  have htiles := h.tiles
  have hend := h.global.dataRegionEnd_eq
  have hlength := h.length_lt
  constructor
  case reported =>
    intro index hindex
    have hget : validated.blocks[index]? = some validated.blocks[index] :=
      List.getElem?_eq_getElem hindex
    have hmem := List.mem_of_getElem? hget
    obtain ⟨hstart, hpayload, hinside⟩ := h.payload_inside hmem
    have hbounds := htiles.bounds hmem
    obtain ⟨range, hrange⟩ := @exists_makeCheckedRange validated.bytes
      (validated.blocks[index]).blockStart ((validated.blocks[index]).rangeEnd validated.header)
      hlength (by omega) (by omega)
    exact ⟨range, Validated.blockRange_eq_ok_iff.2
      ⟨_, hget, makeCheckedRange_eq_ok_iff.1 hrange⟩⟩
  case nonempty =>
    intro index range hrange
    obtain ⟨block, hget, -, hoffset, hstop⟩ := Validated.blockRange_eq_ok_iff.1 hrange
    have hmem := List.mem_of_getElem? hget
    obtain ⟨hfirst, hsecond, -⟩ := (h.blockAt hmem).advances
    obtain ⟨-, -, hinside⟩ := h.payload_inside hmem
    omega
  case first =>
    intro range hrange
    obtain ⟨block, hget, -, hoffset, -⟩ := Validated.blockRange_eq_ok_iff.1 hrange
    have hne : validated.blocks ≠ [] := by
      intro hnil
      rw [hnil] at hget
      cases hget
    have hhead : validated.blocks.head hne = block := by
      rw [List.head_eq_getElem]
      exact (List.getElem?_eq_some_iff.1 hget).2
    rw [hoffset, ← (htiles.head_last hne).1, hhead]
  case consecutive =>
    intro index range next hrange hnext
    obtain ⟨block, hget, -, -, hstop⟩ := Validated.blockRange_eq_ok_iff.1 hrange
    obtain ⟨block', hget', -, hoffset, -⟩ := Validated.blockRange_eq_ok_iff.1 hnext
    rw [hstop, hoffset]
    exact htiles.consecutive hget hget'
  case increasing =>
    intro i j range range' hij hrange hrange'
    obtain ⟨block, hget, -, -, hstop⟩ := Validated.blockRange_eq_ok_iff.1 hrange
    obtain ⟨block', hget', -, hoffset, -⟩ := Validated.blockRange_eq_ok_iff.1 hrange'
    obtain ⟨hi, rfl⟩ := List.getElem?_eq_some_iff.1 hget
    obtain ⟨hj, rfl⟩ := List.getElem?_eq_some_iff.1 hget'
    rw [hstop, hoffset]
    exact List.pairwise_iff_getElem.1 htiles.pairwise i j hi hj hij
  case last =>
    intro index range hindex hrange
    obtain ⟨block, hget, -, -, hstop⟩ := Validated.blockRange_eq_ok_iff.1 hrange
    obtain ⟨hi, rfl⟩ := List.getElem?_eq_some_iff.1 hget
    have hne : validated.blocks ≠ [] := List.ne_nil_of_length_pos (by omega)
    have hlast : validated.blocks.getLast hne = validated.blocks[index] := by
      rw [List.getLast_eq_getElem]
      congr 1
      omega
    rw [hstop, ← (htiles.head_last hne).2, hlast]
  case union =>
    intro position
    rw [htiles.covers position]
    constructor
    · rintro ⟨block, hmem, hle, hlt⟩
      obtain ⟨index, hindex, rfl⟩ := List.getElem_of_mem hmem
      have hbounds := htiles.bounds hmem
      obtain ⟨range, hrange⟩ := @exists_makeCheckedRange validated.bytes
        (validated.blocks[index]).blockStart
        ((validated.blocks[index]).rangeEnd validated.header) hlength (by omega) (by omega)
      have hspec := makeCheckedRange_eq_ok_iff.1 hrange
      refine ⟨index, range, Validated.blockRange_eq_ok_iff.2
        ⟨_, List.getElem?_eq_getElem hindex, hspec⟩, ?_, ?_⟩
      · rw [hspec.2.1]
        exact hle
      · rw [hspec.2.2]
        exact hlt
    · rintro ⟨index, range, hrange, hle, hlt⟩
      obtain ⟨block, hget, -, hoffset, hstop⟩ := Validated.blockRange_eq_ok_iff.1 hrange
      rw [hoffset] at hle
      rw [hstop] at hlt
      exact ⟨block, List.mem_of_getElem? hget, hle, hlt⟩

theorem WellFormed.payloadsInside {validated : Validated}
    (h : WellFormed validated.bytes validated.header validated.blocks) :
    validated.PayloadsInside := by
  intro index block hget
  have hmem := List.mem_of_getElem? hget
  have hend := h.global.dataRegionEnd_eq
  obtain ⟨hstart, hpayload, hinside⟩ := h.payload_inside hmem
  have hbounds := h.tiles.bounds hmem
  have hblock := h.blockAt hmem
  have hpayloadEnd := hblock.payloadEnd_le
  obtain ⟨range, hrange⟩ := @exists_makeCheckedRange validated.bytes block.blockStart
    (block.rangeEnd validated.header) h.length_lt (by omega) (by omega)
  obtain ⟨payload, hpay⟩ := @exists_makeCheckedRange validated.bytes block.payloadStart
    block.payloadEnd h.length_lt (by omega) (by omega)
  have hspec := makeCheckedRange_eq_ok_iff.1 hrange
  have hspec' := makeCheckedRange_eq_ok_iff.1 hpay
  refine ⟨range, payload, Validated.blockRange_eq_ok_iff.2 ⟨block, hget, hspec⟩,
    Validated.payloadRange_eq_ok_iff.2 ⟨block, hget, hspec'⟩, ?_, ?_, ?_⟩
  · rw [hspec.2.1, hspec'.2.1]
    exact hstart
  · rw [hspec.2.2, hspec'.2.2]
    exact hinside
  · rw [hspec'.2.1]
    exact Nat.mod_eq_zero_of_dvd hblock.payloadStart_aligned.dvd

theorem Validated.chainsStayInside (validated : Validated) : validated.ChainsStayInside := by
  intro index payload relativeOffset length first chain child hpayload hfirst hchain
  simp only [payloadSubrange, bind_eq_ok_iff, mapErr_eq_ok_iff, hpayload, Except.ok.injEq] at hfirst ⊢
  obtain ⟨_, rfl, hrefine⟩ := hfirst
  obtain ⟨hmapping, hoffset, hlength, hinside⟩ := CheckedRange.refine_eq_ok_iff.1 hrefine
  obtain ⟨hmapping', hoffset', hlength', hinside'⟩ := CheckedRange.refineChain_eq_ok hchain
  have hsum : child.offset = payload.offset + (relativeOffset + CheckedRange.totalOffset chain) := by
    omega
  have hfits : relativeOffset + CheckedRange.totalOffset chain + child.length ≤ payload.length := by
    omega
  refine ⟨⟨by omega, ?_⟩, ⟨payload, rfl, CheckedRange.refine_eq_ok_iff.2
    ⟨hmapping'.trans hmapping, hsum, rfl, hfits⟩⟩, ?_, ?_⟩
  · show child.offset + child.length ≤ payload.offset + payload.length
    omega
  · rw [hlength', hlength]
  · exact CheckedRange.bytes_of_inside (hmapping'.trans hmapping) hsum hfits

/-- Ranges of an accepted stream: the block ranges tile the data region, each
payload lies aligned in its tile, and refinement never leaves a payload. -/
theorem parseV06_ranges {bytes : List UInt8} {validated : Validated}
    (hparse : parseV06 bytes = .ok validated) :
    validated.TilesDataRegion ∧ validated.PayloadsInside ∧ validated.ChainsStayInside := by
  obtain ⟨rfl, hwell⟩ := parseV06_eq_ok_iff.1 hparse
  exact ⟨hwell.tilesDataRegion, hwell.payloadsInside, validated.chainsStayInside⟩

/-- A 67-byte stream: two 16-bit words under key 7, aligned to 16, and behind four bytes
of padding three opaque bytes under key 9, aligned to 32. -/
def exampleStream : Validated where
  bytes :=
    [0x56, 0x42, 0x55, 0x46, 0, 0, 6, 0, 3, 0, 24, 0, 0, 0, 0, 0, 43, 0, 0, 0, 0, 0, 0, 0,
      0x10, 4, 7, 0, 16, 0, 2, 0, 1, 0, 2, 0, 0, 0, 0, 0,
      0x13, 8, 9, 0, 8, 0, 3, 0] ++ List.replicate 16 0 ++ [1, 2, 3]
  header :=
    { baseShift := 3
      baseStep := 8
      indefinite := false
      headerSize := 24
      dataRegionStart := 24
      dataRegionSize := 43
      dataRegionEnd := 67 }
  blocks :=
    [{ blockStart := 24
       payloadStart := 32
       payloadLen := 4
       payloadEnd := 36
       nextBlockStart := 40
       keyId := 7
       semantic := .unsigned
       physical := .array
       continuation := false
       bitWidth := 16
       count := 2
       payloadAlignment := 16 },
     { blockStart := 40
       payloadStart := 64
       payloadLen := 3
       payloadEnd := 67
       nextBlockStart := 72
       keyId := 9
       semantic := .opaqueBytes
       physical := .array
       continuation := false
       bitWidth := 8
       count := 3
       payloadAlignment := 32 }]

theorem parseV06_exampleStream : parseV06 exampleStream.bytes = .ok exampleStream := by
  decide +kernel

theorem parseV06_ranges_exampleStream :
    exampleStream.TilesDataRegion ∧ exampleStream.PayloadsInside ∧ exampleStream.ChainsStayInside :=
  parseV06_ranges parseV06_exampleStream

end VBuf.V06
