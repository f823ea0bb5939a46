import VBuf.V06.Encoding
import VBuf.V06.ParseGrammar

/-!
# The encoding is the grammar with `HeaderSize` 24

An encodable call list yields a well-formed stream whose blocks are the laid-out
descriptors; conversely every well-formed stream without header extensions is
the encoding of the calls read off its descriptors.
-/

namespace VBuf.V06

open VBuf.Lib

theorem holds_leBytes_iff {bytes : List UInt8} {offset width value : Nat}
    (hfits : offset + width ≤ bytes.length) (hvalue : value < 256 ^ width) :
    Holds bytes offset (leBytes width value) ↔ leAt bytes offset width = value := by
  constructor
  · intro h
    exact leAt_of_holds h hvalue
  · intro h
    subst h
    unfold Holds leAt
    rw [leBytes_length, leBytes_ofLeBytes_of_length (slice_length_of_le hfits)]

namespace BlockWrite

theorem Valid.anchorFields_fits {baseShift : Nat} {call : BlockWrite} (h : call.Valid baseShift) :
    (Writer.anchorFields call).Fits := by
  have hwidth : call.bitWidth ≤ 64 := by
    have hlegal := h.legalWidth
    cases hs : call.semantic <;> rw [hs] at hlegal <;> simp [Semantic.LegalWidth] at hlegal <;> omega
  have hshift := h.combinedShift_le
  unfold combinedShift at hshift
  refine ⟨call.semantic.code_lt, call.options.physical.code_lt, ?_, call.options.keyId.toNat_lt,
    ?_, ?_⟩
  · show call.options.payloadShift < 2 ^ 6
    omega
  · show call.bitWidth < 2 ^ 16
    omega
  · show (if 65535 < call.count then 0 else call.count) < 2 ^ 16
    split <;> omega

theorem Valid.bitWidth_pos {baseShift : Nat} {call : BlockWrite} (h : call.Valid baseShift) :
    0 < call.bitWidth := by
  have hlegal := h.legalWidth
  cases hs : call.semantic <;> rw [hs] at hlegal <;> simp [Semantic.LegalWidth] at hlegal <;> omega

/-- The packed anchor of a valid call holds the fields of its descriptor. -/
theorem Valid.anchorMatches {baseShift start : Nat} {call : BlockWrite} {header : Header}
    (h : call.Valid baseShift) (hheader : header.baseShift = baseShift) :
    AnchorMatches header (call.block baseShift start) (Writer.anchorFields call).pack := by
  have hunpack := AnchorFields.unpack_pack h.anchorFields_fits
  rw [unpack_eq_bitField] at hunpack
  have hfields := AnchorFields.mk.inj hunpack
  obtain ⟨hsemantic, hphysical, hcontinuation, hcount64, hshift, hkey, hwidth, hinline⟩ := hfields
  have hcombined : V06.combinedShift header (Writer.anchorFields call).pack =
      call.combinedShift baseShift := by
    unfold V06.combinedShift combinedShift
    rw [hshift, hheader]
  refine
    { anchor_ne := ?_
      semantic_eq := hsemantic
      physical_eq := hphysical
      continuation_eq := bit_eq_toNat_iff.2 hcontinuation
      count64_eq := ?_
      combinedShift_le := ?_
      payloadAlignment_eq := ?_
      keyId_eq := hkey
      bitWidth_eq := hwidth
      inlineCount_eq := hinline }
  · -- A legal width is not zero, and neither is the anchor that holds it.
    intro hzero
    rw [hzero] at hwidth
    have hbits : call.bitWidth = 0 := hwidth.symm.trans (by decide)
    exact absurd hbits h.bitWidth_pos.ne'
  · rw [bit_eq_ite_iff]
    exact hcount64
  · rw [hcombined]
    exact h.combinedShift_le
  · rw [hcombined]
    rfl

/-- The bytes of a block: anchor, extended count, padding and payload. -/
theorem holds_encoded_iff {bytes : List UInt8} {baseShift start : Nat} {call : BlockWrite}
    (hvalid : call.Valid baseShift) (hfits : call.payloadEnd baseShift start ≤ bytes.length) :
    Holds bytes start (call.paddedHeader baseShift start ++ call.payload) ↔
      leAt bytes start 8 = (Writer.anchorFields call).pack ∧
        (65535 < call.count → leAt bytes (start + 8) 8 = call.count) ∧
        ZeroOn bytes (call.headerEnd start) (call.payloadStart baseShift start) ∧
        slice bytes (call.payloadStart baseShift start) call.payload.length = call.payload := by
  have hheader := call.headerEnd_le_payloadStart baseShift start
  have hlength := call.headerBytes_length
  have hpad : start + (call.headerBytes ++ List.replicate (call.payloadStart baseShift start -
      call.headerEnd start) 0).length = call.payloadStart baseShift start := by
    rw [List.length_append, List.length_replicate]
    unfold headerEnd at hheader ⊢
    omega
  have hpack : (Writer.anchorFields call).pack < 256 ^ 8 := by
    rw [← u64Bound_eq]
    exact AnchorFields.pack_lt hvalid.anchorFields_fits
  have hbytes : call.payloadStart baseShift start ≤ bytes.length := by
    unfold payloadEnd at hfits
    omega
  rw [holds_append, paddedHeader, hpad, holds_append, zeroOn_iff_holds hheader]
  unfold headerEnd at hheader ⊢
  have hcount : Holds bytes start call.headerBytes ↔
      leAt bytes start 8 = (Writer.anchorFields call).pack ∧
        (65535 < call.count → leAt bytes (start + 8) 8 = call.count) := by
    have hanchor := @holds_leBytes_iff bytes start 8 _
      (by split at hlength <;> omega) hpack
    unfold headerBytes
    rw [holds_append, hanchor, leBytes_length]
    refine and_congr_right fun _ => ?_
    by_cases hlarge : 65535 < call.count
    · have hbits := hvalid.payloadBits_lt
      have hsmall : call.count < 256 ^ 8 := by
        rw [← u64Bound_eq]
        refine Nat.lt_of_le_of_lt (Nat.le_mul_of_pos_right _ ?_) hbits
        exact hvalid.bitWidth_pos
      rw [if_pos hlarge] at hlength ⊢
      rw [holds_leBytes_iff (by omega) hsmall]
      simp [hlarge]
    · rw [if_neg hlarge]
      exact iff_of_true (holds_nil _ _) fun h => absurd h hlarge
  rw [hcount, and_assoc, and_assoc]
  rfl

end BlockWrite

/-! ### One block -/

/-- Encoded bytes at a canonical start are the canonical block. -/
theorem BlockWrite.blockAt {bytes : List UInt8} {header : Header} {baseShift start : Nat}
    {call : BlockWrite} (hvalid : call.Valid baseShift) (hshift : header.baseShift = baseShift)
    (hstep : header.baseStep = 2 ^ baseShift) (hend : header.dataRegionEnd = bytes.length)
    (hge : header.dataRegionStart ≤ start) (hdvd : 2 ^ baseShift ∣ start - header.dataRegionStart)
    (hfits : call.headerEnd start + (2 ^ call.combinedShift baseShift - 1) < u64Bound)
    (hinside : call.payloadEnd baseShift start ≤ bytes.length)
    (hnext : call.payloadEnd baseShift start + (2 ^ baseShift - 1) < u64Bound)
    (hholds : Holds bytes start (call.paddedHeader baseShift start ++ call.payload)) :
    BlockAt bytes header (call.block baseShift start) := by
  obtain ⟨hanchor, hcount, hzero, -⟩ := (call.holds_encoded_iff hvalid hinside).1 hholds
  have hheader := call.headerEnd_le_payloadStart baseShift start
  have hheaderEnd : (call.block baseShift start).headerEnd = call.headerEnd start := by
    unfold Block.headerEnd BlockWrite.headerEnd
    rw [call.headerBytes_length]
    rfl
  have hle : call.payloadStart baseShift start ≤ call.payloadEnd baseShift start :=
    Nat.le_add_right _ _
  refine
    { start_ge := hge
      start_dvd := by rwa [hstep]
      headerEnd_le := ?_
      anchor := ?_
      extendedCount := hcount
      legalWidth := hvalid.legalWidth
      legalCount := hvalid.legalCount
      payloadStart_aligned := ?_
      padding_zero := by rwa [hheaderEnd]
      payloadBits_lt := hvalid.payloadBits_lt
      payloadLen_ge := hvalid.payload_ge
      payloadLen_lt := hvalid.payload_lt
      payloadEnd_eq := rfl
      payloadEnd_le := by rwa [hend]
      nextBlockStart_aligned := ?_ }
  · rw [hheaderEnd, hend]
    omega
  · show AnchorMatches header _ (leAt bytes start 8)
    rw [hanchor]
    exact hvalid.anchorMatches hshift
  · rw [hheaderEnd]
    exact ⟨dvd_roundUp _ _, hheader, roundUp_lt_add (Nat.two_pow_pos _), hfits⟩
  · rw [hstep]
    exact ⟨dvd_roundUp _ _, le_roundUp (Nat.two_pow_pos _), roundUp_lt_add (Nat.two_pow_pos _),
      hnext⟩

/-- The call that a descriptor stands for: its fields, and the payload bytes of
its range. -/
def Block.toWrite (bytes : List UInt8) (baseShift : Nat) (block : Block) : BlockWrite where
  options :=
    { keyId := block.keyId
      physical := block.physical
      continuation := block.continuation
      payloadShift := Nat.log2 block.payloadAlignment - baseShift }
  semantic := block.semantic
  bitWidth := block.bitWidth
  count := block.count
  payload := slice bytes block.payloadStart block.payloadLen

section Descriptor

variable {bytes : List UInt8} {header : Header} {block : Block}

theorem BlockAt.combinedShift_toWrite (h : BlockAt bytes header block) :
    (block.toWrite bytes header.baseShift).combinedShift header.baseShift =
      combinedShift header (leAt bytes block.blockStart 8) := by
  show header.baseShift + (Nat.log2 block.payloadAlignment - header.baseShift) = _
  rw [h.anchor.payloadAlignment_eq, Nat.log2_two_pow]
  unfold combinedShift
  omega

theorem BlockAt.payload_length (h : BlockAt bytes header block)
    (hend : header.dataRegionEnd = bytes.length) :
    (block.toWrite bytes header.baseShift).payload.length = block.payloadLen := by
  have hle := h.payloadEnd_le
  have hpayload := h.payloadEnd_eq
  exact slice_length_of_le (by omega)

theorem BlockAt.toWrite_valid (h : BlockAt bytes header block)
    (hend : header.dataRegionEnd = bytes.length) :
    (block.toWrite bytes header.baseShift).Valid header.baseShift := by
  refine ⟨h.legalWidth, h.legalCount, ?_, h.payloadBits_lt, ?_, ?_⟩
  · rw [h.combinedShift_toWrite]
    exact h.anchor.combinedShift_le
  · rw [h.payload_length hend]
    exact h.payloadLen_ge
  · rw [h.payload_length hend]
    exact h.payloadLen_lt

/-- The anchor word of a canonical block is the packed one. -/
theorem BlockAt.anchor_eq_pack (h : BlockAt bytes header block) :
    leAt bytes block.blockStart 8 =
      (Writer.anchorFields (block.toWrite bytes header.baseShift)).pack := by
  have ha := h.anchor
  have hlt : leAt bytes block.blockStart 8 < u64Bound := by
    rw [u64Bound_eq]
    exact leAt_lt
  rw [← AnchorFields.pack_unpack hlt]
  congr 1
  rw [unpack_eq_bitField, ha.semantic_eq, ha.physical_eq, ha.keyId_eq, ha.bitWidth_eq,
    ha.inlineCount_eq, bit_eq_toNat_iff.1 ha.continuation_eq, bit_eq_ite_iff.1 ha.count64_eq]
  have hshift : bitField (leAt bytes block.blockStart 8) 10 6 =
      Nat.log2 block.payloadAlignment - header.baseShift := by
    rw [ha.payloadAlignment_eq, Nat.log2_two_pow]
    unfold combinedShift
    omega
  rw [hshift]
  rfl

theorem BlockAt.headerEnd_toWrite (_ : BlockAt bytes header block) :
    (block.toWrite bytes header.baseShift).headerEnd block.blockStart = block.headerEnd := by
  unfold Block.headerEnd BlockWrite.headerEnd
  rw [BlockWrite.headerBytes_length]
  rfl

theorem BlockAt.payloadStart_toWrite (h : BlockAt bytes header block) :
    (block.toWrite bytes header.baseShift).payloadStart header.baseShift block.blockStart =
      block.payloadStart := by
  rw [BlockWrite.payloadStart, h.headerEnd_toWrite, h.combinedShift_toWrite,
    ← h.anchor.payloadAlignment_eq]
  exact h.payloadStart_aligned.eq_roundUp.symm

theorem BlockAt.payloadEnd_toWrite (h : BlockAt bytes header block)
    (hend : header.dataRegionEnd = bytes.length) :
    (block.toWrite bytes header.baseShift).payloadEnd header.baseShift block.blockStart =
      block.payloadEnd := by
  rw [BlockWrite.payloadEnd, h.payloadStart_toWrite, h.payload_length hend, h.payloadEnd_eq]

/-- Laying the call out again gives the descriptor back. -/
theorem BlockAt.block_toWrite (h : BlockAt bytes header block)
    (hglobal : GlobalHeader bytes header) :
    (block.toWrite bytes header.baseShift).block header.baseShift block.blockStart = block := by
  have hend := hglobal.dataRegionEnd_eq
  have hnext := h.nextBlockStart_aligned.eq_roundUp
  rw [hglobal.baseStep_eq] at hnext
  unfold BlockWrite.block
  rw [h.payloadStart_toWrite, h.payloadEnd_toWrite hend, h.payload_length hend,
    h.combinedShift_toWrite, ← h.anchor.payloadAlignment_eq, ← hnext]
  rfl

/-- A canonical block is the encoding of its call. -/
theorem BlockAt.holds_encoded (h : BlockAt bytes header block)
    (hend : header.dataRegionEnd = bytes.length) :
    Holds bytes block.blockStart
      ((block.toWrite bytes header.baseShift).paddedHeader header.baseShift block.blockStart ++
        (block.toWrite bytes header.baseShift).payload) := by
  have hle := h.payloadEnd_le
  rw [BlockWrite.holds_encoded_iff (h.toWrite_valid hend) (by
    rw [h.payloadEnd_toWrite hend]
    omega), h.headerEnd_toWrite, h.payloadStart_toWrite, h.payload_length hend]
  exact ⟨h.anchor_eq_pack, h.extendedCount, h.padding_zero, rfl⟩

end Descriptor

/-! ### Block sequences -/

/-- The fixed parts of a header without extensions. -/
structure PlainHeader (bytes : List UInt8) (header : Header) (baseShift : Nat) : Prop where
  baseShift_eq : header.baseShift = baseShift
  baseStep_eq : header.baseStep = 2 ^ baseShift
  dataRegionStart_eq : header.dataRegionStart = dataStart baseShift
  dataRegionEnd_eq : header.dataRegionEnd = bytes.length

/-- Encoded calls at the end of a stream are a block sequence. -/
theorem blockSequence_of_encoded {bytes : List UInt8} {header : Header} {baseShift : Nat}
    (hplain : PlainHeader bytes header baseShift)
    (hlength : bytes.length + (2 ^ baseShift - 1) < u64Bound) {calls : List BlockWrite}
    (hcalls : calls ≠ []) {required : Option UInt16} {position : Nat}
    (hposition : dataStart baseShift ≤ position) (hle : position ≤ bytes.length)
    (hencodable : Encodable baseShift required position calls)
    (hdrop : bytes.drop position = encodeBlocks baseShift position calls) :
    BlockSequence bytes header required (roundUp position (2 ^ baseShift))
      (layoutBlocks baseShift position calls) := by
  induction calls generalizing required position with
  | nil => exact absurd rfl hcalls
  | cons call rest ih =>
      obtain ⟨hvalid, hkey, hfits, hrest⟩ := hencodable
      have hround : position ≤ roundUp position (2 ^ baseShift) := le_roundUp (Nat.two_pow_pos _)
      have hgrows := call.lt_payloadEnd baseShift (roundUp position (2 ^ baseShift))
      rw [encodeBlocks, List.append_assoc] at hdrop
      obtain ⟨hgap, hdrop⟩ := holds_of_drop_eq hdrop
      have hgapEnd : position + (List.replicate (roundUp position (2 ^ baseShift) - position)
          (0 : UInt8)).length = roundUp position (2 ^ baseShift) := by
        rw [List.length_replicate]
        omega
      rw [hgapEnd] at hdrop
      have hstart : roundUp position (2 ^ baseShift) ≤ bytes.length := by
        have hlen := hgap.length_le hle
        omega
      obtain ⟨hholds, hdrop⟩ := holds_of_drop_eq hdrop
      have hblockEnd : roundUp position (2 ^ baseShift) +
          (call.paddedHeader baseShift (roundUp position (2 ^ baseShift)) ++ call.payload).length =
            call.payloadEnd baseShift (roundUp position (2 ^ baseShift)) := by
        rw [BlockWrite.encoded_length]
        omega
      rw [hblockEnd] at hdrop
      have hinside : call.payloadEnd baseShift (roundUp position (2 ^ baseShift)) ≤
          bytes.length := by
        have hlen := hholds.length_le hstart
        omega
      have hblock : BlockAt bytes header
          (call.block baseShift (roundUp position (2 ^ baseShift))) := by
        have hregion := hplain.dataRegionStart_eq
        refine BlockWrite.blockAt hvalid hplain.baseShift_eq hplain.baseStep_eq
          hplain.dataRegionEnd_eq (by omega) ?_ hfits.payload_fits hinside (by omega) hholds
        rw [hregion]
        exact Nat.dvd_sub (dvd_roundUp _ _) (dvd_roundUp _ _)
      rw [layoutBlocks]
      cases rest with
      | nil =>
          have hnil : bytes.length ≤ call.payloadEnd baseShift (roundUp position (2 ^ baseShift)) :=
            List.drop_eq_nil_iff.1 hdrop
          refine BlockSequence.last hblock hkey ?_ ?_
          · rw [hplain.dataRegionEnd_eq]
            exact Nat.le_antisymm hinside hnil
          · -- `finish` required an ended chain.
            have hclosed : call.continuationKey = none := hrest
            unfold BlockWrite.continuationKey at hclosed
            show call.options.continuation = false
            by_contra hopen
            rw [if_pos (Bool.eq_true_of_not_eq_false hopen)] at hclosed
            cases hclosed
      | cons second rest =>
          have htail := ih (by simp) (by omega) hinside hrest hdrop
          have hgap' := hdrop
          rw [encodeBlocks, List.append_assoc] at hgap'
          refine BlockSequence.next hblock hkey ?_ ?_ htail
          · exact htail.start_lt
          · exact (zeroOn_iff_holds (le_roundUp (Nat.two_pow_pos _))).2 (holds_of_drop_eq hgap').1

/-- A block sequence is the encoding of its calls, behind any zero gap that
leads to its start. -/
theorem encoded_of_blockSequence {bytes : List UInt8} {header : Header}
    (hglobal : GlobalHeader bytes header) {required : Option UInt16} {start position : Nat}
    {blocks : List Block} (hsequence : BlockSequence bytes header required start blocks)
    (hstart : roundUp position header.baseStep = start)
    (hfits : position + (header.baseStep - 1) < u64Bound) (hgap : ZeroOn bytes position start) :
    let calls := blocks.map (Block.toWrite bytes header.baseShift)
    bytes.drop position = encodeBlocks header.baseShift position calls ∧
      Encodable header.baseShift required position calls ∧
      layoutBlocks header.baseShift position calls = blocks := by
  have hend := hglobal.dataRegionEnd_eq
  have hstep := hglobal.baseStep_eq
  -- One block with its gap, from the position that precedes it.
  have hone : ∀ {position start : Nat} {block : Block}, BlockAt bytes header block →
      block.blockStart = start → roundUp position header.baseStep = start →
      position + (header.baseStep - 1) < u64Bound → ZeroOn bytes position start →
      (block.toWrite bytes header.baseShift).FitsAt header.baseShift position ∧
        bytes.drop position = List.replicate (start - position) 0 ++
          ((block.toWrite bytes header.baseShift).paddedHeader header.baseShift start ++
            (block.toWrite bytes header.baseShift).payload) ++ bytes.drop block.payloadEnd := by
    rintro position _ block hblock rfl hstart hfits hgap
    have hle : position ≤ block.blockStart := by
      rw [← hstart]
      exact le_roundUp hglobal.baseStep_pos
    have hadvance := hblock.advances
    have hblockEnd : block.blockStart +
        ((block.toWrite bytes header.baseShift).paddedHeader header.baseShift block.blockStart ++
          (block.toWrite bytes header.baseShift).payload).length = block.payloadEnd := by
      rw [BlockWrite.encoded_length, hblock.payloadEnd_toWrite hend]
      omega
    have hdropGap := ((zeroOn_iff_holds hle).1 hgap).drop_eq
    have hgapEnd : position + (List.replicate (block.blockStart - position) (0 : UInt8)).length =
        block.blockStart := by
      rw [List.length_replicate]
      omega
    have hdropBlock := (hblock.holds_encoded hend).drop_eq
    rw [hgapEnd] at hdropGap
    rw [hblockEnd] at hdropBlock
    refine ⟨⟨by rwa [← hstep], ?_⟩, ?_⟩
    · rw [← hstep, hstart, hblock.headerEnd_toWrite, hblock.combinedShift_toWrite,
        ← hblock.anchor.payloadAlignment_eq]
      exact hblock.payloadStart_aligned.fits
    · rw [hdropGap, hdropBlock]
      simp only [List.append_assoc]
  induction hsequence generalizing position with
  | @last required block hblock hrule hends hclosed =>
      obtain ⟨hfitsAt, hdrop⟩ := hone hblock rfl hstart hfits hgap
      have hnil : bytes.drop block.payloadEnd = [] := List.drop_eq_nil_of_le (by omega)
      rw [hnil, List.append_nil] at hdrop
      have hround : roundUp position (2 ^ header.baseShift) = block.blockStart := by
        rw [← hstep, hstart]
      refine ⟨?_, ⟨hblock.toWrite_valid hend, hrule, hfitsAt, ?_⟩, ?_⟩
      · simp only [List.map, encodeBlocks, hround, List.append_nil]
        exact hdrop
      · show BlockWrite.continuationKey _ = none
        unfold BlockWrite.continuationKey
        exact if_neg (by
          show ¬ block.continuation = true
          rw [hclosed]
          decide)
      · simp only [List.map, layoutBlocks, hround, hblock.block_toWrite hglobal]
  | @next required block rest hblock hrule hinside hzero htail ih =>
      obtain ⟨hfitsAt, hdrop⟩ := hone hblock rfl hstart hfits hgap
      have hround : roundUp position (2 ^ header.baseShift) = block.blockStart := by
        rw [← hstep, hstart]
      have hnext := hblock.nextBlockStart_aligned
      obtain ⟨hdropRest, hencodable, hlayout⟩ := ih hnext.eq_roundUp.symm hnext.fits hzero
      refine ⟨?_, ⟨hblock.toWrite_valid hend, hrule, hfitsAt, ?_⟩, ?_⟩
      · simp only [List.map, encodeBlocks, hround, hblock.payloadEnd_toWrite hend]
        rw [hdrop, hdropRest]
      · rw [hround, hblock.payloadEnd_toWrite hend]
        exact hencodable
      · simp only [List.map, layoutBlocks, hround, hblock.payloadEnd_toWrite hend,
          hblock.block_toWrite hglobal]
        rw [hlayout]

end VBuf.V06
