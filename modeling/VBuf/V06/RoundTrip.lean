import VBuf.V06.EncodingGrammar
import VBuf.V06.Ranges
import VBuf.V06.WriterSpec

/-!
# Writer and reader undo each other

`parseV06` recovers the blocks of every finished writer, and a writer fed with
the descriptors of an accepted stream without extensions reproduces its bytes.
Both directions go through the encoding: the writer computes it and the grammar
is it.
-/

namespace VBuf.V06

open VBuf.Lib

/-- The reader's size mode as the writer's. -/
def streamMode (indefinite : Bool) : StreamMode := if indefinite then .indefinite else .knownSize

/-- The header of an encoded stream of `total` bytes. -/
def streamHeader (baseShift : Nat) (mode : StreamMode) (total : Nat) : Header where
  baseShift
  baseStep := 2 ^ baseShift
  indefinite := decide (mode = .indefinite)
  headerSize := 24
  dataRegionStart := dataStart baseShift
  dataRegionSize := total - dataStart baseShift
  dataRegionEnd := total

theorem holds_magic_iff {bytes : List UInt8} : Holds bytes 0 magic ↔ slice bytes 0 4 = magic :=
  Iff.rfl

/-- The encoded header, field by field. -/
theorem holds_encodeHeader_iff {bytes : List UInt8} {baseShift dataSize : Nat} {mode : StreamMode}
    (hlength : 24 ≤ bytes.length) (hshift : baseShift < 256 ^ 1) (hsize : dataSize < 256 ^ 8) :
    Holds bytes 0 (encodeHeader baseShift mode dataSize) ↔
      slice bytes 0 4 = magic ∧ leAt bytes 4 4 = version ∧ leAt bytes 8 1 = baseShift ∧
        leAt bytes 9 1 = (if mode = .indefinite then 1 else 0) ∧ leAt bytes 10 2 = 24 ∧
        leAt bytes 12 4 = 0 ∧ leAt bytes 16 8 = (if mode = .indefinite then 0 else dataSize) := by
  have hmagic : magic.length = 4 := rfl
  have hflag : (if mode = .indefinite then 1 else 0) < 256 ^ 1 := by split <;> decide
  have hsize' : (if mode = .indefinite then 0 else dataSize) < 256 ^ 8 := by
    split
    next => decide
    next => exact hsize
  simp only [encodeHeader, holds_append, holds_magic_iff, List.length_append, leBytes_length, hmagic,
    Nat.zero_add, Nat.reduceAdd, and_assoc]
  rw [holds_leBytes_iff (by omega) (by decide), holds_leBytes_iff (by omega) hshift,
    holds_leBytes_iff (by omega) hflag, holds_leBytes_iff (by omega) (by decide),
    holds_leBytes_iff (by omega) (by decide), holds_leBytes_iff (by omega) hsize']

theorem dataStart_le {baseShift : Nat} (hshift : baseShift ≤ 8) : dataStart baseShift ≤ 24 + 255 := by
  have hle := roundUp_le_add 24 (2 ^ baseShift)
  have hpow : 2 ^ baseShift ≤ 2 ^ 8 := Nat.pow_le_pow_right (by decide) hshift
  unfold dataStart
  omega

/-- What stands where in an encoded stream. -/
theorem encodeStream_holds (baseShift : Nat) (mode : StreamMode) (calls : List BlockWrite) :
    let bytes := encodeStream baseShift mode calls
    Holds bytes 0 (encodeHeader baseShift mode (bytes.length - dataStart baseShift)) ∧
      ZeroOn bytes 24 (dataStart baseShift) ∧
      bytes.drop (dataStart baseShift) = encodeBlocks baseShift (dataStart baseShift) calls := by
  have hge := dataStart_ge baseShift
  have hwhole : (encodeStream baseShift mode calls).drop 0 =
      encodeHeader baseShift mode ((encodeStream baseShift mode calls).length - dataStart baseShift) ++
        (List.replicate (dataStart baseShift - 24) 0 ++
          encodeBlocks baseShift (dataStart baseShift) calls) := by
    rw [List.drop_zero, encodeStream_length, encodeStream, List.append_assoc]
  obtain ⟨hheader, hrest⟩ := holds_of_drop_eq hwhole
  rw [encodeHeader_length, Nat.zero_add] at hrest
  obtain ⟨hzeros, hblocks⟩ := holds_of_drop_eq hrest
  refine ⟨hheader, (zeroOn_iff_holds hge).2 hzeros, ?_⟩
  have hsum : 24 + (List.replicate (dataStart baseShift - 24) (0 : UInt8)).length =
      dataStart baseShift := by
    rw [List.length_replicate]
    omega
  rwa [hsum] at hblocks

theorem encodeStream_globalHeader {baseShift : Nat} {mode : StreamMode} {calls : List BlockWrite}
    (hshift : 3 ≤ baseShift ∧ baseShift ≤ 8)
    (hlength : (encodeStream baseShift mode calls).length < u64Bound) :
    GlobalHeader (encodeStream baseShift mode calls)
      (streamHeader baseShift mode (encodeStream baseShift mode calls).length) := by
  have hge := dataStart_ge baseShift
  have hle := dataStart_le hshift.2
  have htotal : dataStart baseShift ≤ (encodeStream baseShift mode calls).length := by
    rw [encodeStream_length, blocksEnd_eq]
    exact Nat.le_add_right _ _
  obtain ⟨hheader, hzero, -⟩ := encodeStream_holds baseShift mode calls
  rw [holds_encodeHeader_iff (by omega) (by omega) (by rw [← u64Bound_eq]; omega)] at hheader
  obtain ⟨hmagic, hversion, hbase, hflags, hsize, hreserved, hdeclared⟩ := hheader
  refine
    { complete := by
        show 24 ≤ _
        omega
      magic_eq := hmagic
      version_eq := hversion
      baseShift_eq := hbase
      baseShift_ge := hshift.1
      baseShift_le := hshift.2
      baseStep_eq := rfl
      flags_eq := ?_
      headerSize_eq := hsize
      headerSize_ge := Nat.le_refl 24
      headerSize_dvd := by
        show 8 ∣ 24
        decide
      headerSize_le := by
        show 24 ≤ _
        omega
      reserved_eq := hreserved
      extensions := ExtensionRecords.done
      dataRegionStart_aligned := ⟨dvd_roundUp _ _, hge, roundUp_lt_add (Nat.two_pow_pos _), ?_⟩
      dataRegionStart_le := htotal
      padding_zero := hzero
      dataRegionEnd_eq := rfl
      dataRegionSize_eq := ?_
      declaredSize_eq := ?_ }
  · rw [hflags]
    show (if mode = .indefinite then 1 else 0) = (decide (mode = .indefinite)).toNat
    split
    next h => simp [h]
    next h => simp [h]
  · have hpow : 2 ^ baseShift ≤ 2 ^ 8 := Nat.pow_le_pow_right (by decide) hshift.2
    show 24 + (2 ^ baseShift - 1) < u64Bound
    unfold u64Bound
    omega
  · show dataStart baseShift + ((encodeStream baseShift mode calls).length - dataStart baseShift) =
      (encodeStream baseShift mode calls).length
    omega
  · rw [hdeclared]
    show _ = if decide (mode = .indefinite) = true then 0 else _
    by_cases hmode : mode = .indefinite
    · rw [if_pos hmode, if_pos (by simpa using hmode)]
    · rw [if_neg hmode, if_neg (by simpa using hmode)]
      rfl

/-- The encoding of encodable calls is well formed, with the laid-out blocks. -/
theorem encodeStream_wellFormed {baseShift : Nat} {mode : StreamMode} {calls : List BlockWrite}
    (hshift : 3 ≤ baseShift ∧ baseShift ≤ 8)
    (hlength : (encodeStream baseShift mode calls).length + (2 ^ baseShift - 1) < u64Bound)
    (hencodable : Encodable baseShift none (dataStart baseShift) calls) :
    WellFormed (encodeStream baseShift mode calls)
      (streamHeader baseShift mode (encodeStream baseShift mode calls).length)
      (layoutBlocks baseShift (dataStart baseShift) calls) := by
  have htotal : dataStart baseShift ≤ (encodeStream baseShift mode calls).length := by
    rw [encodeStream_length, blocksEnd_eq]
    exact Nat.le_add_right _ _
  obtain ⟨-, -, hdrop⟩ := encodeStream_holds baseShift mode calls
  refine ⟨by omega, encodeStream_globalHeader hshift (by omega), ?_⟩
  by_cases hcalls : calls = []
  · left
    subst hcalls
    refine ⟨?_, rfl⟩
    show (encodeStream baseShift mode []).length - dataStart baseShift = 0
    rw [encodeStream_length]
    exact Nat.sub_self _
  · right
    have hround : roundUp (dataStart baseShift) (2 ^ baseShift) = dataStart baseShift :=
      roundUp_eq_self (Nat.two_pow_pos _) (dvd_roundUp _ _)
    have hplain : PlainHeader (encodeStream baseShift mode calls)
        (streamHeader baseShift mode (encodeStream baseShift mode calls).length) baseShift :=
      ⟨rfl, rfl, rfl, rfl⟩
    have hsequence := blockSequence_of_encoded hplain hlength hcalls (Nat.le_refl _) htotal
      hencodable hdrop
    rwa [hround] at hsequence

/-- Everything a block says: the descriptor fields that a writer chooses, and
the payload. -/
structure BlockDescriptor where
  keyId : UInt16
  semantic : Semantic
  physical : Physical
  bitWidth : Nat
  continuation : Bool
  count : Nat
  payloadAlignment : Nat
  payload : List UInt8
  deriving DecidableEq, Repr

/-- What a call writes. -/
def BlockWrite.descriptor (baseShift : Nat) (call : BlockWrite) : BlockDescriptor where
  keyId := call.options.keyId
  semantic := call.semantic
  physical := call.options.physical
  bitWidth := call.bitWidth
  continuation := call.options.continuation
  count := call.count
  payloadAlignment := 2 ^ (baseShift + call.options.payloadShift)
  payload := call.payload

/-- What the reader reports, with the payload bytes of its range. -/
def Block.descriptor (bytes : List UInt8) (block : Block) : BlockDescriptor where
  keyId := block.keyId
  semantic := block.semantic
  physical := block.physical
  bitWidth := block.bitWidth
  continuation := block.continuation
  count := block.count
  payloadAlignment := block.payloadAlignment
  payload := slice bytes block.payloadStart block.payloadLen

/-- The laid-out blocks, read from the bytes that encode them, say what the
calls said. -/
theorem layoutBlocks_descriptor {bytes : List UInt8} {baseShift position : Nat}
    {calls : List BlockWrite}
    (hdrop : bytes.drop position = encodeBlocks baseShift position calls) :
    (layoutBlocks baseShift position calls).map (Block.descriptor bytes) =
      calls.map (BlockWrite.descriptor baseShift) := by
  induction calls generalizing position with
  | nil => rfl
  | cons call rest ih =>
      have hround : position ≤ roundUp position (2 ^ baseShift) := le_roundUp (Nat.two_pow_pos _)
      have hgrows := call.lt_payloadEnd baseShift (roundUp position (2 ^ baseShift))
      have hheader := call.headerEnd_le_payloadStart baseShift (roundUp position (2 ^ baseShift))
      rw [encodeBlocks, List.append_assoc] at hdrop
      have hdrop := (holds_of_drop_eq hdrop).2
      rw [List.length_replicate, Nat.add_sub_cancel' hround] at hdrop
      obtain ⟨hholds, hrest⟩ := holds_of_drop_eq hdrop
      rw [BlockWrite.encoded_length, Nat.add_sub_cancel' (by omega)] at hrest
      have hpayload := (holds_append.1 hholds).2
      have hpad : roundUp position (2 ^ baseShift) +
          (call.paddedHeader baseShift (roundUp position (2 ^ baseShift))).length =
            call.payloadStart baseShift (roundUp position (2 ^ baseShift)) := by
        unfold BlockWrite.paddedHeader
        rw [List.length_append, List.length_replicate]
        unfold BlockWrite.headerEnd at hheader ⊢
        omega
      rw [hpad] at hpayload
      rw [layoutBlocks, List.map_cons, List.map_cons, ih hrest]
      congr 1
      have hbytes : slice bytes (call.payloadStart baseShift (roundUp position (2 ^ baseShift)))
          call.payload.length = call.payload := hpayload
      simp only [Block.descriptor, BlockWrite.block, BlockWrite.descriptor, hbytes]
      rfl

/-- Decoding undoes encoding: the finished bytes of any run of successful calls
are accepted, and the reported blocks are the written ones in order. -/
theorem parseV06_writeStream {inner s : Sink} {baseShift : Nat} {mode : StreamMode}
    {calls : List BlockWrite} (hrun : Writer.writeStream inner baseShift mode calls = .ok s)
    (bytes : ByteSlice) (hbytes : bytes.toList = s.data) :
    ∃ validated, parseV06 bytes.toList = .ok validated ∧
      validated.header.baseShift = baseShift ∧
      validated.header.indefinite = decide (mode = .indefinite) ∧
      validated.blocks.map (Block.descriptor bytes.toList) =
        calls.map (BlockWrite.descriptor baseShift) := by
  obtain ⟨hshift, -, hencodable, hdata, -, -⟩ := Writer.writeStream_eq_ok_iff.1 hrun
  have heq : bytes.toList = encodeStream baseShift mode calls := hbytes.trans hdata
  have hlength := bytes.length_le
  rw [heq] at hlength ⊢
  have hpow : 2 ^ baseShift ≤ 2 ^ 8 := Nat.pow_le_pow_right (by decide) hshift.2
  have hwell := @encodeStream_wellFormed baseShift mode calls hshift (by
    unfold isizeMax at hlength
    unfold u64Bound
    omega) hencodable
  exact ⟨⟨_, _, _⟩, parseV06_eq_ok_iff.2 ⟨rfl, hwell⟩, rfl, rfl,
    layoutBlocks_descriptor (encodeStream_holds baseShift mode calls).2.2⟩

/-- The calls behind `exampleStream`. -/
def exampleWrites : List BlockWrite :=
  [{ options := { keyId := 7, physical := .array, continuation := false, payloadShift := 1 }
     semantic := .unsigned
     bitWidth := 16
     count := 2
     payload := [1, 0, 2, 0] },
   { options := { keyId := 9, physical := .array, continuation := false, payloadShift := 2 }
     semantic := .opaqueBytes
     bitWidth := 8
     count := 3
     payload := [1, 2, 3] }]

/-- An empty sink of 4096 bytes, and the same one after the run. -/
def exampleSink (data : List UInt8) (h : data.length ≤ 4096) : Sink where
  data
  position := data.length
  capacity := 4096
  length_le := h
  capacity_lt := by decide

theorem writeStream_exampleWrites :
    Writer.writeStream (exampleSink [] (by decide)) 3 .knownSize exampleWrites =
      .ok (exampleSink exampleStream.bytes (by decide)) := by
  refine Writer.writeStream_eq_ok_iff.2
    ⟨by decide, ⟨rfl, rfl⟩, ⟨?_, ?_, ?_, ?_, ?_, ?_, rfl⟩, ?_, rfl, rfl⟩
  · exact ⟨by decide, by decide, by decide, by decide, by decide, by decide⟩
  · intro key hkey
    cases hkey
  · exact ⟨by decide, by decide⟩
  · exact ⟨by decide, by decide, by decide, by decide, by decide, by decide⟩
  · intro key hkey
    cases hkey
  · exact ⟨by decide +kernel, by decide +kernel⟩
  · decide +kernel

theorem parseV06_writeStream_exampleWrites :
    ∃ validated, parseV06 exampleStream.bytes = .ok validated ∧
      validated.header.baseShift = 3 ∧
      validated.header.indefinite = decide (StreamMode.knownSize = .indefinite) ∧
      validated.blocks.map (Block.descriptor exampleStream.bytes) =
        exampleWrites.map (BlockWrite.descriptor 3) :=
  parseV06_writeStream writeStream_exampleWrites ⟨exampleStream.bytes, by decide⟩ rfl

/-! ### The encoding is canonical -/

/-- The calls read off an accepted stream. -/
def Validated.writes (validated : Validated) : List BlockWrite :=
  validated.blocks.map (Block.toWrite validated.bytes validated.header.baseShift)

/-- The header of a stream without extensions is the encoded one. -/
theorem GlobalHeader.holds_encodeHeader {bytes : List UInt8} {header : Header}
    (h : GlobalHeader bytes header) (hplain : header.headerSize = 24)
    (hlength : bytes.length < u64Bound) :
    header.dataRegionStart = dataStart header.baseShift ∧
      Holds bytes 0 (encodeHeader header.baseShift (streamMode header.indefinite)
        (bytes.length - dataStart header.baseShift)) := by
  have hstart : header.dataRegionStart = dataStart header.baseShift := by
    have haligned := h.dataRegionStart_aligned.eq_roundUp
    rw [hplain, h.baseStep_eq] at haligned
    exact haligned
  have hshift := h.baseShift_le
  have hend := h.dataRegionEnd_eq
  have hsize := h.dataRegionSize_eq
  have hregion : bytes.length - dataStart header.baseShift = header.dataRegionSize := by omega
  refine ⟨hstart, (holds_encodeHeader_iff h.complete (by omega)
    (by rw [← u64Bound_eq]; omega)).2 ⟨h.magic_eq, h.version_eq, h.baseShift_eq, ?_, ?_,
      h.reserved_eq, ?_⟩⟩
  · rw [h.flags_eq]
    cases header.indefinite <;> rfl
  · rw [h.headerSize_eq, hplain]
  · rw [h.declaredSize_eq, hregion]
    cases header.indefinite <;> rfl

/-- A stream without extensions is the encoding of its own descriptors. -/
theorem WellFormed.eq_encodeStream {validated : Validated}
    (h : WellFormed validated.bytes validated.header validated.blocks)
    (hplain : validated.header.headerSize = 24) :
    validated.bytes =
        encodeStream validated.header.baseShift (streamMode validated.header.indefinite)
          validated.writes ∧
      Encodable validated.header.baseShift none (dataStart validated.header.baseShift)
        validated.writes := by
  obtain ⟨hstart, hheader⟩ := h.global.holds_encodeHeader hplain h.length_lt
  have hge := dataStart_ge validated.header.baseShift
  have hend := h.global.dataRegionEnd_eq
  have hle := h.global.dataRegionStart_le
  have hsize := h.global.dataRegionSize_eq
  have hblocks : validated.bytes.drop (dataStart validated.header.baseShift) =
        encodeBlocks validated.header.baseShift (dataStart validated.header.baseShift)
          validated.writes ∧
      Encodable validated.header.baseShift none (dataStart validated.header.baseShift)
        validated.writes := by
    rcases h.region with ⟨hzero, hnil⟩ | hsequence
    · unfold Validated.writes
      rw [hnil]
      exact ⟨List.drop_eq_nil_of_le (by omega), rfl⟩
    · have hdvd := h.global.dataRegionStart_aligned.dvd
      have hround : roundUp (dataStart validated.header.baseShift) validated.header.baseStep =
          validated.header.dataRegionStart := by
        rw [← hstart]
        exact roundUp_eq_self h.global.baseStep_pos hdvd
      have hfits : dataStart validated.header.baseShift + (validated.header.baseStep - 1) <
          u64Bound := by
        have hsmall := dataStart_le h.global.baseShift_le
        have hpow : 2 ^ validated.header.baseShift ≤ 2 ^ 8 :=
          Nat.pow_le_pow_right (by decide) h.global.baseShift_le
        rw [h.global.baseStep_eq]
        unfold u64Bound
        omega
      obtain ⟨hdrop, hencodable, -⟩ := encoded_of_blockSequence h.global hsequence hround hfits
        (zeroOn_of_empty _ (Nat.le_of_eq hstart))
      exact ⟨hdrop, hencodable⟩
  refine ⟨?_, hblocks.2⟩
  have hpadding := h.global.padding_zero
  rw [hplain, hstart] at hpadding
  have hzeros := ((zeroOn_iff_holds hge).1 hpadding).drop_eq
  rw [List.length_replicate, Nat.add_sub_cancel' hge, hblocks.1] at hzeros
  have hwhole := hheader.drop_eq
  rw [encodeHeader_length, Nat.zero_add, hzeros, List.drop_zero] at hwhole
  have hlength : validated.bytes.length =
      blocksEnd validated.header.baseShift (dataStart validated.header.baseShift)
        validated.writes := by
    rw [blocksEnd_eq, ← hblocks.1, List.length_drop]
    omega
  rw [encodeStream, ← hlength, List.append_assoc]
  exact hwhole

/-- Two accepted streams without extensions, of the same base shift and size
mode, are equal as soon as their descriptors are. -/
theorem WellFormed.eq_of_descriptors {v v' : Validated}
    (h : WellFormed v.bytes v.header v.blocks) (h' : WellFormed v'.bytes v'.header v'.blocks)
    (hplain : v.header.headerSize = 24) (hplain' : v'.header.headerSize = 24)
    (hshift : v'.header.baseShift = v.header.baseShift)
    (hmode : v'.header.indefinite = v.header.indefinite)
    (hblocks : v'.blocks.map (Block.descriptor v'.bytes) =
      v.blocks.map (Block.descriptor v.bytes)) : v'.bytes = v.bytes := by
  -- A descriptor determines the call.
  have hcall : ∀ (bytes : List UInt8) (block : Block),
      block.toWrite bytes v.header.baseShift =
        (fun d : BlockDescriptor =>
          ({ options := ⟨d.keyId, d.physical, d.continuation,
              Nat.log2 d.payloadAlignment - v.header.baseShift⟩
             semantic := d.semantic
             bitWidth := d.bitWidth
             count := d.count
             payload := d.payload } : BlockWrite)) (block.descriptor bytes) :=
    fun _ _ => rfl
  have hwrites : v'.writes = v.writes := by
    unfold Validated.writes
    rw [hshift]
    have hmapped := congrArg (List.map fun d : BlockDescriptor =>
      ({ options := ⟨d.keyId, d.physical, d.continuation,
          Nat.log2 d.payloadAlignment - v.header.baseShift⟩
         semantic := d.semantic
         bitWidth := d.bitWidth
         count := d.count
         payload := d.payload } : BlockWrite)) hblocks
    rw [List.map_map, List.map_map] at hmapped
    exact hmapped
  rw [(h.eq_encodeStream hplain).1, (h'.eq_encodeStream hplain').1, hwrites, hshift, hmode]

/-- The encoding is canonical: a writer with the parsed base shift and size mode
takes the parsed descriptors in order, with the bytes of their payload ranges,
and reproduces the input; so the descriptors leave no byte of it open. -/
theorem writeStream_parseV06 {bytes : List UInt8} {validated : Validated}
    (hparse : parseV06 bytes = .ok validated) (hplain : validated.header.headerSize = 24) :
    (∀ inner : Sink, inner.position = 0 → inner.data = [] → bytes.length ≤ inner.capacity →
      ∃ s, Writer.writeStream inner validated.header.baseShift
          (streamMode validated.header.indefinite) validated.writes = .ok s ∧ s.data = bytes) ∧
      (∀ index call range, validated.writes[index]? = some call →
        validated.payloadRange index = .ok range → call.payload = range.bytes) ∧
      ∀ bytes' validated', parseV06 bytes' = .ok validated' →
        validated'.header.headerSize = 24 →
        validated'.header.baseShift = validated.header.baseShift →
        validated'.header.indefinite = validated.header.indefinite →
        validated'.blocks.map (Block.descriptor bytes') =
          validated.blocks.map (Block.descriptor bytes) → bytes' = bytes := by
  obtain ⟨rfl, hwell⟩ := parseV06_eq_ok_iff.1 hparse
  obtain ⟨hbytes, hencodable⟩ := hwell.eq_encodeStream hplain
  refine ⟨?_, ?_, ?_⟩
  · intro inner hposition hdata hcapacity
    have hempty : inner.data.length = 0 := by rw [hdata]; rfl
    obtain ⟨s, happends⟩ := @ByteSink.exists_appends _ inner validated.bytes (by omega)
    have hsdata : s.data = validated.bytes := by
      rw [happends.data_eq, hdata, List.nil_append]
    exact ⟨s, Writer.writeStream_eq_ok_iff.2
      ⟨⟨hwell.global.baseShift_ge, hwell.global.baseShift_le⟩, ⟨hposition, hdata⟩, hencodable,
        hsdata.trans hbytes, happends.atEnd, happends.capacity_eq⟩, hsdata⟩
  · intro index call range hcall hrange
    rw [Validated.writes, List.getElem?_map, Option.map_eq_some_iff] at hcall
    obtain ⟨block, hget, rfl⟩ := hcall
    have hblock := hwell.blockAt (List.mem_of_getElem? hget)
    exact (Validated.payloadRange_bytes hget hblock.payloadEnd_eq hrange).symm
  · intro bytes' validated' hparse' hplain' hshift hmode hblocks
    obtain ⟨rfl, hwell'⟩ := parseV06_eq_ok_iff.1 hparse'
    exact hwell.eq_of_descriptors hwell' hplain hplain' hshift hmode hblocks

theorem writeStream_parseV06_exampleStream :
    (∀ inner : Sink, inner.position = 0 → inner.data = [] →
      exampleStream.bytes.length ≤ inner.capacity →
      ∃ s, Writer.writeStream inner exampleStream.header.baseShift
          (streamMode exampleStream.header.indefinite) exampleStream.writes = .ok s ∧
        s.data = exampleStream.bytes) ∧
      (∀ index call range, exampleStream.writes[index]? = some call →
        exampleStream.payloadRange index = .ok range → call.payload = range.bytes) ∧
      ∀ bytes' validated', parseV06 bytes' = .ok validated' →
        validated'.header.headerSize = 24 →
        validated'.header.baseShift = exampleStream.header.baseShift →
        validated'.header.indefinite = exampleStream.header.indefinite →
        validated'.blocks.map (Block.descriptor bytes') =
          exampleStream.blocks.map (Block.descriptor exampleStream.bytes) →
        bytes' = exampleStream.bytes :=
  writeStream_parseV06 parseV06_exampleStream rfl

end VBuf.V06
