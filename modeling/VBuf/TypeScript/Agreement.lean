import VBuf.TypeScript.ReaderSpec
import VBuf.TypeScript.Writer
import VBuf.V06.RoundTrip

/-!
# The TypeScript and Rust implementations agree

The readers agree on every input below `2 ^ 53` bytes but for one kind: a stream
whose last block ends so close to `2 ^ 53` that the next multiple of the base
step is not a safe integer.  The writers put the same canonical encoding into
the world, so whenever both accept a sequence of calls the bytes are equal.
-/

namespace VBuf.TypeScript

open VBuf.Lib VBuf.V06

/-! ### The readers -/

/-- Only the last next start can be unsafe: the others lie inside the input. -/
theorem safeBlocks_iff_of_sequence {mem : List UInt8} {header : Header} {required : Option UInt16}
    {start : Nat} {blocks : List V06.Block} (hend : header.dataRegionEnd < safeBound)
    (h : BlockSequence mem header required start blocks) :
    SafeBlocks blocks ↔ roundUp header.dataRegionEnd header.baseStep < safeBound := by
  induction h with
  | last hblock _ hends _ =>
      have hnext := hblock.nextBlockStart_aligned.eq_roundUp
      rw [hends] at hnext
      simp [SafeBlocks, hnext]
  | next _ _ hinside _ _ ih =>
      rw [safeBlocks_cons, ih]
      exact and_iff_right (Nat.lt_trans hinside hend)

theorem safeBlocks_iff {mem : List UInt8} {header : Header} {blocks : List V06.Block}
    (hmem : mem.length < safeBound) (h : WellFormed mem header blocks) :
    SafeBlocks blocks ↔ (blocks ≠ [] → roundUp mem.length header.baseStep < safeBound) := by
  have hend := h.global.dataRegionEnd_eq
  rcases h.region with ⟨-, rfl⟩ | hsequence
  · exact iff_of_true (List.forall_mem_nil _) (fun hne => absurd rfl hne)
  · have hne := hsequence.ne_nil
    have hiff := safeBlocks_iff_of_sequence (hend ▸ hmem) hsequence
    rw [hend] at hiff
    rw [hiff]
    exact ⟨fun hsafe _ => hsafe, fun himp => himp hne⟩

/-! ### The writers -/

namespace VBufV06Writer

/-- The bytes collected so far. -/
def bytes (w : VBufV06Writer) : List UInt8 := w.chunks.flatten

theorem offset_eq_ok_iff {w : VBufV06Writer} {position : Nat} :
    w.offset = .ok position ↔ position < safeBound ∧ position = w.bytes.length := by
  rw [offset, bytes, List.length_flatten]
  by_cases h : (w.chunks.map List.length).sum < safeBound
  · rw [if_pos h]
    constructor
    · intro heq
      obtain rfl := Except.ok.inj heq
      exact ⟨h, rfl⟩
    · intro heq
      rw [heq.2]
  · rw [if_neg h]
    refine iff_of_false (by intro heq; cases heq) ?_
    intro heq
    exact h (heq.2 ▸ heq.1)

@[simp] theorem push_bytes (w : VBufV06Writer) (chunk : List UInt8) :
    (w.push chunk).bytes = w.bytes ++ chunk := by
  simp [push, bytes]

/-- The padding that `padTo` computes leads to the next multiple. -/
theorem padding_eq {position alignment : Nat} (halign : 0 < alignment) :
    (alignment - position % alignment) % alignment = roundUp position alignment - position := by
  have hmod := Nat.mod_lt position halign
  have hdiv := Nat.div_add_mod position alignment
  rcases Nat.eq_zero_or_pos (position % alignment) with hzero | hpos
  · rw [roundUp_eq_self halign (Nat.dvd_of_mod_eq_zero hzero), hzero, Nat.sub_zero, Nat.mod_self,
      Nat.sub_self]
  · have hround : roundUp position alignment = position + (alignment - position % alignment) := by
      apply roundUp_eq_of_dvd
      · refine ⟨position / alignment + 1, ?_⟩
        rw [Nat.mul_add, Nat.mul_one]
        omega
      · omega
      · omega
    rw [hround, Nat.mod_eq_of_lt (by omega)]
    omega

/-- `padTo` appends zeros up to the next multiple and changes nothing else. -/
theorem padTo_bytes {w w' : VBufV06Writer} {alignment : Nat} (halign : 0 < alignment)
    (hpad : w.padTo alignment = .ok w') :
    w'.bytes = w.bytes ++
        List.replicate (roundUp w.bytes.length alignment - w.bytes.length) 0 ∧
      w' = { w with chunks := w'.chunks } := by
  simp only [padTo, bind_eq_ok_iff, offset_eq_ok_iff, pure_eq_ok_iff] at hpad
  obtain ⟨_, ⟨-, rfl⟩, rfl⟩ := hpad
  rw [padding_eq halign]
  by_cases hzero : roundUp w.bytes.length alignment - w.bytes.length = 0
  · simp [hzero]
  · rw [if_pos hzero]
    exact ⟨push_bytes _ _, rfl⟩

/-- What every writer satisfies between calls. -/
structure Inv (w : VBufV06Writer) : Prop where
  baseStep_eq : w.baseStep = 2 ^ w.baseShift
  aligned : w.baseStep ∣ w.dataRegionStart
  placed : w.blockCount = 0 → w.bytes.length = w.dataRegionStart

/-- The padding before a block: none before the first, which the header already
ends at a multiple of the base step. -/
theorem padToBlockStart_bytes {w w' : VBufV06Writer} (h : w.Inv)
    (hpad : w.padToBlockStart = .ok w') :
    w'.bytes = w.bytes ++
        List.replicate (roundUp w.bytes.length (2 ^ w.baseShift) - w.bytes.length) 0 ∧
      w' = { w with chunks := w'.chunks } := by
  have hpos : 0 < 2 ^ w.baseShift := Nat.two_pow_pos _
  unfold padToBlockStart at hpad
  by_cases hcount : 0 < w.blockCount
  · rw [if_pos hcount, h.baseStep_eq] at hpad
    exact padTo_bytes hpos hpad
  · rw [if_neg hcount, pure_eq_ok_iff] at hpad
    subst hpad
    have hlength := h.placed (by omega)
    have hround : roundUp w.bytes.length (2 ^ w.baseShift) = w.bytes.length := by
      apply roundUp_eq_self hpos
      rw [hlength, ← h.baseStep_eq]
      exact h.aligned
    rw [hround, Nat.sub_self]
    exact ⟨(List.append_nil _).symm, rfl⟩

/-- One accepted call appends the encoding of its block. -/
theorem writeBlock_bytes {w w' : VBufV06Writer} (h : w.Inv) {call : BlockWrite}
    (hwrite : w.writeBlock call = .ok w') :
    w'.Inv ∧ w'.baseShift = w.baseShift ∧ w'.indefinite = w.indefinite ∧
      w'.dataRegionStart = w.dataRegionStart ∧
      w'.bytes = w.bytes ++
        (List.replicate (roundUp w.bytes.length (2 ^ w.baseShift) - w.bytes.length) 0 ++
          (call.paddedHeader w.baseShift (roundUp w.bytes.length (2 ^ w.baseShift)) ++
            call.payload)) := by
  simp only [writeBlock, bind_eq_ok_iff, rejectIf_eq_ok_iff, pure_eq_ok_iff] at hwrite
  obtain ⟨-, -, -, -, -, -, -, -, bits, -, -, -, -, -, w₁, hgap, w₂, hheader, rfl⟩ := hwrite
  obtain ⟨hbytes₁, heq₁⟩ := padToBlockStart_bytes h hgap
  obtain ⟨hbytes₂, heq₂⟩ := padTo_bytes (Nat.two_pow_pos _) hheader
  have hshift : w₁.baseShift = w.baseShift := by rw [heq₁]
  have hround : w.bytes.length ≤ roundUp w.bytes.length (2 ^ w.baseShift) :=
    le_roundUp (Nat.two_pow_pos _)
  -- Where the header of this block ends.
  have hlength : (w₁.push (blockHeader call)).bytes.length =
      call.headerEnd (roundUp w.bytes.length (2 ^ w.baseShift)) := by
    rw [push_bytes, hbytes₁]
    simp only [List.length_append, List.length_replicate, BlockWrite.headerEnd,
      BlockWrite.headerBytes, blockHeader]
    omega
  rw [hlength, push_bytes, hbytes₁] at hbytes₂
  refine ⟨⟨?_, ?_, ?_⟩, ?_, ?_, ?_, ?_⟩
  · rw [heq₂, push, heq₁]
    exact h.baseStep_eq
  · rw [heq₂, push, heq₁]
    exact h.aligned
  · intro hcount
    cases hcount
  · rw [heq₂, push, heq₁]
    rfl
  · rw [heq₂, push, heq₁]
    rfl
  · rw [heq₂, push, heq₁]
    rfl
  · show (w₂.push call.payload).bytes = _
    rw [push_bytes, hbytes₂]
    simp only [BlockWrite.paddedHeader, BlockWrite.payloadStart, BlockWrite.combinedShift,
      BlockWrite.headerBytes, blockHeader, List.append_assoc]

/-- A run of accepted calls appends their encoding, by induction on the calls. -/
theorem writeBlocks_bytes {calls : List BlockWrite} {w w' : VBufV06Writer} (h : w.Inv)
    (hwrite : w.writeBlocks calls = .ok w') :
    w'.baseShift = w.baseShift ∧ w'.indefinite = w.indefinite ∧
      w'.dataRegionStart = w.dataRegionStart ∧
      w'.bytes = w.bytes ++ encodeBlocks w.baseShift w.bytes.length calls := by
  induction calls generalizing w with
  | nil =>
      obtain rfl := Except.ok.inj hwrite
      exact ⟨rfl, rfl, rfl, (List.append_nil _).symm⟩
  | cons call rest ih =>
      rw [writeBlocks, bind_eq_ok_iff] at hwrite
      obtain ⟨w₁, hblock, hrest⟩ := hwrite
      obtain ⟨hinv, hshift, hmode, hstart, hbytes⟩ := writeBlock_bytes h hblock
      obtain ⟨hshift', hmode', hstart', hbytes'⟩ := ih hinv hrest
      refine ⟨hshift'.trans hshift, hmode'.trans hmode, hstart'.trans hstart, ?_⟩
      -- The next block goes after this one's payload.
      have hlength : w₁.bytes.length =
          call.payloadEnd w.baseShift (roundUp w.bytes.length (2 ^ w.baseShift)) := by
        have hround : w.bytes.length ≤ roundUp w.bytes.length (2 ^ w.baseShift) :=
          le_roundUp (Nat.two_pow_pos _)
        have hend := call.lt_payloadEnd w.baseShift (roundUp w.bytes.length (2 ^ w.baseShift))
        rw [hbytes, List.length_append, List.length_append, BlockWrite.encoded_length,
          List.length_replicate]
        omega
      rw [hbytes', hlength, hshift, hbytes, encodeBlocks]
      simp only [List.append_assoc]

/-- The bytes of an accepted run are the canonical encoding. -/
theorem writeStream_eq_encodeStream {baseShift : Nat} {mode : StreamMode} {calls : List BlockWrite}
    {out : List UInt8}
    (hrun : writeStream baseShift (decide (mode = .indefinite)) calls = .ok out) :
    out = encodeStream baseShift mode calls := by
  simp only [writeStream, construct, finish, bind_eq_ok_iff, rejectIf_eq_ok_iff, pure_eq_ok_iff,
    alignUp_eq_ok_iff_alignsTo, offset_eq_ok_iff] at hrun
  obtain ⟨_, ⟨-, -, start, haligned, rfl⟩, w, hblocks, -, -, length, ⟨-, rfl⟩, rfl⟩ := hrun
  have hstart : start = dataStart baseShift := haligned.eq_roundUp
  subst hstart
  have hge := dataStart_ge baseShift
  have hheader : headerChunk baseShift (dataStart baseShift) (decide (mode = .indefinite)) =
      V06.Writer.headerBytes baseShift mode ++ List.replicate (dataStart baseShift - 24) 0 := by
    have hsplit : dataStart baseShift - 12 = 12 + (dataStart baseShift - 24) := by omega
    rw [headerChunk, hsplit, ← List.replicate_append_replicate, ← List.append_assoc]
    simp [V06.Writer.headerBytes, magic, version]
  generalize hfresh : (VBufV06Writer.mk [headerChunk baseShift (dataStart baseShift)
    (decide (mode = .indefinite))] baseShift (2 ^ baseShift) (dataStart baseShift)
    (decide (mode = .indefinite)) none 0) = fresh at hblocks
  have hfreshBytes : fresh.bytes = V06.Writer.headerBytes baseShift mode ++
      List.replicate (dataStart baseShift - 24) 0 := by
    rw [← hfresh, bytes, List.flatten_singleton, hheader]
  have hfreshLength : fresh.bytes.length = dataStart baseShift := by
    rw [hfreshBytes, List.length_append, V06.Writer.headerBytes_length, List.length_replicate]
    omega
  have hinv : fresh.Inv := by
    refine ⟨?_, ?_, fun _ => hfreshLength.trans ?_⟩ <;> subst hfresh
    · rfl
    · exact dvd_roundUp _ _
    · rfl
  obtain ⟨-, hmode, hregion, hbytes⟩ := writeBlocks_bytes hinv hblocks
  subst hfresh
  change w.indefinite = decide (mode = .indefinite) at hmode
  change w.dataRegionStart = dataStart baseShift at hregion
  rw [hfreshLength, hfreshBytes] at hbytes
  change w.bytes = _ ++ encodeBlocks baseShift (dataStart baseShift) calls at hbytes
  have hsize : w.bytes.length - dataStart baseShift =
      blocksEnd baseShift (dataStart baseShift) calls - dataStart baseShift := by
    rw [hbytes, blocksEnd_eq, List.length_append, ← hfreshBytes, hfreshLength]
  show (if w.indefinite then w.bytes else
    patch w.bytes 16 (leBytes 8 (w.bytes.length - w.dataRegionStart))) = _
  rw [hmode, hregion, hsize, hbytes, encodeStream, List.append_assoc, List.append_assoc]
  cases mode with
  | knownSize => exact V06.Writer.patch_headerBytes _ _ _
  | indefinite => rw [V06.Writer.headerBytes_indefinite]; rfl

end VBufV06Writer

/-! ### Agreement -/

/-- Below `2 ^ 53` bytes the constructor accepts what `parseV06` accepts, save a
stream of blocks whose length rounds up to an unsafe integer, and it shows the
same header and descriptors.  Both writers, where both accept, write the same
bytes. -/
theorem readers_and_writers_agree :
    (∀ mem : List UInt8, mem.length < safeBound →
      ((∃ view, VBufV06.construct mem = .ok view) ↔
        ∃ validated, parseV06 mem = .ok validated ∧
          (validated.blocks ≠ [] → roundUp mem.length validated.header.baseStep < safeBound)) ∧
      ∀ view validated, VBufV06.construct mem = .ok view → parseV06 mem = .ok validated →
        view = VBufV06.ofBlocks mem validated.header validated.blocks) ∧
    ∀ (inner sink : Sink) (baseShift : Nat) (mode : StreamMode) (calls : List BlockWrite)
      (out : List UInt8), V06.Writer.writeStream inner baseShift mode calls = .ok sink →
      VBufV06Writer.writeStream baseShift (decide (mode = .indefinite)) calls = .ok out →
      out = sink.data := by
  refine ⟨fun mem hmem => ⟨⟨?_, ?_⟩, ?_⟩, ?_⟩
  · intro haccepts
    obtain ⟨_, hview⟩ := haccepts
    obtain ⟨header, blocks, hwell, hsafe, rfl⟩ := (construct_eq_ok_iff hmem).1 hview
    exact ⟨⟨mem, header, blocks⟩, parseV06_eq_ok_iff.2 ⟨rfl, hwell⟩,
      (safeBlocks_iff hmem hwell).1 hsafe⟩
  · intro haccepts
    obtain ⟨validated, hparse, hround⟩ := haccepts
    have hwell := (parseV06_eq_ok_iff.1 hparse).2
    exact ⟨_, (construct_eq_ok_iff hmem).2
      ⟨_, _, hwell, (safeBlocks_iff hmem hwell).2 hround, rfl⟩⟩
  · intro view validated hview hparse
    obtain ⟨header, blocks, hwell, -, rfl⟩ := (construct_eq_ok_iff hmem).1 hview
    obtain ⟨hheader, hblocks⟩ := hwell.unique (parseV06_eq_ok_iff.1 hparse).2
    rw [hheader, hblocks]
  · intro inner sink baseShift mode calls out hrust hscript
    obtain ⟨-, -, -, hdata, -, -⟩ := V06.Writer.writeStream_eq_ok_iff.1 hrust
    rw [VBufV06Writer.writeStream_eq_encodeStream hscript, hdata]

/-- One block of opaque bytes. -/
def opaqueWrite (size : Nat) : BlockWrite where
  options := { keyId := 7, physical := .array, continuation := false, payloadShift := 0 }
  semantic := .opaqueBytes
  bitWidth := 8
  count := size
  payload := List.replicate size 0

/-- With an extended count its stream has a 40-byte header part. -/
theorem opaqueStream_wellFormed {size : Nat} (hlarge : 65535 < size) (hsize : size < 2 ^ 60) :
    (encodeStream 3 .indefinite [opaqueWrite size]).length = 40 + size ∧
      WellFormed (encodeStream 3 .indefinite [opaqueWrite size])
        (streamHeader 3 .indefinite (40 + size)) (layoutBlocks 3 24 [opaqueWrite size]) := by
  have hstart : dataStart 3 = 24 := by decide
  have hround : roundUp 24 (2 ^ 3) = 24 := by decide
  have hheader : (opaqueWrite size).headerEnd 24 = 40 := by
    have hlength := (opaqueWrite size).headerBytes_length
    rw [if_pos (show 65535 < (opaqueWrite size).count from hlarge)] at hlength
    rw [BlockWrite.headerEnd, hlength]
  have hshift : (opaqueWrite size).combinedShift 3 = 3 := rfl
  have hpayload : (opaqueWrite size).payloadStart 3 24 = 40 := by
    rw [BlockWrite.payloadStart, hheader, hshift]
    decide
  have hend : (opaqueWrite size).payloadEnd 3 24 = 40 + size := by
    rw [BlockWrite.payloadEnd, hpayload]
    exact congrArg (40 + ·) List.length_replicate
  have hlength : (encodeStream 3 .indefinite [opaqueWrite size]).length = 40 + size := by
    rw [encodeStream_length, hstart, blocksEnd, hround, hend, blocksEnd]
  have hencodable : Encodable 3 none (dataStart 3) [opaqueWrite size] := by
    refine ⟨⟨rfl, trivial, by rw [hshift]; decide, ?_, ?_, ?_⟩, ?_, ⟨by decide, ?_⟩, rfl⟩
    · show size * 8 < u64Bound
      unfold u64Bound
      omega
    · show size * 8 ≤ 8 * (List.replicate size (0 : UInt8)).length
      rw [List.length_replicate]
      omega
    · show 8 * (List.replicate size (0 : UInt8)).length < size * 8 + 8
      rw [List.length_replicate]
      omega
    · intro key hkey
      cases hkey
    · rw [hstart, hround, hheader, hshift]
      decide
  have hwell := encodeStream_wellFormed (by decide) (by
    rw [hlength]
    unfold u64Bound
    omega) hencodable
  rw [hlength, hstart] at hwell
  exact ⟨hlength, hwell⟩

/-- A stream of `2 ^ 53 - 1` bytes: its only block ends at a safe integer, the
next multiple of eight is not one. -/
def edgeStream : List UInt8 := encodeStream 3 .indefinite [opaqueWrite (2 ^ 53 - 41)]

theorem construct_rejects_edgeStream :
    edgeStream.length < safeBound ∧ (∃ validated, parseV06 edgeStream = .ok validated) ∧
      ¬ ∃ view, VBufV06.construct edgeStream = .ok view := by
  unfold edgeStream
  obtain ⟨hlength, hwell⟩ := @opaqueStream_wellFormed (2 ^ 53 - 41) (by decide) (by decide)
  have hmem : (encodeStream 3 .indefinite [opaqueWrite (2 ^ 53 - 41)]).length < safeBound := by
    rw [hlength]
    decide
  refine ⟨hmem, ⟨⟨_, _, _⟩, parseV06_eq_ok_iff.2 ⟨rfl, hwell⟩⟩, ?_⟩
  intro haccepts
  obtain ⟨_, hview⟩ := haccepts
  obtain ⟨header, blocks, hwell', hsafe, -⟩ := (construct_eq_ok_iff hmem).1 hview
  obtain ⟨hheader, hblocks⟩ := hwell.unique hwell'
  have hround := (safeBlocks_iff hmem hwell').1 hsafe (by
    rw [hblocks, layoutBlocks]
    exact List.cons_ne_nil _ _)
  rw [hlength, hheader] at hround
  exact absurd hround (by decide)

end VBuf.TypeScript
