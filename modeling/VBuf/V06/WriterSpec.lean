import VBuf.V06.Encoding

/-!
# The writer computes the encoding

One lemma per stage of `writeBlock` says when it succeeds and what it appends;
together they show that a finished writer holds `encodeStream` of its calls.
-/

namespace VBuf.V06

open VBuf.Lib

namespace Writer

theorem checkedAdd_eq_ok_iff {a b r : Nat} :
    checkedAdd a b = .ok r ↔ a + b < u64Bound ∧ r = a + b := by
  unfold checkedAdd
  by_cases h : a + b < u64Bound <;> simp [h, eq_comm]

theorem checkedMul_eq_ok_iff {a b r : Nat} :
    checkedMul a b = .ok r ↔ a * b < u64Bound ∧ r = a * b := by
  unfold checkedMul
  by_cases h : a * b < u64Bound <;> simp [h, eq_comm]

/-- The writer's alignment rounds up whenever the checked sum is a `u64`. -/
theorem alignUp_eq_ok_iff {value shift r : Nat} (hshift : shift ≤ 63) :
    alignUp value (2 ^ shift) = .ok r ↔
      value + (2 ^ shift - 1) < u64Bound ∧ r = roundUp value (2 ^ shift) := by
  simp only [alignUp, bind_eq_ok_iff, checkedAdd_eq_ok_iff, pure_eq_ok_iff]
  constructor
  · rintro ⟨_, ⟨hfits, rfl⟩, rfl⟩
    exact ⟨hfits, and_complement64_eq_roundUp (by omega) hfits⟩
  · rintro ⟨hfits, rfl⟩
    exact ⟨_, ⟨hfits, rfl⟩, and_complement64_eq_roundUp (by omega) hfits⟩

/-- The chunked zero writer is one write of zeros. -/
theorem writeZeros_eq {s : Sink} (h : s.AtEnd) (count : Nat) :
    writeZeros count s = ByteSink.writeAll (List.replicate count 0) s := by
  induction count using Nat.strongRecOn generalizing s with
  | ind count ih =>
      rw [writeZeros]
      split
      next hpos =>
        have hsplit : List.replicate count (0 : UInt8) =
            List.replicate (min count 4096) 0 ++ List.replicate (count - min count 4096) 0 := by
          rw [List.replicate_append_replicate]
          congr 1
          omega
        rw [hsplit, ← ByteSink.writeAll_append h]
        show EStateM.bind _ _ s = EStateM.bind _ _ s
        unfold EStateM.bind
        cases hfirst : ByteSink.writeAll (List.replicate (min count 4096) 0) s with
        | ok u t =>
            have hend := ((ByteSink.writeAll_eq_ok_iff h).1 hfirst).atEnd
            exact ih _ (by omega) hend
        | error u t => rfl
      next hzero =>
        have hcount : count = 0 := by omega
        subst hcount
        exact ((ByteSink.writeAll_eq_ok_iff h).2 (ByteSink.Appends.refl h)).symm

theorem onInner_eq_ok_iff {action : EStateM Unit Sink Unit} {w w' : Writer} :
    onInner action w = .ok () w' ↔ ∃ s, action w.inner = .ok () s ∧ w' = w.withInner s := by
  unfold onInner
  cases action w.inner with
  | ok u s => simp [eq_comm]
  | error u s => simp

theorem onInner_eq_error {action : EStateM Unit Sink Unit} {w w' : Writer} {e : WriterError}
    (h : onInner action w = .error e w') : e = .io .sink := by
  unfold onInner at h
  cases haction : action w.inner with
  | ok u s =>
      rw [haction] at h
      cases h
  | error u s =>
      rw [haction] at h
      cases h
      rfl

/-- A write through the writer appends to its sink. -/
theorem onInner_writeAll_eq_ok_iff {w w' : Writer} (h : w.inner.AtEnd) {bytes : List UInt8} :
    onInner (ByteSink.writeAll bytes) w = .ok () w' ↔
      ∃ s, w.inner.Appends bytes s ∧ w' = w.withInner s := by
  simp only [onInner_eq_ok_iff, ByteSink.writeAll_eq_ok_iff h]

theorem onInner_writeZeros_eq_ok_iff {w w' : Writer} (h : w.inner.AtEnd) {count : Nat} :
    onInner (writeZeros count) w = .ok () w' ↔
      ∃ s, w.inner.Appends (List.replicate count 0) s ∧ w' = w.withInner s := by
  simp only [onInner_eq_ok_iff, writeZeros_eq h, ByteSink.writeAll_eq_ok_iff h]

@[simp] theorem withInner_inner (w : Writer) (s : Sink) : (w.withInner s).inner = s := rfl

@[simp] theorem withInner_baseShift (w : Writer) (s : Sink) :
    (w.withInner s).baseShift = w.baseShift := rfl

@[simp] theorem withInner_blocksWritten (w : Writer) (s : Sink) :
    (w.withInner s).blocksWritten = w.blocksWritten := rfl

@[simp] theorem withInner_self (w : Writer) : w.withInner w.inner = w := rfl

/-- What holds of a writer from `new` on, whatever its calls returned. -/
structure Inv (w : Writer) : Prop where
  baseShift_ge : 3 ≤ w.baseShift
  baseShift_le : w.baseShift ≤ 8
  baseStep_eq : w.baseStep = 2 ^ w.baseShift
  dataRegionStart_eq : w.dataRegionStart = dataStart w.baseShift
  atEnd : w.inner.AtEnd
  blocksWritten_le : 8 * w.blocksWritten ≤ w.inner.data.length

/-- The continuation rule for the next call. -/
def KeyAllowed (w : Writer) (call : BlockWrite) : Prop :=
  ∀ key, w.requiredContinuationKey = some key → call.options.keyId = key

/-- The first block goes to the start of the data region. -/
def FirstBlockPlaced (w : Writer) : Prop :=
  w.blocksWritten = 0 → w.inner.data.length = w.dataRegionStart

/-- Where the next block starts. -/
def nextStart (w : Writer) : Nat := roundUp w.inner.data.length (2 ^ w.baseShift)

/-- The zero gap before the next block. -/
def gap (w : Writer) : List UInt8 := List.replicate (w.nextStart - w.inner.data.length) 0

/-- The writer after a successful call. -/
def afterBlock (w : Writer) (call : BlockWrite) (inner : Sink) : Writer :=
  { w with
    inner
    blocksWritten := w.blocksWritten + 1
    requiredContinuationKey := call.continuationKey }

theorem semanticValid_iff {semantic : Semantic} {width : Nat} :
    semanticValid semantic width = true ↔ semantic.LegalWidth width := by
  cases semantic <;> simp [semanticValid, Semantic.LegalWidth]

theorem physicalValid_iff {physical : Physical} {count : Nat} :
    physicalValid physical count = true ↔ physical.LegalCount count := by
  cases physical <;> simp [physicalValid, Physical.LegalCount]

theorem validateRepresentation_eq_ok_iff {semantic : Semantic} {physical : Physical}
    {width count : Nat} {u : Unit} :
    validateRepresentation semantic physical width count = .ok u ↔
      semantic.LegalWidth width ∧ physical.LegalCount count := by
  rw [← semanticValid_iff, ← physicalValid_iff]
  unfold validateRepresentation
  cases semanticValid semantic width <;> cases physicalValid physical count <;> simp

/-- The checks that come before any sink operation. -/
theorem checkBlock_eq_ok_iff {w : Writer} {call : BlockWrite} {u : Unit} :
    checkBlock w call = .ok u ↔ call.Valid w.baseShift ∧ w.KeyAllowed call := by
  simp only [checkBlock, bind_eq_ok_iff, validateRepresentation_eq_ok_iff, rejectIf_eq_ok_iff,
    checkedMul_eq_ok_iff, not_lt, not_not]
  constructor
  · rintro ⟨-, ⟨hwidth, hcount⟩, -, hkey, -, hshift, _, ⟨hbits, rfl⟩, hpayload⟩
    refine ⟨⟨hwidth, hcount, hshift, hbits, ?_, ?_⟩, ?_⟩
    · split at hpayload <;> omega
    · split at hpayload <;> omega
    · intro key hrequired
      rw [hrequired] at hkey
      simpa [eq_comm] using hkey
  · rintro ⟨hvalid, hkey⟩
    have hge := hvalid.payload_ge
    have hlt := hvalid.payload_lt
    refine ⟨(), ⟨hvalid.legalWidth, hvalid.legalCount⟩, (), ?_, (), hvalid.combinedShift_le, _,
      ⟨hvalid.payloadBits_lt, rfl⟩, ?_⟩
    · rintro ⟨hsome, hne⟩
      obtain ⟨key, hrequired⟩ := Option.isSome_iff_exists.1 hsome
      exact hne (by rw [hrequired, hkey key hrequired])
    · split <;> omega

theorem Inv.dataRegionStart_le {w : Writer} (h : w.Inv) : w.dataRegionStart ≤ 24 + 255 := by
  have hle := roundUp_le_add 24 (2 ^ w.baseShift)
  have hpow : 2 ^ w.baseShift ≤ 2 ^ 8 := Nat.pow_le_pow_right (by decide) h.baseShift_le
  rw [h.dataRegionStart_eq, dataStart]
  omega

/-- The first block needs no gap: the data region starts on a multiple. -/
theorem Inv.gap_eq_nil {w : Writer} (h : w.Inv) (hplaced : w.inner.data.length = w.dataRegionStart) :
    w.gap = [] := by
  have hdvd : 2 ^ w.baseShift ∣ w.inner.data.length := by
    rw [hplaced, h.dataRegionStart_eq]
    exact dvd_roundUp _ _
  rw [gap, nextStart, roundUp_eq_self (Nat.two_pow_pos _) hdvd, Nat.sub_self, List.replicate_zero]

/-- Padding to the block start succeeds when the start is a `u64` and the sink
takes the gap. -/
theorem padToBlockStart_eq_ok_iff {w w' : Writer} (h : w.Inv) :
    padToBlockStart w = .ok () w' ↔
      w.FirstBlockPlaced ∧ w.inner.data.length + (2 ^ w.baseShift - 1) < u64Bound ∧
        ∃ s, w.inner.Appends w.gap s ∧ w' = w.withInner s := by
  have hpos : w.inner.position = w.inner.data.length := h.atEnd
  have hshift := h.baseShift_le
  simp only [padToBlockStart, run_bind_eq_ok_iff, run_get_eq_ok_iff]
  constructor
  · rintro ⟨_, _, ⟨rfl, rfl⟩, hrun⟩
    by_cases hzero : w.blocksWritten = 0
    · rw [if_pos hzero, liftResult_eq_ok_iff, rejectIf_eq_ok_iff, not_not] at hrun
      obtain ⟨hplaced, rfl⟩ := hrun
      have hlen : w.inner.data.length = w.dataRegionStart := hpos.symm.trans hplaced
      have hstart := h.dataRegionStart_le
      have hpow : 2 ^ w.baseShift ≤ 2 ^ 8 := Nat.pow_le_pow_right (by decide) h.baseShift_le
      refine ⟨fun _ => hlen, ?_, w.inner, ?_, rfl⟩
      · unfold u64Bound
        omega
      · rw [h.gap_eq_nil hlen]
        exact ByteSink.Appends.refl h.atEnd
    · rw [if_neg hzero] at hrun
      simp only [run_bind_eq_ok_iff, liftResult_eq_ok_iff, h.baseStep_eq] at hrun
      obtain ⟨_, _, ⟨halign, rfl⟩, hrun⟩ := hrun
      obtain ⟨hfits, rfl⟩ := (alignUp_eq_ok_iff (by omega)).1 halign
      have hrun := (onInner_writeZeros_eq_ok_iff h.atEnd).1 hrun
      unfold ByteSink.streamPosition at hfits hrun
      rw [hpos] at hfits hrun
      exact ⟨fun hnil => absurd hnil hzero, hfits, hrun⟩
  · rintro ⟨hplaced, hfits, s, happends, rfl⟩
    refine ⟨w, w, ⟨rfl, rfl⟩, ?_⟩
    by_cases hzero : w.blocksWritten = 0
    · have hlen := hplaced hzero
      rw [h.gap_eq_nil hlen] at happends
      rw [if_pos hzero, liftResult_eq_ok_iff, rejectIf_eq_ok_iff, not_not]
      refine ⟨hpos.trans hlen, ?_⟩
      rw [happends.unique (ByteSink.Appends.refl h.atEnd), withInner_self]
    · rw [if_neg hzero]
      simp only [run_bind_eq_ok_iff, liftResult_eq_ok_iff, h.baseStep_eq]
      refine ⟨w.nextStart, w, ⟨(alignUp_eq_ok_iff (by omega)).2 ?_, rfl⟩, ?_⟩
      · unfold ByteSink.streamPosition
        rw [hpos]
        exact ⟨hfits, rfl⟩
      · unfold ByteSink.streamPosition
        rw [hpos]
        exact (onInner_writeZeros_eq_ok_iff h.atEnd).2 ⟨s, happends, rfl⟩

theorem length_add_gap (w : Writer) : w.inner.data.length + w.gap.length = w.nextStart := by
  have hle : w.inner.data.length ≤ w.nextStart := le_roundUp (Nat.two_pow_pos _)
  rw [gap, List.length_replicate]
  omega

/-- The unaligned-start check never fires after the padding. -/
theorem seekBlockStart_eq_ok_iff {w w' : Writer} (h : w.Inv) :
    seekBlockStart w = .ok () w' ↔
      w.FirstBlockPlaced ∧ w.inner.data.length + (2 ^ w.baseShift - 1) < u64Bound ∧
        ∃ s, w.inner.Appends w.gap s ∧ w' = w.withInner s := by
  simp only [seekBlockStart, run_bind_eq_ok_iff, run_get_eq_ok_iff, liftResult_eq_ok_iff,
    rejectIf_eq_ok_iff, not_not]
  constructor
  · rintro ⟨_, _, hpad, _, _, ⟨rfl, rfl⟩, -, rfl⟩
    exact (padToBlockStart_eq_ok_iff h).1 hpad
  · rintro ⟨hplaced, hfits, s, happends, rfl⟩
    refine ⟨(), _, (padToBlockStart_eq_ok_iff h).2 ⟨hplaced, hfits, s, happends, rfl⟩, _, _,
      ⟨rfl, rfl⟩, ?_, rfl⟩
    have hend : s.position = s.data.length := happends.atEnd
    show s.position % w.baseStep = 0
    rw [hend, happends.data_eq, List.length_append, length_add_gap, h.baseStep_eq, nextStart]
    exact roundUp_mod _ _

theorem emitHeader_eq_ok_iff {w w' : Writer} (h : w.inner.AtEnd) {call : BlockWrite} :
    emitHeader call w = .ok () w' ↔
      ∃ s, w.inner.Appends call.headerBytes s ∧ w' = w.withInner s := by
  unfold emitHeader BlockWrite.headerBytes
  simp only [run_bind_eq_ok_iff, onInner_writeAll_eq_ok_iff h]
  by_cases hlarge : 65535 < call.count
  · simp only [if_pos hlarge]
    constructor
    · rintro ⟨_, _, ⟨s, hanchor, rfl⟩, hwrite⟩
      obtain ⟨t, hcount, rfl⟩ := (onInner_writeAll_eq_ok_iff hanchor.atEnd).1 hwrite
      exact ⟨t, hanchor.trans hcount, rfl⟩
    · rintro ⟨t, happends, rfl⟩
      obtain ⟨s, hanchor, hcount⟩ := happends.split
      exact ⟨(), _, ⟨s, hanchor, rfl⟩,
        (onInner_writeAll_eq_ok_iff hanchor.atEnd).2 ⟨t, hcount, rfl⟩⟩
  · simp only [if_neg hlarge, List.append_nil, run_pure_eq_ok_iff]
    constructor
    · rintro ⟨-, _, ⟨s, hanchor, rfl⟩, -, rfl⟩
      exact ⟨s, hanchor, rfl⟩
    · rintro ⟨s, hanchor, rfl⟩
      exact ⟨(), _, ⟨s, hanchor, rfl⟩, trivial, rfl⟩

/-- After the header: the payload start must be a `u64`, the sink must take the
padding and the payload, and the block counter must not overflow. -/
theorem emitPayload_eq_ok_iff {w w' : Writer} (h : w.inner.AtEnd) {call : BlockWrite}
    (hshift : call.combinedShift w.baseShift ≤ 63) :
    emitPayload call w = .ok () w' ↔
      w.inner.data.length + (2 ^ call.combinedShift w.baseShift - 1) < u64Bound ∧
        w.blocksWritten + 1 < u64Bound ∧
        ∃ s, w.inner.Appends
            (List.replicate (roundUp w.inner.data.length (2 ^ call.combinedShift w.baseShift) -
              w.inner.data.length) 0 ++ call.payload) s ∧
          w' = w.afterBlock call s := by
  have hpos : w.inner.position = w.inner.data.length := h
  simp only [emitPayload, run_bind_eq_ok_iff, run_get_eq_ok_iff, run_set_eq_ok_iff,
    liftResult_eq_ok_iff, checkedAdd_eq_ok_iff, ByteSink.streamPosition]
  constructor
  · rintro ⟨_, _, ⟨rfl, rfl⟩, _, _, ⟨halign, rfl⟩, _, _, hzeros, _, _, hwrite, _, _, ⟨rfl, rfl⟩, _, _,
      ⟨⟨hblocks, rfl⟩, rfl⟩, rfl⟩
    obtain ⟨hfits, rfl⟩ := (alignUp_eq_ok_iff hshift).1 halign
    rw [hpos] at hfits hzeros
    obtain ⟨s, hpad, rfl⟩ := (onInner_writeZeros_eq_ok_iff h).1 hzeros
    obtain ⟨t, hpayload, rfl⟩ := (onInner_writeAll_eq_ok_iff hpad.atEnd).1 hwrite
    exact ⟨hfits, hblocks, t, hpad.trans hpayload, rfl⟩
  · rintro ⟨hfits, hblocks, t, happends, rfl⟩
    obtain ⟨s, hpad, hpayload⟩ := happends.split
    refine ⟨w, w, ⟨rfl, rfl⟩, _, w, ⟨(alignUp_eq_ok_iff hshift).2 ⟨by rwa [hpos], rfl⟩, rfl⟩, (), _,
      (onInner_writeZeros_eq_ok_iff h).2 ⟨s, ?_, rfl⟩, (), _,
      (onInner_writeAll_eq_ok_iff hpad.atEnd).2 ⟨t, hpayload, rfl⟩, _, _, ⟨rfl, rfl⟩, _, _,
      ⟨⟨hblocks, rfl⟩, rfl⟩, rfl⟩
    rw [hpos]
    exact hpad

/-- A call succeeds exactly when it passes the checks, its positions are `u64`
values and the sink takes the gap and the block; it then appends just these. -/
theorem writeBlock_eq_ok_iff {w w' : Writer} (h : w.Inv) {call : BlockWrite} :
    writeBlock call w = .ok () w' ↔
      call.Valid w.baseShift ∧ w.KeyAllowed call ∧ w.FirstBlockPlaced ∧
        call.FitsAt w.baseShift w.inner.data.length ∧
        ∃ s, w.inner.Appends
            (w.gap ++ (call.paddedHeader w.baseShift w.nextStart ++ call.payload)) s ∧
          w' = w.afterBlock call s := by
  simp only [writeBlock, run_bind_eq_ok_iff, run_get_eq_ok_iff, liftResult_eq_ok_iff,
    checkBlock_eq_ok_iff]
  constructor
  · rintro ⟨_, _, ⟨rfl, rfl⟩, _, _, ⟨⟨hvalid, hkey⟩, rfl⟩, _, _, hseek, _, _, hemit, hrest⟩
    obtain ⟨hplaced, hstart, s, hgap, rfl⟩ := (seekBlockStart_eq_ok_iff h).1 hseek
    obtain ⟨t, hheader, rfl⟩ := (@emitHeader_eq_ok_iff (w.withInner s) _ hgap.atEnd _).1 hemit
    obtain ⟨hfits, -, u, hpayload, hresult⟩ :=
      (@emitPayload_eq_ok_iff (w.withInner t) _ hheader.atEnd _ hvalid.combinedShift_le).1 hrest
    have hlength : t.data.length = call.headerEnd w.nextStart := by
      rw [hheader.data_eq, List.length_append, withInner_inner, hgap.data_eq, List.length_append,
        length_add_gap]
      rfl
    simp only [withInner_inner, withInner_baseShift, hlength] at hfits hpayload
    refine ⟨hvalid, hkey, hplaced, ⟨hstart, hfits⟩, u, ?_, hresult⟩
    have happends := hgap.trans (hheader.trans hpayload)
    rw [← List.append_assoc call.headerBytes] at happends
    exact happends
  · rintro ⟨hvalid, hkey, hplaced, hfits, u, happends, rfl⟩
    obtain ⟨s, hgap, hblock⟩ := happends.split
    rw [BlockWrite.paddedHeader, List.append_assoc] at hblock
    obtain ⟨t, hheader, hpayload⟩ := hblock.split
    have hlength : t.data.length = call.headerEnd w.nextStart := by
      rw [hheader.data_eq, List.length_append, hgap.data_eq, List.length_append, length_add_gap]
      rfl
    refine ⟨w, w, ⟨rfl, rfl⟩, (), w, ⟨⟨hvalid, hkey⟩, rfl⟩, (), _,
      (seekBlockStart_eq_ok_iff h).2 ⟨hplaced, hfits.start_fits, s, hgap, rfl⟩, (), _,
      (emitHeader_eq_ok_iff hgap.atEnd).2 ⟨t, hheader, rfl⟩,
      (@emitPayload_eq_ok_iff (w.withInner t) _ hheader.atEnd _ hvalid.combinedShift_le).2
        ⟨?_, ?_, u, ?_, rfl⟩⟩
    · show t.data.length + _ < _
      rw [hlength]
      exact hfits.payload_fits
    · -- Every counted block took at least eight bytes of a `u64`-sized sink.
      have hblocks := h.blocksWritten_le
      have hle := w.inner.length_le
      have hcap := w.inner.capacity_lt
      show w.blocksWritten + 1 < u64Bound
      unfold u64Bound at *
      omega
    · show t.Appends (List.replicate (roundUp t.data.length _ - t.data.length) 0 ++ _) u
      rw [hlength]
      exact hpayload

/-- The data region was opened: the header and its padding are in the sink. -/
def Opened (w : Writer) : Prop := w.dataRegionStart ≤ w.inner.data.length

theorem afterBlock_inv {w : Writer} (h : w.Inv) {call : BlockWrite} {s : Sink} {bytes : List UInt8}
    (happends : w.inner.Appends bytes s) (hbytes : 8 ≤ bytes.length) :
    (w.afterBlock call s).Inv := by
  have hblocks := h.blocksWritten_le
  refine { h with atEnd := happends.atEnd, blocksWritten_le := ?_ }
  show 8 * (w.blocksWritten + 1) ≤ s.data.length
  rw [happends.data_eq, List.length_append]
  omega

theorem eight_le_encoded_length (w : Writer) (call : BlockWrite) :
    8 ≤ (w.gap ++ (call.paddedHeader w.baseShift w.nextStart ++ call.payload)).length := by
  have hend := call.lt_payloadEnd w.baseShift w.nextStart
  rw [List.length_append, BlockWrite.encoded_length]
  omega

/-- `new` succeeds on an empty sink at its start that takes the header. -/
theorem new_eq_ok_iff {inner : Sink} {baseShift : Nat} {mode : StreamMode} {w : Writer} :
    new inner baseShift mode = .ok w ↔
      (3 ≤ baseShift ∧ baseShift ≤ 8) ∧ (inner.position = 0 ∧ inner.data = []) ∧
        ∃ s, inner.Appends
            (headerBytes baseShift mode ++ List.replicate (dataStart baseShift - 24) 0) s ∧
          w = ⟨s, baseShift, 2 ^ baseShift, dataStart baseShift, mode, 0, none⟩ := by
  simp only [new, bind_eq_ok_iff, rejectIf_eq_ok_iff, not_not, not_or]
  have halign : baseShift ≤ 8 →
      alignUp 24 (2 ^ baseShift) = .ok (dataStart baseShift) := by
    intro hle
    have hpow : 2 ^ baseShift ≤ 2 ^ 8 := Nat.pow_le_pow_right (by decide) hle
    refine (alignUp_eq_ok_iff (by omega)).2 ⟨?_, rfl⟩
    unfold u64Bound
    omega
  have hsink : inner.position = 0 ∧ inner.data = [] → inner.seekEnd.seekStart 0 = inner := by
    rintro ⟨hpos, -⟩
    exact ByteSink.ext rfl hpos.symm rfl
  have hwrite : ∀ s, inner.position = 0 ∧ inner.data = [] →
      (((ByteSink.writeAll (headerBytes baseShift mode) >>= fun _ =>
          writeZeros (dataStart baseShift - 24)) inner = .ok () s) ↔
        inner.Appends (headerBytes baseShift mode ++
          List.replicate (dataStart baseShift - 24) 0) s) := by
    rintro s ⟨hpos, hdata⟩
    have hend : inner.AtEnd := by
      show inner.position = inner.data.length
      rw [hpos, hdata]
      rfl
    rw [run_bind_eq_ok_iff]
    constructor
    · rintro ⟨_, t, hheader, hzeros⟩
      have hheader := (ByteSink.writeAll_eq_ok_iff hend).1 hheader
      rw [writeZeros_eq hheader.atEnd] at hzeros
      exact hheader.trans ((ByteSink.writeAll_eq_ok_iff hheader.atEnd).1 hzeros)
    · intro happends
      obtain ⟨t, hheader, hzeros⟩ := happends.split
      refine ⟨(), t, (ByteSink.writeAll_eq_ok_iff hend).2 hheader, ?_⟩
      rw [writeZeros_eq hheader.atEnd]
      exact (ByteSink.writeAll_eq_ok_iff hheader.atEnd).2 hzeros
  constructor
  · rintro ⟨_, hshift, start, hstart, _, ⟨hpos, hlength⟩, hopen⟩
    rw [halign hshift.2] at hstart
    cases hstart
    have hempty : inner.position = 0 ∧ inner.data = [] := ⟨hpos, List.length_eq_zero_iff.1 hlength⟩
    rw [hsink hempty] at hopen
    refine ⟨hshift, hempty, ?_⟩
    split at hopen
    next => cases hopen
    next s hrun =>
      cases hopen
      exact ⟨s, (hwrite s hempty).1 hrun, rfl⟩
  · rintro ⟨hshift, hempty, s, happends, rfl⟩
    refine ⟨(), hshift, _, halign hshift.2, (), ⟨hempty.1, ?_⟩, ?_⟩
    · show inner.data.length = 0
      rw [hempty.2]
      rfl
    · rw [hsink hempty, (hwrite s hempty).2 happends]

/-- The bytes that `finish` leaves: a known-size writer fills in the size. -/
def finishedData (w : Writer) (data : List UInt8) : List UInt8 :=
  if w.mode = .knownSize then patch data 16 (leBytes 8 (data.length - w.dataRegionStart)) else data

theorem finish_eq_ok_iff {w : Writer} (h : w.Inv) (hopened : w.Opened) {s : Sink} :
    finish w = .ok s ↔ w.requiredContinuationKey = none ∧
      s.data = w.finishedData w.inner.data ∧ s.AtEnd ∧ s.capacity = w.inner.capacity := by
  have hpos : w.inner.position = w.inner.data.length := h.atEnd
  have hstart := dataStart_ge w.baseShift
  have hlength : 24 ≤ w.inner.data.length := by
    unfold Opened at hopened
    rw [h.dataRegionStart_eq] at hopened
    omega
  have hbytes : ∀ size, (leBytes 8 size).length = 8 := leBytes_length 8
  obtain ⟨hwrite, hpatch⟩ := @ByteSink.writeAll_overwrite _ (w.inner.seekStart 16)
    (leBytes 8 (w.inner.data.length - w.dataRegionStart)) (by
      show 16 + _ ≤ w.inner.data.length
      rw [hbytes]
      omega)
  simp only [finish, bind_eq_ok_iff, rejectIf_eq_ok_iff, ByteSink.streamPosition, hpos,
    Option.not_isSome_iff_eq_none]
  unfold finishedData
  by_cases hmode : w.mode = .knownSize
  · simp only [if_pos hmode, bind_eq_ok_iff, rejectIf_eq_ok_iff, not_lt, hwrite, pure_eq_ok_iff]
    have hdata : patch w.inner.data 16 (leBytes 8 (w.inner.data.length - w.dataRegionStart)) =
        ((w.inner.seekStart 16).store
          (leBytes 8 (w.inner.data.length - w.dataRegionStart))).data := hpatch.symm
    have hkeeps : (patch w.inner.data 16
        (leBytes 8 (w.inner.data.length - w.dataRegionStart))).length = w.inner.data.length :=
      patch_length (by rw [hbytes]; omega)
    constructor
    · rintro ⟨_, hkey, _, -, rfl⟩
      refine ⟨hkey, hpatch, ?_, rfl⟩
      rw [hdata] at hkeeps
      exact hkeeps.symm
    · rintro ⟨hkey, hfinal, hend, hcapacity⟩
      refine ⟨(), hkey, (), hopened, ByteSink.ext ?_ ?_ hcapacity.symm⟩
      · rw [hfinal, hdata]
        rfl
      · have hend : s.position = s.data.length := hend
        rw [hend, hfinal, hkeeps]
        rfl
  · simp only [if_neg hmode, pure_eq_ok_iff]
    constructor
    · rintro ⟨_, hkey, rfl⟩
      exact ⟨hkey, rfl, h.atEnd, rfl⟩
    · rintro ⟨hkey, hfinal, hend, hcapacity⟩
      have hend : s.position = s.data.length := hend
      refine ⟨(), hkey, ByteSink.ext hfinal.symm ?_ hcapacity.symm⟩
      rw [hpos, hend, hfinal]

/-- The rest of a run: the remaining blocks and `finish`. -/
def writeAndFinish (calls : List BlockWrite) (w : Writer) : Except WriterError Sink :=
  match writeBlocks calls w with
  | .error e _ => .error e
  | .ok () w => finish w

private theorem writeAndFinish_cons {call : BlockWrite} {rest : List BlockWrite} {w : Writer}
    {s : Sink} : writeAndFinish (call :: rest) w = .ok s ↔
      ∃ w', writeBlock call w = .ok () w' ∧ writeAndFinish rest w' = .ok s := by
  unfold writeAndFinish
  simp only [writeBlocks, bind, EStateM.bind]
  cases writeBlock call w with
  | ok u w' => simp
  | error e w' => simp

/-- From any opened writer state the remaining run succeeds exactly on
encodable calls that fit the sink, and leaves their encoding behind the bytes
already there. -/
theorem writeAndFinish_eq_ok_iff {calls : List BlockWrite} {w : Writer} (h : w.Inv)
    (hopened : w.Opened) (hplaced : w.FirstBlockPlaced) {s : Sink} :
    writeAndFinish calls w = .ok s ↔
      Encodable w.baseShift w.requiredContinuationKey w.inner.data.length calls ∧
        ∃ t, w.inner.Appends (encodeBlocks w.baseShift w.inner.data.length calls) t ∧
          s.data = w.finishedData t.data ∧ s.AtEnd ∧ s.capacity = w.inner.capacity := by
  induction calls generalizing w with
  | nil =>
      show finish w = .ok s ↔ _
      rw [finish_eq_ok_iff h hopened]
      constructor
      · rintro ⟨hkey, hdata, hend, hcapacity⟩
        exact ⟨hkey, w.inner, ByteSink.Appends.refl h.atEnd, hdata, hend, hcapacity⟩
      · rintro ⟨hkey, t, happends, hdata, hend, hcapacity⟩
        rw [happends.unique (ByteSink.Appends.refl h.atEnd)] at hdata
        exact ⟨hkey, hdata, hend, hcapacity⟩
  | cons call rest ih =>
      rw [writeAndFinish_cons]
      simp only [writeBlock_eq_ok_iff h]
      have hlength : ∀ {t : Sink}, w.inner.Appends
          (w.gap ++ (call.paddedHeader w.baseShift w.nextStart ++ call.payload)) t →
          t.data.length = call.payloadEnd w.baseShift w.nextStart := by
        intro t happends
        have hend := call.lt_payloadEnd w.baseShift w.nextStart
        have hgap := w.length_add_gap
        rw [happends.data_eq, List.length_append, List.length_append, BlockWrite.encoded_length]
        omega
      have hnext : ∀ {t : Sink} (happends : w.inner.Appends
          (w.gap ++ (call.paddedHeader w.baseShift w.nextStart ++ call.payload)) t),
          (writeAndFinish rest (w.afterBlock call t) = .ok s ↔
            Encodable w.baseShift call.continuationKey (call.payloadEnd w.baseShift w.nextStart)
                rest ∧
              ∃ u, t.Appends (encodeBlocks w.baseShift
                  (call.payloadEnd w.baseShift w.nextStart) rest) u ∧
                s.data = w.finishedData u.data ∧ s.AtEnd ∧ s.capacity = w.inner.capacity) := by
        intro t happends
        have hopened' : (w.afterBlock call t).Opened := by
          show w.dataRegionStart ≤ t.data.length
          unfold Opened at hopened
          rw [happends.data_eq, List.length_append]
          omega
        have hplaced' : (w.afterBlock call t).FirstBlockPlaced := by
          intro hzero
          exact absurd hzero (Nat.succ_ne_zero _)
        rw [ih (afterBlock_inv h happends (w.eight_le_encoded_length call)) hopened' hplaced']
        show Encodable w.baseShift call.continuationKey t.data.length rest ∧ _ ↔ _
        rw [← happends.capacity_eq, ← hlength happends]
        rfl
      constructor
      · rintro ⟨_, ⟨hvalid, hkey, -, hfits, t, happends, rfl⟩, hrest⟩
        obtain ⟨hencodable, u, htail, hfinal⟩ := (hnext happends).1 hrest
        refine ⟨⟨hvalid, hkey, hfits, hencodable⟩, u, ?_, hfinal⟩
        exact happends.trans htail
      · rintro ⟨⟨hvalid, hkey, hfits, hencodable⟩, u, happends, hfinal⟩
        obtain ⟨t, hblock, htail⟩ := ByteSink.Appends.split happends
        exact ⟨_, ⟨hvalid, hkey, hplaced, hfits, t, hblock, rfl⟩,
          (hnext hblock).2 ⟨hencodable, u, htail, hfinal⟩⟩

@[simp] theorem headerBytes_length (baseShift : Nat) (mode : StreamMode) :
    (headerBytes baseShift mode).length = 24 := by
  simp [headerBytes, magic]

/-- Filling in the size turns the header of `new` into the final one. -/
theorem patch_headerBytes (baseShift dataSize : Nat) (tail : List UInt8) :
    patch (headerBytes baseShift .knownSize ++ tail) 16 (leBytes 8 dataSize) =
      encodeHeader baseShift .knownSize dataSize ++ tail := by
  have hfixed : (magic ++ leBytes 4 version ++ leBytes 1 baseShift ++ leBytes 1 0 ++
      leBytes 2 24 ++ leBytes 4 0).length = 16 := by
    simp [magic]
  have hmiddle := patch_append_middle (magic ++ leBytes 4 version ++ leBytes 1 baseShift ++
    leBytes 1 0 ++ leBytes 2 24 ++ leBytes 4 0) (List.replicate 8 0) (leBytes 8 dataSize) tail
    (by simp)
  rw [hfixed] at hmiddle
  have hzeros : (List.replicate 12 0 : List UInt8) = leBytes 4 0 ++ List.replicate 8 0 := by
    rw [leBytes_zero_value, List.replicate_append_replicate]
  rw [headerBytes, hzeros, ← List.append_assoc]
  exact hmiddle

theorem headerBytes_indefinite (baseShift dataSize : Nat) :
    headerBytes baseShift .indefinite = encodeHeader baseShift .indefinite dataSize := by
  have hzeros : (List.replicate 12 0 : List UInt8) = leBytes 4 0 ++ leBytes 8 0 := by
    rw [leBytes_zero_value, leBytes_zero_value, List.replicate_append_replicate]
  rw [headerBytes, encodeHeader, hzeros, ← List.append_assoc]
  rfl

/-- The finished bytes are the encoded stream. -/
theorem finishedData_eq_encodeStream {w : Writer} {calls : List BlockWrite}
    (hstart : w.dataRegionStart = dataStart w.baseShift) :
    w.finishedData (headerBytes w.baseShift w.mode ++
        List.replicate (dataStart w.baseShift - 24) 0 ++
        encodeBlocks w.baseShift (dataStart w.baseShift) calls) =
      encodeStream w.baseShift w.mode calls := by
  have hge := dataStart_ge w.baseShift
  have hsize : (headerBytes w.baseShift w.mode ++
      List.replicate (dataStart w.baseShift - 24) 0 ++
      encodeBlocks w.baseShift (dataStart w.baseShift) calls).length - dataStart w.baseShift =
      blocksEnd w.baseShift (dataStart w.baseShift) calls - dataStart w.baseShift := by
    rw [blocksEnd_eq, List.length_append, List.length_append, headerBytes_length,
      List.length_replicate]
    omega
  unfold finishedData encodeStream
  rw [hstart, hsize, List.append_assoc, List.append_assoc]
  cases hmode : w.mode with
  | knownSize => rw [if_pos rfl, patch_headerBytes]
  | indefinite => rw [if_neg (by decide), ← headerBytes_indefinite]

/-- A whole run succeeds exactly on encodable calls that fit an empty sink, and
the sink then holds their encoding. -/
theorem writeStream_eq_ok_iff {inner s : Sink} {baseShift : Nat} {mode : StreamMode}
    {calls : List BlockWrite} :
    writeStream inner baseShift mode calls = .ok s ↔
      (3 ≤ baseShift ∧ baseShift ≤ 8) ∧ (inner.position = 0 ∧ inner.data = []) ∧
        Encodable baseShift none (dataStart baseShift) calls ∧
        s.data = encodeStream baseShift mode calls ∧ s.AtEnd ∧ s.capacity = inner.capacity := by
  have hge := dataStart_ge baseShift
  have hrun : writeStream inner baseShift mode calls = .ok s ↔
      ∃ w, new inner baseShift mode = .ok w ∧ writeAndFinish calls w = .ok s := by
    rw [writeStream, bind_eq_ok_iff]
    rfl
  rw [hrun]
  simp only [new_eq_ok_iff]
  -- The freshly opened writer, for any sink state after the header.
  have hfresh : ∀ t : Sink, inner.position = 0 ∧ inner.data = [] → 3 ≤ baseShift ∧ baseShift ≤ 8 →
      inner.Appends (headerBytes baseShift mode ++ List.replicate (dataStart baseShift - 24) 0) t →
      t.data.length = dataStart baseShift ∧
      (writeAndFinish calls ⟨t, baseShift, 2 ^ baseShift, dataStart baseShift, mode, 0, none⟩ =
          .ok s ↔
        Encodable baseShift none (dataStart baseShift) calls ∧
          ∃ u, t.Appends (encodeBlocks baseShift (dataStart baseShift) calls) u ∧
            s.data = encodeStream baseShift mode calls ∧ s.AtEnd ∧
              s.capacity = inner.capacity) := by
    rintro t ⟨-, hdata⟩ ⟨hlow, hhigh⟩ happends
    have htdata : t.data = headerBytes baseShift mode ++
        List.replicate (dataStart baseShift - 24) 0 := by
      rw [happends.data_eq, hdata, List.nil_append]
    have hlength : t.data.length = dataStart baseShift := by
      rw [htdata, List.length_append, headerBytes_length, List.length_replicate]
      omega
    have hinv : Inv ⟨t, baseShift, 2 ^ baseShift, dataStart baseShift, mode, 0, none⟩ :=
      ⟨hlow, hhigh, rfl, rfl, happends.atEnd, Nat.zero_le _⟩
    refine ⟨hlength, ?_⟩
    rw [writeAndFinish_eq_ok_iff hinv (Nat.le_of_eq hlength.symm) (fun _ => hlength)]
    show Encodable baseShift none t.data.length calls ∧ _ ↔ _
    rw [hlength, ← happends.capacity_eq]
    refine and_congr_right fun _ => exists_congr fun u => and_congr_right fun hu => ?_
    have hbytes : u.data = headerBytes baseShift mode ++
        List.replicate (dataStart baseShift - 24) 0 ++
        encodeBlocks baseShift (dataStart baseShift) calls := by
      rw [hu.data_eq, htdata]
    rw [hbytes]
    have hfinal := @finishedData_eq_encodeStream
      ⟨t, baseShift, 2 ^ baseShift, dataStart baseShift, mode, 0, none⟩ calls rfl
    rw [← hfinal]
  constructor
  · rintro ⟨w, ⟨hshift, hempty, t, happends, rfl⟩, hfinish⟩
    obtain ⟨hencodable, u, -, hfinal⟩ := ((hfresh t hempty hshift happends).2).1 hfinish
    exact ⟨hshift, hempty, hencodable, hfinal⟩
  · rintro ⟨hshift, hempty, hencodable, hdata, hend, hcapacity⟩
    have hle := s.length_le
    rw [hdata, encodeStream_length, blocksEnd_eq, hcapacity] at hle
    obtain ⟨t, happends⟩ := @ByteSink.exists_appends _ inner
      (headerBytes baseShift mode ++ List.replicate (dataStart baseShift - 24) 0) (by
        rw [hempty.2, List.length_append, headerBytes_length, List.length_replicate]
        simp
        omega)
    obtain ⟨hlength, hiff⟩ := hfresh t hempty hshift happends
    obtain ⟨u, hu⟩ := @ByteSink.exists_appends _ t
      (encodeBlocks baseShift (dataStart baseShift) calls) (by
        rw [hlength, happends.capacity_eq]
        exact hle)
    exact ⟨_, ⟨hshift, hempty, t, happends, rfl⟩,
      hiff.2 ⟨hencodable, u, hu, hdata, hend, hcapacity⟩⟩

end Writer

end VBuf.V06
