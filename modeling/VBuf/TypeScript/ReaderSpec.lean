import VBuf.TypeScript.Reader
import VBuf.V06.Ranges

/-!
# What the TypeScript reader accepts

The helpers of the TypeScript reader are inverted one by one, on inputs below
`2 ^ 53` bytes, and the constructor is related to the same grammar as
`parseV06`.  The one condition it adds is that every `nextBlockStart` is a safe
integer: the last of them may lie past the end of the input.
-/

namespace VBuf.TypeScript

open VBuf.Lib VBuf.V06

theorem safeBound_lt : safeBound < u64Bound := by decide

@[simp] theorem checkedAdd_eq_ok_iff {a b r : Nat} :
    checkedAdd a b = .ok r ↔ a + b < u64Bound ∧ r = a + b := by
  unfold checkedAdd
  by_cases h : a + b < u64Bound <;> simp [h, eq_comm]

@[simp] theorem checkedMul_eq_ok_iff {a b r : Nat} :
    checkedMul a b = .ok r ↔ a * b < u64Bound ∧ r = a * b := by
  unfold checkedMul
  by_cases h : a * b < u64Bound <;> simp [h, eq_comm]

/-- `x & ~(2 ** s - 1)` clears the low bits, whatever the size of `x`. -/
theorem ldiff_mask (value shift : Nat) :
    Nat.ldiff value (2 ^ shift - 1) = value / 2 ^ shift * 2 ^ shift := by
  apply Nat.eq_of_testBit_eq
  intro i
  rw [Nat.testBit_ldiff, Nat.testBit_two_pow_sub_one, Nat.testBit_mul_two_pow,
    Nat.testBit_div_two_pow]
  by_cases hlow : i < shift
  · have hnot : ¬ shift ≤ i := by omega
    simp [hlow, hnot]
  · have hge : shift ≤ i := by omega
    have hsub : i - shift + shift = i := by omega
    simp [hlow, hge, hsub]

/-- Alignment to a power of two is the grammar's relation, as it is for
`VBuf.V06.alignUp`. -/
theorem alignUp_eq_ok_iff_alignsTo {value shift aligned : Nat} :
    alignUp value (2 ^ shift) = .ok aligned ↔ AlignsTo value (2 ^ shift) aligned := by
  have hpos : 0 < 2 ^ shift := Nat.two_pow_pos shift
  have hpow : 2 ^ shift &&& (2 ^ shift - 1) = 0 := by
    rw [Nat.and_two_pow_sub_one_eq_mod, Nat.mod_self]
  have hvalid : ¬ (2 ^ shift = 0 ∨ 2 ^ shift &&& (2 ^ shift - 1) ≠ 0) := by
    rw [hpow]
    omega
  simp only [alignUp, bind_eq_ok_iff, rejectIf_eq_ok_iff, checkedAdd_eq_ok_iff, pure_eq_ok_iff,
    ldiff_mask]
  constructor
  · intro h
    obtain ⟨-, -, sum, ⟨hfits, rfl⟩, rfl⟩ := h
    exact ⟨dvd_roundUp _ _, le_roundUp hpos, roundUp_lt_add hpos, hfits⟩
  · intro h
    exact ⟨(), hvalid, _, ⟨h.fits, rfl⟩, h.eq_roundUp.symm⟩

theorem getUint_eq_ok_iff {width : Nat} {mem : List UInt8} {offset value : Nat} :
    getUint width mem offset = .ok value ↔
      offset + width ≤ mem.length ∧ value = leAt mem offset width := by
  have hsub : offset + width - offset = width := by omega
  unfold getUint leAt
  cases hrange : range? mem offset (offset + width) with
  | none =>
      have hnone := range?_eq_none_iff.1 hrange
      constructor
      · intro h
        cases h
      · intro h
        exact absurd ⟨by omega, h.1⟩ hnone
  | some raw =>
      obtain ⟨-, hfits, rfl⟩ := range?_eq_some_iff.1 hrange
      rw [hsub]
      constructor
      · intro h
        exact ⟨hfits, (Except.ok.inj h).symm⟩
      · intro h
        rw [h.2]

@[simp] theorem toSafeNumber_eq_ok_iff {value r : Nat} :
    toSafeNumber value = .ok r ↔ value < safeBound ∧ value = r := by
  unfold toSafeNumber
  by_cases h : value < safeBound <;> simp [h]

@[simp] theorem requireRange_eq_ok_iff {mem : List UInt8} {start stop : Nat} {message : String}
    {u : Unit} :
    requireRange mem start stop message = .ok u ↔ start ≤ stop ∧ stop ≤ mem.length := by
  simp only [requireRange, rejectIf_eq_ok_iff, not_or, not_lt]

section SafeInput

variable {mem : List UInt8} (hmem : mem.length < safeBound)

include hmem

theorem toIndex_eq_ok_iff {value r : Nat} :
    toIndex mem value = .ok r ↔ value ≤ mem.length ∧ value = r := by
  simp only [toIndex, bind_eq_ok_iff, rejectIf_eq_ok_iff, toSafeNumber_eq_ok_iff, not_lt]
  constructor
  · intro h
    obtain ⟨-, hle, -, heq⟩ := h
    exact ⟨hle, heq⟩
  · intro h
    exact ⟨(), h.1, by omega, h.2⟩

theorem requireZero_eq_ok_iff {start stop : Nat} {u : Unit} :
    requireZero mem start stop = .ok u ↔
      start ≤ stop ∧ stop ≤ mem.length ∧ ZeroOn mem start stop := by
  simp only [requireZero, bind_eq_ok_iff, requireRange_eq_ok_iff, toIndex_eq_ok_iff hmem,
    rejectIf_eq_ok_iff]
  have hzero : start ≤ stop → stop ≤ mem.length →
      (¬ (slice mem start (stop - start)).any (fun byte => byte != 0) = true ↔
        ZeroOn mem start stop) := by
    intro hle hstop
    have hlen : (slice mem start (stop - start)).length = stop - start :=
      slice_length_of_le (by omega)
    rw [zeroOn_iff_slice hle hstop, List.eq_replicate_iff]
    simp [hlen]
  constructor
  · intro h
    obtain ⟨-, ⟨hle, hstop⟩, first, ⟨-, rfl⟩, last, ⟨-, rfl⟩, hany⟩ := h
    exact ⟨hle, hstop, (hzero hle hstop).1 hany⟩
  · intro h
    obtain ⟨hle, hstop, hall⟩ := h
    exact ⟨(), ⟨hle, hstop⟩, _, ⟨by omega, rfl⟩, _, ⟨hstop, rfl⟩, (hzero hle hstop).2 hall⟩

/-! ### The global header -/

theorem extensionStep_eq_ok_iff {headerSize offset extensionEnd : Nat}
    (hfits : offset + 8 ≤ mem.length) (hsize : headerSize ≤ mem.length) :
    extensionStep mem headerSize offset = .ok extensionEnd ↔
      leAt mem (offset + 2) 2 = 0 ∧ 8 ≤ leAt mem (offset + 4) 4 ∧
        8 ∣ leAt mem (offset + 4) 4 ∧ extensionEnd = offset + leAt mem (offset + 4) 4 ∧
        extensionEnd ≤ headerSize := by
  have hbound := safeBound_lt
  simp only [extensionStep, bind_eq_ok_iff, toIndex_eq_ok_iff hmem, checkedAdd_eq_ok_iff,
    requireRange_eq_ok_iff, getUint_eq_ok_iff, rejectIf_eq_ok_iff, pure_eq_ok_iff]
  -- Without its lowest bit a flag word is zero exactly when it is 0 or 1.
  have hflags : ∀ flags, Nat.ldiff flags 1 = flags / 2 * 2 := fun flags => ldiff_mask flags 1
  constructor
  · intro h
    obtain ⟨_, ⟨-, rfl⟩, _, ⟨-, rfl⟩, -, -, flags, ⟨-, rfl⟩, size, ⟨-, rfl⟩, -, hframing, last,
      ⟨-, rfl⟩, -, hle, -, hbit, rfl⟩ := h
    simp only [hflags, Nat.and_one_is_mod, not_or, not_not, not_lt] at hframing hle hbit
    obtain ⟨hhigh, hge, hmod⟩ := hframing
    exact ⟨by omega, hge, Nat.dvd_of_mod_eq_zero hmod, rfl, hle⟩
  · intro h
    obtain ⟨hzero, hge, hdvd, rfl, hle⟩ := h
    refine ⟨_, ⟨by omega, rfl⟩, _, ⟨by omega, rfl⟩, (), ⟨by omega, hfits⟩, _, ⟨by omega, rfl⟩, _,
      ⟨by omega, rfl⟩, (), ?_, _, ⟨by omega, rfl⟩, (), by omega, (), ?_, rfl⟩
    · rw [hflags, hzero]
      omega
    · rw [Nat.and_one_is_mod, hzero]
      omega

/-- The loop has no check after it: an accepted record never passes the header
size, so it ends there. -/
theorem extensionLoop_eq_ok_iff {headerSize : Nat} (hlength : headerSize ≤ mem.length)
    (hdvd : 8 ∣ headerSize) {fuel offset : Nat} (hfuel : headerSize ≤ fuel + offset)
    (hoffset : 8 ∣ offset) (hle : offset ≤ headerSize) {u : Unit} :
    extensionLoop mem headerSize fuel offset = .ok u ↔
      ExtensionRecords mem headerSize offset := by
  induction fuel generalizing offset with
  | zero =>
      have heq : offset = headerSize := by omega
      subst heq
      exact iff_of_true rfl ExtensionRecords.done
  | succ fuel ih =>
      rcases Nat.lt_or_eq_of_le hle with hlt | rfl
      · have hfits : offset + 8 ≤ mem.length := by omega
        rw [extensionLoop, if_pos hlt]
        simp only [bind_eq_ok_iff, extensionStep_eq_ok_iff hmem hfits hlength]
        constructor
        · intro h
          obtain ⟨_, ⟨hflags, hge, hsizedvd, rfl, hend⟩, hrest⟩ := h
          exact ExtensionRecords.record hflags rfl hge hsizedvd hend
            ((ih (by omega) (Nat.dvd_add hoffset hsizedvd) hend).1 hrest)
        · intro hrecords
          cases hrecords with
          | done => omega
          | record hflags hsizeeq hge hsizedvd hend hrest =>
              subst hsizeeq
              exact ⟨_, ⟨hflags, hge, hsizedvd, rfl, hend⟩,
                (ih (by omega) (Nat.dvd_add hoffset hsizedvd) hend).2 hrest⟩
      · rw [extensionLoop, if_neg (Nat.lt_irrefl _)]
        exact iff_of_true rfl ExtensionRecords.done

theorem parseDataEnd_eq_ok_iff {indefinite : Bool} {dataStart declaredSize dataEnd : Nat} :
    parseDataEnd mem indefinite dataStart declaredSize = .ok dataEnd ↔
      dataEnd = mem.length ∧ (indefinite = false → dataStart + declaredSize = mem.length) := by
  have hbound := safeBound_lt
  cases indefinite with
  | true =>
      show (pure mem.length : Except ValidationError Nat) = .ok dataEnd ↔ _
      rw [pure_eq_ok_iff]
      simp [eq_comm]
  | false =>
      simp only [parseDataEnd, Bool.false_eq_true, if_false, bind_eq_ok_iff,
        checkedAdd_eq_ok_iff, rejectIf_eq_ok_iff, pure_eq_ok_iff, not_not]
      constructor
      · intro h
        obtain ⟨_, ⟨-, rfl⟩, -, heq, rfl⟩ := h
        exact ⟨heq, fun _ => heq⟩
      · intro h
        obtain ⟨rfl, hsum⟩ := h
        have heq := hsum trivial
        exact ⟨_, ⟨by omega, rfl⟩, (), heq, heq⟩

end SafeInput

/-- The fields that the constructor sets from the global header. -/
def VBufV06.ofHeader (mem : List UInt8) (header : Header) : VBufV06 where
  mem
  baseShift := header.baseShift
  baseStep := header.baseStep
  indefinite := header.indefinite
  headerSize := header.headerSize
  dataRegionStart := header.dataRegionStart
  dataRegionSize := header.dataRegionSize
  validatedBlocks := []

private theorem globalFlags_iff {flags : Nat} {indefinite : Bool} :
    (Nat.ldiff flags 1 = 0 ∧ decide (flags &&& 1 ≠ 0) = indefinite) ↔
      flags = indefinite.toNat := by
  rw [show Nat.ldiff flags 1 = flags / 2 * 2 from ldiff_mask flags 1, Nat.and_one_is_mod]
  cases indefinite with
  | true =>
      simp only [decide_eq_true_eq, Bool.toNat_true]
      omega
  | false =>
      simp only [decide_eq_false_iff_not, Bool.toNat_false]
      omega

private theorem magic_iff {mem : List UInt8} (hlength : 24 ≤ mem.length) :
    slice mem 0 4 = magic ↔
      mem.getD 0 0 = 0x56 ∧ mem.getD 1 0 = 0x42 ∧ mem.getD 2 0 = 0x55 ∧ mem.getD 3 0 = 0x46 := by
  match mem, hlength with
  | a :: b :: c :: d :: rest, _ => simp [slice, magic]

/-- The header part of the constructor accepts exactly the global headers. -/
theorem parseHeader_eq_ok_iff {mem : List UInt8} (hmem : mem.length < safeBound)
    {instance_ : VBufV06} :
    parseHeader mem = .ok instance_ ↔
      ∃ header, GlobalHeader mem header ∧ instance_ = VBufV06.ofHeader mem header := by
  have hbound := safeBound_lt
  simp only [parseHeader, bind_eq_ok_iff, rejectIf_eq_ok_iff, getUint_eq_ok_iff,
    requireRange_eq_ok_iff, requireZero_eq_ok_iff hmem, toIndex_eq_ok_iff hmem,
    alignUp_eq_ok_iff_alignsTo, parseDataEnd_eq_ok_iff hmem, pure_eq_ok_iff, not_or, not_not,
    not_lt]
  constructor
  · intro h
    obtain ⟨-, hcomplete, -, hmagic, fileVersion, ⟨-, rfl⟩, -, hversion, -, hshift, -, hflags,
      headerSize, ⟨-, rfl⟩, -, hheaderSize, -, hheaderLe, reserved, ⟨-, rfl⟩, -, hreserved,
      declaredSize, ⟨-, rfl⟩, -, hdeclared, _, hextensions, dataStart, hstart, -, -, -,
      ⟨-, hstartLe, hzero⟩, _, ⟨-, rfl⟩, dataEnd, ⟨rfl, hknown⟩, rfl⟩ := h
    have hbyte := @leAt_one mem 8 (by omega)
    have hflag := @leAt_one mem 9 (by omega)
    have hrecords := (extensionLoop_eq_ok_iff hmem hheaderLe
      (Nat.dvd_of_mod_eq_zero hheaderSize.2) (by omega) (by decide) hheaderSize.1).1 hextensions
    have hindefinite := globalFlags_iff.1 ⟨hflags, rfl⟩
    have hregion : dataStart + (mem.length - dataStart) = mem.length := by omega
    refine ⟨⟨(mem.getD 8 0).toNat, 2 ^ (mem.getD 8 0).toNat,
      decide ((mem.getD 9 0).toNat &&& 1 ≠ 0), leAt mem 10 2, dataStart,
      mem.length - dataStart, mem.length⟩, ?_, rfl⟩
    exact
      { complete := hcomplete
        magic_eq := (magic_iff hcomplete).2 hmagic
        version_eq := hversion
        baseShift_eq := hbyte
        baseShift_ge := hshift.1
        baseShift_le := hshift.2
        baseStep_eq := rfl
        flags_eq := hflag.trans hindefinite
        headerSize_eq := rfl
        headerSize_ge := hheaderSize.1
        headerSize_dvd := Nat.dvd_of_mod_eq_zero hheaderSize.2
        headerSize_le := hheaderLe
        reserved_eq := hreserved
        extensions := hrecords
        dataRegionStart_aligned := hstart
        dataRegionStart_le := hstartLe
        padding_zero := hzero
        dataRegionEnd_eq := rfl
        dataRegionSize_eq := hregion
        declaredSize_eq := (declaredSize_iff hregion).1 ⟨hdeclared, hknown⟩ }
  · intro hheader
    obtain ⟨header, h, rfl⟩ := hheader
    have hlen : 24 ≤ mem.length := h.complete
    have hbyte := (@leAt_one mem 8 (by omega)).symm.trans h.baseShift_eq
    have hflag := (@leAt_one mem 9 (by omega)).symm.trans h.flags_eq
    have hregion : header.dataRegionStart + header.dataRegionSize = mem.length :=
      h.dataRegionSize_eq.trans h.dataRegionEnd_eq
    obtain ⟨hflags, hindefinite⟩ := globalFlags_iff.2 hflag
    obtain ⟨hdeclared, hknown⟩ := (declaredSize_iff hregion).2 h.declaredSize_eq
    have hstep := h.baseStep_eq
    have hstart := h.dataRegionStart_aligned
    have hsize : mem.length - header.dataRegionStart = header.dataRegionSize := by omega
    have hrecords : extensionLoop mem header.headerSize header.headerSize 24 = .ok () :=
      (extensionLoop_eq_ok_iff hmem h.headerSize_le h.headerSize_dvd (by omega) (by decide)
        h.headerSize_ge).2 h.extensions
    rw [hbyte, hindefinite, h.headerSize_eq]
    refine ⟨(), hlen, (), (magic_iff hlen).1 h.magic_eq, _, ⟨by omega, rfl⟩, (), h.version_eq, (),
      ⟨h.baseShift_ge, h.baseShift_le⟩, (), hflags, _, ⟨by omega, rfl⟩, (),
      ⟨h.headerSize_ge, Nat.mod_eq_zero_of_dvd h.headerSize_dvd⟩, (), h.headerSize_le, _,
      ⟨by omega, rfl⟩, (), h.reserved_eq, _, ⟨by omega, rfl⟩, (), hdeclared, (), hrecords,
      header.dataRegionStart, ?_, (), ⟨hstart.le, h.dataRegionStart_le⟩, (),
      ⟨hstart.le, h.dataRegionStart_le, h.padding_zero⟩, _, ⟨h.dataRegionStart_le, rfl⟩, _,
      ⟨rfl, hknown⟩, ?_⟩
    · rw [← hstep]
      exact hstart
    · rw [hsize, ← hstep]
      rfl

/-! ### One block -/

/-- The descriptor that the constructor pushes for a block. -/
def Block.ofBlock (block : V06.Block) : Block where
  blockStart := block.blockStart
  payloadStart := block.payloadStart
  payloadLength := block.payloadLen
  payloadEnd := block.payloadEnd
  nextBlockStart := block.nextBlockStart
  keyId := block.keyId.toNat
  semantic := block.semantic.code
  physical := block.physical.code
  continuation := block.continuation
  bitWidth := block.bitWidth
  count := block.count
  payloadAlignment := block.payloadAlignment

theorem semanticValid_iff {code width : Nat} :
    semanticValid code width = true ↔
      ∃ semantic : Semantic, code = semantic.code ∧ semantic.LegalWidth width := by
  simp only [semanticValid, decide_eq_true_eq]
  constructor
  · intro h
    rcases h with ⟨rfl, hwidth⟩ | ⟨rfl, hwidth⟩ | ⟨rfl, hwidth⟩ | ⟨rfl, hwidth⟩
    · exact ⟨.unsigned, rfl, hwidth⟩
    · exact ⟨.float, rfl, hwidth⟩
    · exact ⟨.signed, rfl, hwidth⟩
    · exact ⟨.opaqueBytes, rfl, hwidth⟩
  · intro h
    obtain ⟨semantic, rfl, hwidth⟩ := h
    cases semantic <;> simp_all [Semantic.code, Semantic.LegalWidth]

theorem physicalValid_iff {code count : Nat} :
    physicalValid code count = true ↔
      ∃ physical : Physical, code = physical.code ∧ physical.LegalCount count := by
  simp only [physicalValid, decide_eq_true_eq]
  constructor
  · intro h
    rcases h with ⟨rfl, hcount⟩ | rfl
    · exact ⟨.scalar, rfl, hcount⟩
    · exact ⟨.array, rfl, trivial⟩
  · intro h
    obtain ⟨physical, rfl, hcount⟩ := h
    cases physical <;> simp_all [Physical.code, Physical.LegalCount]

theorem validateRepresentation_eq_ok_iff {semanticCode physicalCode width count : Nat} {u : Unit} :
    validateRepresentation semanticCode physicalCode width count = .ok u ↔
      (∃ semantic : Semantic, semanticCode = semantic.code ∧ semantic.LegalWidth width) ∧
        ∃ physical : Physical, physicalCode = physical.code ∧ physical.LegalCount count := by
  simp only [validateRepresentation, bind_eq_ok_iff, rejectIf_eq_ok_iff, Bool.not_eq_false,
    semanticValid_iff, physicalValid_iff]
  exact ⟨fun h => ⟨h.choose_spec.1, h.choose_spec.2⟩, fun h => ⟨(), h⟩⟩

private theorem ceilDiv_iff {bits len : Nat} :
    len = bits / 8 + (if bits % 8 = 0 then 0 else 1) ↔
      bits ≤ 8 * len ∧ 8 * len < bits + 8 := by
  split <;> omega

/-- The two canonical count forms. -/
theorem parseCount_eq_ok_iff {mem : List UInt8} (hmem : mem.length < safeBound)
    {start anchor count size : Nat} :
    parseCount mem start (AnchorFields.unpack anchor) = .ok (count, size) ↔
      (bitField anchor 9 1 = if 65535 < count then 1 else 0) ∧
        (bitField anchor 48 16 = if 65535 < count then 0 else count) ∧
        (65535 < count → leAt mem (start + 8) 8 = count ∧ start + 16 ≤ mem.length) ∧
        size = if 65535 < count then 16 else 8 := by
  have hbound := safeBound_lt
  have hbit := bitField_lt anchor 9 1
  have hinline := bitField_lt anchor 48 16
  rw [unpack_eq_bitField]
  by_cases hext : bitField anchor 9 1 = 1
  · simp only [parseCount, hext, decide_true, if_true, bind_eq_ok_iff, checkedAdd_eq_ok_iff,
      requireRange_eq_ok_iff, rejectIf_eq_ok_iff, toIndex_eq_ok_iff hmem, getUint_eq_ok_iff,
      pure_eq_ok_iff, Prod.mk.injEq, not_not, not_le]
    constructor
    · intro h
      obtain ⟨_, ⟨-, rfl⟩, -, ⟨-, hend⟩, -, hzero, _, ⟨-, rfl⟩, _, ⟨-, rfl⟩, -, hlarge, rfl, rfl⟩ := h
      rw [if_pos hlarge, if_pos hlarge, if_pos hlarge]
      exact ⟨rfl, hzero, fun _ => ⟨rfl, hend⟩, rfl⟩
    · intro h
      obtain ⟨hone, hzero, hcount, hsize⟩ := h
      have hlarge : 65535 < count := by
        by_contra hsmall
        rw [if_neg hsmall] at hone
        omega
      rw [if_pos hlarge] at hzero hsize
      obtain ⟨hvalue, hend⟩ := hcount hlarge
      exact ⟨_, ⟨by omega, rfl⟩, (), ⟨by omega, hend⟩, (), hzero, _, ⟨by omega, rfl⟩, _,
        ⟨by omega, rfl⟩, (), by omega, hvalue, hsize.symm⟩
  · have hzero : bitField anchor 9 1 = 0 := by omega
    simp only [parseCount, hzero, Nat.zero_ne_one, decide_false, Bool.false_eq_true, if_false,
      pure_eq_ok_iff, Prod.mk.injEq]
    constructor
    · intro h
      obtain ⟨rfl, rfl⟩ := h
      have hsmall : ¬ 65535 < bitField anchor 48 16 := by omega
      rw [if_neg hsmall, if_neg hsmall, if_neg hsmall]
      exact ⟨rfl, rfl, fun h => absurd h hsmall, rfl⟩
    · intro h
      obtain ⟨hform, hcount, -, hsize⟩ := h
      have hsmall : ¬ 65535 < count := by
        intro hlarge
        rw [if_pos hlarge] at hform
        omega
      rw [if_neg hsmall] at hcount hsize
      exact ⟨hcount, hsize.symm⟩

private theorem toNat_keyId (anchor : Nat) :
    (UInt16.ofNat (bitField anchor 16 16)).toNat = bitField anchor 16 16 :=
  UInt16.toNat_ofNat_of_lt' (bitField_lt _ _ _)

/-- An accepted block is canonical, and its next start is a safe integer. -/
theorem parseBlock_sound {mem : List UInt8} (hmem : mem.length < safeBound) {header : Header}
    (hglobal : GlobalHeader mem header) {start : Nat} (hstart : header.dataRegionStart ≤ start)
    {required : Option UInt16} {pushed : Block}
    (hparse : parseBlock mem header.baseShift header.baseStep header.dataRegionStart mem.length
      start (required.map UInt16.toNat) = .ok pushed) :
    ∃ block, pushed = Block.ofBlock block ∧ block.blockStart = start ∧
      BlockAt mem header block ∧ ContinuationRule required block ∧
      ¬ block.ContinuesAtEnd header ∧ block.nextBlockStart < safeBound := by
  have hend := hglobal.dataRegionEnd_eq
  have hstep := hglobal.baseStep_eq
  simp only [parseBlock, bind_eq_ok_iff, rejectIf_eq_ok_iff, checkedAdd_eq_ok_iff,
    checkedMul_eq_ok_iff, requireRange_eq_ok_iff, requireZero_eq_ok_iff hmem,
    toIndex_eq_ok_iff hmem, toSafeNumber_eq_ok_iff, getUint_eq_ok_iff, alignUp_eq_ok_iff_alignsTo,
    validateRepresentation_eq_ok_iff, pure_eq_ok_iff, unpack_eq_bitField, not_not, not_lt, not_or,
    exists_const, and_assoc, exists_and_left, exists_eq_left, exists_eq_left', Prod.exists]
    at hparse
  obtain ⟨-, hrelMod, -, -, hanchorEnd, -, -, hne, hrule, count, headerSize, hparseCount,
    ⟨semantic, hsemantic, hwidth⟩, ⟨physical, hphysical, hcount⟩, hcombined, -, payloadStart,
    hpayloadStart, -, -, -, -, hzero, hbits, -, hpayloadLe, next, hnext, -, -, -, -, hsafe,
    hcontinues, rfl⟩ := hparse
  rw [← unpack_eq_bitField] at hparseCount
  obtain ⟨hform, hinline, hextended, rfl⟩ := (parseCount_eq_ok_iff hmem).1 hparseCount
  generalize hpayloadLength : count * bitField (leAt mem start 8) 32 16 / 8 +
    (if count * bitField (leAt mem start 8) 32 16 % 8 = 0 then 0 else 1) = payloadLength at *
  obtain ⟨hlenGe, hlenLt⟩ := ceilDiv_iff.1 hpayloadLength.symm
  have hheaderEnd : start + (if 65535 < count then 16 else 8) ≤ mem.length := by
    split
    next hlarge => exact (hextended hlarge).2
    next => exact hanchorEnd
  refine ⟨⟨start, payloadStart, payloadLength, payloadStart + payloadLength, next,
    UInt16.ofNat (bitField (leAt mem start 8) 16 16), semantic, physical,
    decide (bitField (leAt mem start 8) 8 1 = 1), bitField (leAt mem start 8) 32 16, count,
    2 ^ combinedShift header (leAt mem start 8)⟩, ?_, rfl, ?_, ?_, ?_, hsafe⟩
  · simp only [Block.ofBlock, toNat_keyId, hsemantic, hphysical, combinedShift]
  · exact
      { start_ge := hstart
        start_dvd := Nat.dvd_of_mod_eq_zero hrelMod
        headerEnd_le := hend.symm ▸ hheaderEnd
        anchor :=
          { anchor_ne := hne
            semantic_eq := hsemantic
            physical_eq := hphysical
            continuation_eq := bit_eq_toNat_iff.2 rfl
            count64_eq := hform
            combinedShift_le := hcombined
            payloadAlignment_eq := rfl
            keyId_eq := (toNat_keyId _).symm
            bitWidth_eq := rfl
            inlineCount_eq := hinline }
        extendedCount := fun hext => (hextended hext).1
        legalWidth := hwidth
        legalCount := hcount
        payloadStart_aligned := hpayloadStart
        padding_zero := hzero
        payloadBits_lt := hbits
        payloadLen_ge := hlenGe
        payloadLen_lt := hlenLt
        payloadEnd_eq := rfl
        payloadEnd_le := hend.symm ▸ hpayloadLe
        nextBlockStart_aligned := by
          rw [hstep] at hnext ⊢
          exact alignUp_eq_ok_iff_alignsTo.1 hnext }
  · intro key hkey
    subst hkey
    rw [Option.map_some] at hrule
    simp only [Option.isSome_some, ne_eq, Option.some.injEq, true_and, not_not] at hrule
    exact UInt16.toNat_inj.1 ((toNat_keyId _).trans hrule.symm)
  · intro hopen
    rw [Block.ContinuesAtEnd, hend] at hopen
    exact hcontinues hopen

/-- Every canonical block with a safe next start is accepted, and pushed with
its own descriptor. -/
theorem parseBlock_complete {mem : List UInt8} (hmem : mem.length < safeBound) {header : Header}
    (hglobal : GlobalHeader mem header) {required : Option UInt16} {block : V06.Block}
    (h : BlockAt mem header block) (hrule : ContinuationRule required block)
    (hcontinues : ¬ block.ContinuesAtEnd header) (hsafe : block.nextBlockStart < safeBound) :
    parseBlock mem header.baseShift header.baseStep header.dataRegionStart mem.length
      block.blockStart (required.map UInt16.toNat) = .ok (Block.ofBlock block) := by
  have hbound := safeBound_lt
  have hend := hglobal.dataRegionEnd_eq
  have ha := h.anchor
  have hcontinuation := bit_eq_toNat_iff.1 ha.continuation_eq
  have hpayloadLen := ceilDiv_iff.2 ⟨h.payloadLen_ge, h.payloadLen_lt⟩
  have halign : 2 ^ (header.baseShift + bitField (leAt mem block.blockStart 8) 10 6) =
      block.payloadAlignment := ha.payloadAlignment_eq.symm
  have hheaderLe : block.blockStart + (if 65535 < block.count then 16 else 8) ≤ mem.length :=
    hend ▸ h.headerEnd_le
  have hanchorEnd : block.blockStart + 8 ≤ mem.length := by
    split at hheaderLe <;> omega
  have hcountEnd : 65535 < block.count → block.blockStart + 16 ≤ mem.length := by
    intro hlarge
    rwa [if_pos hlarge] at hheaderLe
  have hpayloadEnd := h.payloadEnd_eq
  have hpayloadLe : block.payloadEnd ≤ mem.length := hend ▸ h.payloadEnd_le
  have hcount := (parseCount_eq_ok_iff hmem).2 ⟨ha.count64_eq, ha.inlineCount_eq,
    fun hext => ⟨h.extendedCount hext, hcountEnd hext⟩, rfl⟩
  have hpayloadStart : alignUp block.headerEnd block.payloadAlignment = .ok block.payloadStart := by
    rw [ha.payloadAlignment_eq, alignUp_eq_ok_iff_alignsTo, ← ha.payloadAlignment_eq]
    exact h.payloadStart_aligned
  have hnext : alignUp block.payloadEnd header.baseStep = .ok block.nextBlockStart := by
    rw [hglobal.baseStep_eq, alignUp_eq_ok_iff_alignsTo, ← hglobal.baseStep_eq]
    exact h.nextBlockStart_aligned
  have hstartLe := h.payloadStart_aligned.le
  simp only [parseBlock, bind_eq_ok_iff, rejectIf_eq_ok_iff, checkedAdd_eq_ok_iff,
    checkedMul_eq_ok_iff, requireRange_eq_ok_iff, requireZero_eq_ok_iff hmem,
    toIndex_eq_ok_iff hmem, toSafeNumber_eq_ok_iff, getUint_eq_ok_iff,
    validateRepresentation_eq_ok_iff, pure_eq_ok_iff, not_not, not_lt, not_or]
  refine ⟨(), ⟨Nat.mod_eq_zero_of_dvd (h.baseStep_dvd_blockStart hglobal),
      Nat.mod_eq_zero_of_dvd h.start_dvd⟩, _, ⟨by omega, rfl⟩, (), ⟨by omega, hanchorEnd⟩, _,
    ⟨by omega, rfl⟩, _, ⟨hanchorEnd, rfl⟩, (), ha.anchor_ne, (), ?_, _, hcount, ?_⟩
  · -- The preceding block's key, when it continues, is this block's key.
    rw [unpack_eq_bitField, ha.keyId_eq]
    intro hrejected
    obtain ⟨hsome, hne⟩ := hrejected
    cases required with
    | none => cases hsome
    | some key =>
        apply hne
        rw [← hrule key rfl]
        rfl
  · simp only [unpack_eq_bitField, ha.bitWidth_eq, hcontinuation, ha.keyId_eq, halign]
    refine ⟨(), ⟨⟨_, ha.semantic_eq, h.legalWidth⟩, _, ha.physical_eq, h.legalCount⟩, (),
      ha.combinedShift_le, _, ⟨by omega, rfl⟩, _, hpayloadStart, (), ⟨hstartLe, by omega⟩, (),
      ⟨hstartLe, by omega, h.padding_zero⟩, _, ⟨h.payloadBits_lt, rfl⟩, block.payloadEnd, ?_, (),
      hpayloadLe, _, hnext, _, ⟨by omega, rfl⟩, _, ⟨by omega, rfl⟩, block.payloadLen, ?_, _,
      ⟨hpayloadLe, rfl⟩, _, ⟨hsafe, rfl⟩, (), ?_, ?_⟩
    · rw [← hpayloadLen]
      exact ⟨by omega, hpayloadEnd⟩
    · rw [← hpayloadLen]
      exact ⟨by omega, rfl⟩
    · rw [Block.ContinuesAtEnd, hend] at hcontinues
      exact hcontinues
    · simp only [Block.ofBlock, ha.semantic_eq, ha.physical_eq]

/-! ### The block loop and the constructor -/

/-- Every next start is a safe integer. -/
def SafeBlocks (blocks : List V06.Block) : Prop :=
  ∀ block ∈ blocks, block.nextBlockStart < safeBound

theorem safeBlocks_cons {block : V06.Block} {rest : List V06.Block} :
    SafeBlocks (block :: rest) ↔ block.nextBlockStart < safeBound ∧ SafeBlocks rest := by
  simp [SafeBlocks]

/-- One iteration of the block loop that succeeds. -/
private theorem blockLoop_succ_eq_ok_iff {mem : List UInt8} (hmem : mem.length < safeBound)
    {baseShift baseStep dataStart fuel start : Nat} {required : Option Nat} {pushed : List Block}
    (hstart : start < mem.length) :
    blockLoop mem baseShift baseStep dataStart mem.length (fuel + 1) start required = .ok pushed ↔
      ∃ block, parseBlock mem baseShift baseStep dataStart mem.length start required = .ok block ∧
        if block.payloadEnd = mem.length then pushed = [block]
        else block.nextBlockStart < mem.length ∧
          (block.payloadEnd ≤ block.nextBlockStart ∧ block.nextBlockStart ≤ mem.length ∧
            ZeroOn mem block.payloadEnd block.nextBlockStart) ∧
          ∃ rest, blockLoop mem baseShift baseStep dataStart mem.length fuel block.nextBlockStart
              (if block.continuation then some block.keyId else none) = .ok rest ∧
            pushed = block :: rest := by
  rw [blockLoop, if_pos hstart, bind_eq_ok_iff]
  apply exists_congr
  intro block
  apply and_congr_right
  intro _
  by_cases hlast : block.payloadEnd = mem.length
  · rw [if_pos hlast, if_pos hlast, pure_eq_ok_iff, eq_comm]
  · rw [if_neg hlast, if_neg hlast]
    simp only [bind_eq_ok_iff, rejectIf_eq_ok_iff, requireZero_eq_ok_iff hmem, pure_eq_ok_iff,
      not_le]
    constructor
    · intro h
      obtain ⟨-, hinside, -, hzero, rest, hrest, rfl⟩ := h
      exact ⟨hinside, hzero, rest, hrest, rfl⟩
    · intro h
      obtain ⟨hinside, hzero, rest, hrest, rfl⟩ := h
      exact ⟨(), hinside, (), hzero, rest, hrest, rfl⟩

private theorem continuationKey_ofBlock (block : V06.Block) :
    (if (Block.ofBlock block).continuation then some (Block.ofBlock block).keyId else none) =
      block.continuationKey.map UInt16.toNat := by
  unfold V06.Block.continuationKey Block.ofBlock
  cases block.continuation <;> rfl

/-- The block loop accepts the block sequences whose next starts are safe. -/
theorem blockLoop_eq_ok_iff {mem : List UInt8} (hmem : mem.length < safeBound) {header : Header}
    (hglobal : GlobalHeader mem header) {fuel start : Nat} {required : Option UInt16}
    {pushed : List Block} (hfuel : mem.length ≤ fuel + start)
    (hge : header.dataRegionStart ≤ start) (hstart : start < mem.length) :
    blockLoop mem header.baseShift header.baseStep header.dataRegionStart mem.length fuel start
        (required.map UInt16.toNat) = .ok pushed ↔
      ∃ blocks, BlockSequence mem header required start blocks ∧ SafeBlocks blocks ∧
        pushed = blocks.map Block.ofBlock := by
  have hend := hglobal.dataRegionEnd_eq
  induction fuel generalizing start required pushed with
  | zero => omega
  | succ fuel ih =>
      rw [blockLoop_succ_eq_ok_iff hmem hstart]
      constructor
      · intro h
        obtain ⟨_, hparse, hrest⟩ := h
        obtain ⟨block, rfl, rfl, hblock, hrule, hcontinues, hsafe⟩ :=
          parseBlock_sound hmem hglobal hge hparse
        obtain ⟨hfirst, hsecond, hthird⟩ := hblock.advances
        by_cases hlast : block.payloadEnd = mem.length
        · have hlast' : (Block.ofBlock block).payloadEnd = mem.length := hlast
          rw [if_pos hlast'] at hrest
          refine ⟨[block], ?_, safeBlocks_cons.2 ⟨hsafe, List.forall_mem_nil _⟩, hrest⟩
          refine BlockSequence.last hblock hrule (hlast.trans hend.symm) ?_
          by_contra hopen
          exact hcontinues ⟨Bool.eq_true_of_not_eq_false hopen, Or.inl (hlast.trans hend.symm)⟩
        · have hlast' : ¬ (Block.ofBlock block).payloadEnd = mem.length := hlast
          rw [if_neg hlast'] at hrest
          obtain ⟨hinside, ⟨-, -, hzero⟩, rest, hloop, rfl⟩ := hrest
          change block.nextBlockStart < mem.length at hinside
          rw [continuationKey_ofBlock] at hloop
          obtain ⟨blocks, htail, hall, rfl⟩ :=
            (@ih block.nextBlockStart _ _ (by omega) (by omega) hinside).1 hloop
          exact ⟨block :: blocks,
            BlockSequence.next hblock hrule (by omega) hzero htail,
            safeBlocks_cons.2 ⟨hsafe, hall⟩, rfl⟩
      · intro h
        obtain ⟨blocks, hsequence, hall, rfl⟩ := h
        cases hsequence with
        | @last _ block hblock hrule hends hclosed =>
            have hsafe := (safeBlocks_cons.1 hall).1
            refine ⟨_, parseBlock_complete hmem hglobal hblock hrule ?_ hsafe, ?_⟩
            · intro hopen
              exact absurd hopen.1 (by rw [hclosed]; decide)
            · rw [if_pos (show (Block.ofBlock block).payloadEnd = mem.length from hends.trans hend)]
              rfl
        | @next _ block rest hblock hrule hinside hzero htail =>
            obtain ⟨hfirst, hsecond, hthird⟩ := hblock.advances
            obtain ⟨hsafe, hsafeRest⟩ := safeBlocks_cons.1 hall
            refine ⟨_, parseBlock_complete hmem hglobal hblock hrule ?_ hsafe, ?_⟩
            · intro hopen
              rcases hopen.2 with hends | hends <;> omega
            · have hlast : ¬ (Block.ofBlock block).payloadEnd = mem.length := by
                change ¬ block.payloadEnd = mem.length
                omega
              rw [if_neg hlast, continuationKey_ofBlock]
              refine ⟨hend ▸ hinside, ⟨hthird, (hend ▸ hinside).le, hzero⟩, rest.map Block.ofBlock,
                ?_, rfl⟩
              exact (@ih block.nextBlockStart _ _ (by omega) (by omega) (hend ▸ hinside)).2
                ⟨rest, htail, hsafeRest, rfl⟩

private theorem blockLoop_past_end {mem : List UInt8} {baseShift baseStep dataStart dataEnd : Nat}
    {fuel start : Nat} {required : Option Nat} (hstart : dataEnd ≤ start) :
    blockLoop mem baseShift baseStep dataStart dataEnd fuel start required = .ok [] := by
  cases fuel with
  | zero => rfl
  | succ fuel => rw [blockLoop, if_neg (by omega)]

/-- The view of a stream with this header and these blocks. -/
def VBufV06.ofBlocks (mem : List UInt8) (header : Header) (blocks : List V06.Block) : VBufV06 :=
  { VBufV06.ofHeader mem header with validatedBlocks := blocks.map Block.ofBlock }

/-- The constructor accepts the well-formed streams whose next starts are safe
integers, and shows their descriptors. -/
theorem construct_eq_ok_iff {mem : List UInt8} (hmem : mem.length < safeBound) {view : VBufV06} :
    VBufV06.construct mem = .ok view ↔
      ∃ header blocks, WellFormed mem header blocks ∧ SafeBlocks blocks ∧
        view = VBufV06.ofBlocks mem header blocks := by
  have hbound := safeBound_lt
  simp only [VBufV06.construct, bind_eq_ok_iff, pure_eq_ok_iff, parseHeader_eq_ok_iff hmem]
  constructor
  · intro h
    obtain ⟨_, ⟨header, hglobal, rfl⟩, pushed, hloop, rfl⟩ := h
    have hend := hglobal.dataRegionEnd_eq
    have hsize := hglobal.dataRegionSize_eq
    change blockLoop mem header.baseShift header.baseStep header.dataRegionStart
      (header.dataRegionStart + header.dataRegionSize) mem.length header.dataRegionStart none =
        .ok pushed at hloop
    rw [hsize, hend] at hloop
    rcases Nat.lt_or_ge header.dataRegionStart mem.length with hstart | hempty
    · obtain ⟨blocks, hsequence, hall, rfl⟩ := (@blockLoop_eq_ok_iff _ hmem _ hglobal mem.length
        header.dataRegionStart none _ (by omega) (Nat.le_refl _) hstart).1 hloop
      exact ⟨header, blocks, ⟨by omega, hglobal, Or.inr hsequence⟩, hall, rfl⟩
    · rw [blockLoop_past_end hempty] at hloop
      obtain rfl := Except.ok.inj hloop
      exact ⟨header, [], ⟨by omega, hglobal, Or.inl ⟨by omega, rfl⟩⟩, List.forall_mem_nil _, rfl⟩
  · intro h
    obtain ⟨header, blocks, hwell, hall, rfl⟩ := h
    have hend := hwell.global.dataRegionEnd_eq
    have hsize := hwell.global.dataRegionSize_eq
    refine ⟨_, ⟨header, hwell.global, rfl⟩, blocks.map Block.ofBlock, ?_, rfl⟩
    change blockLoop mem header.baseShift header.baseStep header.dataRegionStart
      (header.dataRegionStart + header.dataRegionSize) mem.length header.dataRegionStart none = _
    rw [hsize, hend]
    rcases hwell.region with ⟨hzero, rfl⟩ | hsequence
    · exact blockLoop_past_end (by omega)
    · exact (@blockLoop_eq_ok_iff _ hmem _ hwell.global mem.length header.dataRegionStart none _
        (by omega) (Nat.le_refl _) (hend ▸ hsequence.start_lt)).2 ⟨blocks, hsequence, hall, rfl⟩

end VBuf.TypeScript
