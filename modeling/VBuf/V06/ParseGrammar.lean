import VBuf.V06.Grammar
import VBuf.V06.Parse

/-!
# The reader accepts exactly the grammar

Each reader helper gets one inversion lemma that says when it succeeds and with
what; the loops are then related to the inductive predicates by induction on the
fuel, and the whole of `parseV06` to `WellFormed`.
-/

namespace VBuf.V06

open VBuf.Lib

theorem readLe_eq_ok_iff {width : Nat} {detail : String} {bytes : List UInt8} {offset value : Nat} :
    readLe width detail bytes offset = .ok value ↔
      offset + width ≤ bytes.length ∧ value = leAt bytes offset width := by
  have hsub : offset + width - offset = width := by omega
  unfold readLe leAt
  cases hrange : range? bytes offset (offset + width) with
  | none =>
      have hnone := range?_eq_none_iff.1 hrange
      constructor
      · intro h
        cases h
      · rintro ⟨hfits, -⟩
        exact absurd ⟨by omega, hfits⟩ hnone
  | some raw =>
      obtain ⟨-, hfits, rfl⟩ := range?_eq_some_iff.1 hrange
      rw [hsub]
      constructor
      · intro h
        exact ⟨hfits, (Except.ok.inj h).symm⟩
      · rintro ⟨-, rfl⟩
        rfl

theorem requireZero_eq_ok_iff {bytes : List UInt8} {start stop : Nat} {u : Unit} :
    requireZero bytes start stop = .ok u ↔
      start ≤ stop ∧ stop ≤ bytes.length ∧ ZeroOn bytes start stop := by
  unfold requireZero
  cases hrange : range? bytes start stop with
  | none =>
      have hnone := range?_eq_none_iff.1 hrange
      constructor
      · intro h
        cases h
      · rintro ⟨hle, hstop, -⟩
        exact absurd ⟨hle, hstop⟩ hnone
  | some range =>
      obtain ⟨hle, hstop, rfl⟩ := range?_eq_some_iff.1 hrange
      have hlen : (slice bytes start (stop - start)).length = stop - start :=
        slice_length_of_le (by omega)
      have hzero : (slice bytes start (stop - start)).findIdx? (fun byte => byte != 0) = none ↔
          ZeroOn bytes start stop := by
        rw [zeroOn_iff_slice hle hstop, List.findIdx?_eq_none_iff, List.eq_replicate_iff]
        simp [hlen]
      cases hfind : (slice bytes start (stop - start)).findIdx? (fun byte => byte != 0) with
      | none =>
          simp only [hfind]
          exact iff_of_true trivial ⟨hle, hstop, hzero.1 hfind⟩
      | some relative =>
          simp only [hfind, bind_eq_ok_iff]
          refine iff_of_false ?_ ?_
          · rintro ⟨offset, -, h⟩
            cases h
          · rintro ⟨-, -, hall⟩
            rw [hzero.2 hall] at hfind
            cases hfind

theorem semanticOfCode?_eq_some_iff {code bitWidth : Nat} {semantic : Semantic} :
    semanticOfCode? code bitWidth = some semantic ↔
      code = semantic.code ∧ semantic.LegalWidth bitWidth := by
  unfold semanticOfCode?
  split
  case h_5 => cases semantic <;> simp_all [Semantic.code]
  all_goals
    rw [Option.ite_none_right_eq_some]
    cases semantic <;> simp [Semantic.code, Semantic.LegalWidth]

theorem physicalOfCode?_eq_some_iff {code count : Nat} {physical : Physical} :
    physicalOfCode? code count = some physical ↔
      code = physical.code ∧ physical.LegalCount count := by
  unfold physicalOfCode?
  split
  case h_3 => cases physical <;> simp_all [Physical.code]
  all_goals cases physical <;> simp [Physical.code, Physical.LegalCount]

theorem validateRepresentation_eq_ok_iff {semanticCode physicalCode bitWidth count offset : Nat}
    {semantic : Semantic} {physical : Physical} :
    validateRepresentation semanticCode physicalCode bitWidth count offset =
        .ok (semantic, physical) ↔
      (semanticCode = semantic.code ∧ semantic.LegalWidth bitWidth) ∧
        physicalCode = physical.code ∧ physical.LegalCount count := by
  rw [← semanticOfCode?_eq_some_iff, ← physicalOfCode?_eq_some_iff]
  simp only [validateRepresentation, bind_eq_ok_iff, okOr_eq_ok_iff, pure_eq_ok_iff,
    Prod.mk.injEq]
  constructor
  · rintro ⟨a, ha, b, hb, rfl, rfl⟩
    exact ⟨ha, hb⟩
  · rintro ⟨ha, hb⟩
    exact ⟨_, ha, _, hb, rfl, rfl⟩

/-! ### The global header -/

private theorem flags_eq_zero_iff {flags : Nat} (hflags : flags < 2 ^ 16) :
    (flags &&& 0xfffe = 0 ∧ flags &&& 1 = 0) ↔ flags = 0 := by
  constructor
  · rintro ⟨hhigh, hlow⟩
    have hall : flags &&& (0xfffe ||| 1) = 0 := by
      rw [Nat.and_or_distrib_left, hhigh, hlow, Nat.or_self]
    rw [show (0xfffe ||| 1 : Nat) = 2 ^ 16 - 1 by rfl, Nat.and_two_pow_sub_one_eq_mod,
      Nat.mod_eq_of_lt hflags] at hall
    exact hall
  · rintro rfl
    simp

/-- The global flags hold at most the `Indefinite` bit. -/
private theorem globalFlags_iff {flags : Nat} (hflags : flags < 2 ^ 8) {indefinite : Bool} :
    (¬ (flags &&& 0xfe ≠ 0) ∧ decide (flags &&& 1 ≠ 0) = indefinite) ↔
      flags = indefinite.toNat := by
  constructor
  · rintro ⟨hhigh, hlow⟩
    have hall : flags = flags &&& 1 := by
      conv_lhs => rw [← Nat.mod_eq_of_lt hflags, ← Nat.and_two_pow_sub_one_eq_mod,
        show (2 ^ 8 - 1 : Nat) = 0xfe ||| 1 by rfl, Nat.and_or_distrib_left,
        not_not.1 hhigh, Nat.zero_or]
    rw [Nat.and_one_is_mod] at hall hlow
    rcases Nat.mod_two_eq_zero_or_one flags with h | h <;> rw [h] at hall hlow <;>
      subst hall <;> cases indefinite <;> simp_all
  · rintro rfl
    cases indefinite <;> decide

/-- What one accepted extension record says. -/
theorem extensionStep_eq_ok_iff {bytes : List UInt8} {headerSize offset extensionEnd : Nat}
    (hsize : headerSize < u64Bound) (hfits : offset + 8 ≤ bytes.length) :
    extensionStep bytes headerSize offset = .ok extensionEnd ↔
      leAt bytes (offset + 2) 2 = 0 ∧ 8 ≤ leAt bytes (offset + 4) 4 ∧
        8 ∣ leAt bytes (offset + 4) 4 ∧ extensionEnd = offset + leAt bytes (offset + 4) 4 ∧
        extensionEnd ≤ headerSize := by
  have hflags : leAt bytes (offset + 2) 2 < 2 ^ 16 := leAt_lt
  simp only [extensionStep, readU16, readU32, bind_eq_ok_iff, readLe_eq_ok_iff,
    rejectIf_eq_ok_iff, checkedAdd_eq_ok_iff, pure_eq_ok_iff]
  constructor
  · rintro ⟨-, -, flags, ⟨-, rfl⟩, size, ⟨-, rfl⟩, -, hframing, last, ⟨-, rfl⟩, -, hle, -, hbit, rfl⟩
    simp only [not_or, not_not, not_lt] at hframing hle hbit
    obtain ⟨hhigh, hge, hmod⟩ := hframing
    exact ⟨(flags_eq_zero_iff hflags).1 ⟨hhigh, hbit⟩, hge, Nat.dvd_of_mod_eq_zero hmod, rfl, hle⟩
  · rintro ⟨hzero, hge, hdvd, rfl, hle⟩
    refine ⟨_, ⟨by omega, rfl⟩, _, ⟨by omega, rfl⟩, _, ⟨by omega, rfl⟩, (), ?_, _,
      ⟨by omega, rfl⟩, (), by omega, (), ?_, rfl⟩
    · rw [hzero]
      simp only [Nat.zero_and, ne_eq, not_true_eq_false, false_or]
      omega
    · simp [hzero]

/-- The extension loop ends at `headerSize` exactly on contiguous records.  The
remaining distance is fuel enough, as each record takes at least eight bytes. -/
theorem extensionLoop_eq_ok_iff {bytes : List UInt8} {headerSize : Nat}
    (hsize : headerSize < u64Bound) (hlength : headerSize ≤ bytes.length)
    (hdvd : 8 ∣ headerSize) {fuel offset : Nat} (hfuel : headerSize ≤ fuel + offset)
    (hoffset : 8 ∣ offset) (hle : offset ≤ headerSize) :
    extensionLoop bytes headerSize fuel offset = .ok headerSize ↔
      ExtensionRecords bytes headerSize offset := by
  induction fuel generalizing offset with
  | zero =>
      have heq : offset = headerSize := by omega
      subst heq
      exact iff_of_true rfl ExtensionRecords.done
  | succ fuel ih =>
      rcases Nat.lt_or_eq_of_le hle with hlt | rfl
      · have hfits : offset + 8 ≤ bytes.length := by omega
        rw [extensionLoop, if_pos hlt]
        simp only [bind_eq_ok_iff, extensionStep_eq_ok_iff hsize hfits]
        constructor
        · rintro ⟨_, ⟨hflags, hge, hsizedvd, rfl, hend⟩, hrest⟩
          exact ExtensionRecords.record hflags rfl hge hsizedvd hend
            ((ih (by omega) (Nat.dvd_add hoffset hsizedvd) hend).1 hrest)
        · intro hrecords
          cases hrecords with
          | done => omega
          | record hflags hsizeeq hge hsizedvd hend hrest =>
              subst hsizeeq
              exact ⟨_, ⟨hflags, hge, hsizedvd, rfl, hend⟩,
                (ih (by omega) (Nat.dvd_add hoffset hsizedvd) hend).2 hrest⟩
      · rw [extensionLoop, if_neg (Nat.lt_irrefl _)]
        exact iff_of_true rfl ExtensionRecords.done

theorem parseRegionEnd_eq_ok_iff {bytes : List UInt8} {indefinite : Bool}
    {dataRegionStart declaredSize regionEnd : Nat} (hlength : bytes.length < u64Bound) :
    parseRegionEnd bytes indefinite dataRegionStart declaredSize = .ok regionEnd ↔
      regionEnd = bytes.length ∧
        (indefinite = false → dataRegionStart + declaredSize = bytes.length) := by
  cases indefinite with
  | true =>
      show (pure bytes.length : Except Error Nat) = .ok regionEnd ↔ _
      rw [pure_eq_ok_iff]
      simp [eq_comm]
  | false =>
      simp only [parseRegionEnd, Bool.false_eq_true, if_false, bind_eq_ok_iff,
        checkedAdd_eq_ok_iff, rejectIf_eq_ok_iff, pure_eq_ok_iff, not_not]
      constructor
      · rintro ⟨_, ⟨-, rfl⟩, -, heq, rfl⟩
        exact ⟨heq, fun _ => heq⟩
      · rintro ⟨rfl, hsum⟩
        have heq := hsum trivial
        exact ⟨_, ⟨by omega, rfl⟩, (), heq, heq⟩

theorem leAt_one {bytes : List UInt8} {offset : Nat} (hfits : offset < bytes.length) :
    leAt bytes offset 1 = (bytes.getD offset 0).toNat := by
  have hslice : slice bytes offset 1 = [bytes[offset]] := by
    rw [slice, List.drop_eq_getElem_cons hfits, List.take_succ_cons, List.take_zero]
  rw [leAt, hslice, List.getD_eq_getElem _ _ hfits]
  simp [ofLeBytes]

/-- A rejected size declaration: an indefinite stream declares no size, a known
one declares the region. -/
theorem declaredSize_iff {indefinite : Bool} {declared start size total : Nat}
    (hsize : start + size = total) :
    (¬ (indefinite = true ∧ declared ≠ 0) ∧ (indefinite = false → start + declared = total)) ↔
      declared = if indefinite then 0 else size := by
  cases indefinite with
  | true => simp
  | false =>
      simp only [Bool.false_eq_true, false_and, not_false_eq_true, true_and, true_implies, if_false]
      omega

/-- The header reader accepts exactly the global headers. -/
theorem parseHeader_eq_ok_iff {bytes : List UInt8} {header : Header} :
    parseHeader bytes = .ok header ↔ bytes.length < u64Bound ∧ GlobalHeader bytes header := by
  simp only [parseHeader, readU16, readU32, readU64, bind_eq_ok_iff, readLe_eq_ok_iff,
    rejectIf_eq_ok_iff, requireZero_eq_ok_iff, pure_eq_ok_iff, not_not, not_lt, not_le, not_or]
  constructor
  · rintro ⟨-, hcomplete, -, hmagic, fileVersion, ⟨-, rfl⟩, -, hversion, -, hshift, -, hflags,
      headerSize, ⟨-, rfl⟩, -, hheaderSize, -, hheaderLe, reserved, ⟨-, rfl⟩, -, hreserved,
      declaredSize, ⟨-, rfl⟩, -, hdeclared, extensionEnd, hextensions, -, hfill, dataRegionStart,
      hstart, -, -, -, hlength, -, hstartLe, -, ⟨-, -, hzero⟩, dataRegionEnd, hend, rfl⟩
    obtain ⟨rfl, hknown⟩ := (parseRegionEnd_eq_ok_iff hlength).1 hend
    have hlen : 24 ≤ bytes.length := hcomplete
    have hbyte := @leAt_one bytes 8 (by omega)
    have hflag := @leAt_one bytes 9 (by omega)
    have hsize : leAt bytes 10 2 < 2 ^ 16 := leAt_lt
    subst hfill
    have hrecords := (extensionLoop_eq_ok_iff (by unfold u64Bound; omega) hheaderLe
      (Nat.dvd_of_mod_eq_zero hheaderSize.2) (by omega) (by decide) hheaderSize.1).1 hextensions
    have hstartPos := (alignUp_eq_ok_iff_alignsTo (by omega)).1 hstart
    have hindefinite := (globalFlags_iff (bytes.getD 9 0).toNat_lt).1 ⟨not_not.2 hflags, rfl⟩
    have hregion : dataRegionStart + (bytes.length - dataRegionStart) = bytes.length := by omega
    exact ⟨hlength,
      { complete := hcomplete
        magic_eq := hmagic
        version_eq := hversion
        baseShift_eq := hbyte
        baseShift_ge := hshift.1
        baseShift_le := hshift.2
        baseStep_eq := rfl
        flags_eq := hflag.trans hindefinite
        headerSize_eq := rfl
        headerSize_ge := hheaderSize.1
        headerSize_dvd := Nat.dvd_of_mod_eq_zero hheaderSize.2
        headerSize_le := hheaderLe
        reserved_eq := hreserved
        extensions := hrecords
        dataRegionStart_aligned := hstartPos
        dataRegionStart_le := hstartLe
        padding_zero := hzero
        dataRegionEnd_eq := rfl
        dataRegionSize_eq := hregion
        declaredSize_eq := (declaredSize_iff hregion).1 ⟨hdeclared, hknown⟩ }⟩
  · rintro ⟨hlength, h⟩
    have hlen : 24 ≤ bytes.length := h.complete
    have hbyte := (@leAt_one bytes 8 (by omega)).symm.trans h.baseShift_eq
    have hflag := (@leAt_one bytes 9 (by omega)).symm.trans h.flags_eq
    have hshift := h.baseShift_le
    have hregion : header.dataRegionStart + header.dataRegionSize = bytes.length :=
      h.dataRegionSize_eq.trans h.dataRegionEnd_eq
    obtain ⟨hflags, hindefinite⟩ := (globalFlags_iff (bytes.getD 9 0).toNat_lt).2 hflag
    obtain ⟨hdeclared, hknown⟩ := (declaredSize_iff hregion).2 h.declaredSize_eq
    have hstep := h.baseStep_eq
    have hrecords : extensionLoop bytes header.headerSize header.headerSize minHeaderSize =
        .ok header.headerSize :=
      (extensionLoop_eq_ok_iff (Nat.lt_of_le_of_lt h.headerSize_le hlength) h.headerSize_le
        h.headerSize_dvd (by omega) (by decide) h.headerSize_ge).2 h.extensions
    rw [hbyte, hindefinite, h.headerSize_eq]
    refine ⟨(), h.complete, (), h.magic_eq, _, ⟨by omega, rfl⟩, (), h.version_eq, (),
      ⟨h.baseShift_ge, h.baseShift_le⟩, (), not_not.1 hflags, _, ⟨by omega, rfl⟩, (),
      ⟨h.headerSize_ge, Nat.mod_eq_zero_of_dvd h.headerSize_dvd⟩, (), h.headerSize_le, _,
      ⟨by omega, rfl⟩, (), h.reserved_eq, _, ⟨by omega, rfl⟩, (), hdeclared, _, hrecords, (), rfl,
      header.dataRegionStart, ?_, (), ?_, (), hlength, (), h.dataRegionStart_le, (),
      ⟨h.dataRegionStart_aligned.le, h.dataRegionStart_le, h.padding_zero⟩, _,
      (parseRegionEnd_eq_ok_iff hlength).2 ⟨rfl, hknown⟩, ?_⟩
    · rw [alignUp_eq_ok_iff_alignsTo (by omega), ← hstep]
      exact h.dataRegionStart_aligned
    · rw [← hstep]
      exact Nat.mod_eq_zero_of_dvd h.dataRegionStart_aligned.dvd
    · have hsize : bytes.length - header.dataRegionStart = header.dataRegionSize := by omega
      rw [hsize, ← hstep, ← h.dataRegionEnd_eq]

/-! ### One block -/

/-- The reader's field extraction as the grammar's bit fields. -/
theorem unpack_eq_bitField (anchor : Nat) :
    AnchorFields.unpack anchor =
      { semanticCode := bitField anchor 0 4
        physicalCode := bitField anchor 4 4
        continuation := decide (bitField anchor 8 1 = 1)
        count64 := decide (bitField anchor 9 1 = 1)
        payloadShift := bitField anchor 10 6
        keyId := bitField anchor 16 16
        bitWidth := bitField anchor 32 16
        inlineCount := bitField anchor 48 16 } := by
  rw [AnchorFields.unpack_eq]
  simp [bitField]

theorem bit_eq_toNat_iff {word low : Nat} {flag : Bool} :
    bitField word low 1 = flag.toNat ↔ decide (bitField word low 1 = 1) = flag := by
  have hlt := bitField_lt word low 1
  cases flag with
  | true => simp
  | false =>
      simp
      omega

theorem bit_eq_ite_iff {word low : Nat} {p : Prop} [Decidable p] :
    (bitField word low 1 = if p then 1 else 0) ↔ decide (bitField word low 1 = 1) = decide p := by
  rw [← bit_eq_toNat_iff]
  by_cases hp : p <;> simp [hp]

private theorem ceilDiv_iff {bits len : Nat} :
    len = bits / 8 + (if bits % 8 ≠ 0 then 1 else 0) ↔
      bits ≤ 8 * len ∧ 8 * len < bits + 8 := by
  split <;> omega

private theorem keyId_iff {code : Nat} {key : UInt16} (hcode : code < 2 ^ 16) :
    UInt16.ofNat code = key ↔ code = key.toNat := by
  constructor
  · rintro rfl
    exact (UInt16.toNat_ofNat_of_lt' hcode).symm
  · rintro rfl
    exact UInt16.ofNat_toNat

/-- The two canonical count forms. -/
theorem parseCount_eq_ok_iff {bytes : List UInt8} {regionEnd start anchor count size : Nat}
    (hlength : bytes.length < u64Bound) (hregion : regionEnd = bytes.length) :
    parseCount bytes regionEnd start (AnchorFields.unpack anchor) = .ok (count, size) ↔
      (bitField anchor 9 1 = if 65535 < count then 1 else 0) ∧
        (bitField anchor 48 16 = if 65535 < count then 0 else count) ∧
        (65535 < count → leAt bytes (start + 8) 8 = count ∧ start + 16 ≤ regionEnd) ∧
        size = if 65535 < count then 16 else 8 := by
  have hbit := bitField_lt anchor 9 1
  have hinline := bitField_lt anchor 48 16
  rw [unpack_eq_bitField]
  simp only [parseCount, readU64]
  by_cases hext : bitField anchor 9 1 = 1
  · simp only [hext, decide_true, if_true, bind_eq_ok_iff, checkedAdd_eq_ok_iff,
      rejectIf_eq_ok_iff, readLe_eq_ok_iff, pure_eq_ok_iff, Prod.mk.injEq, not_lt, not_not, not_le]
    constructor
    · rintro ⟨_, ⟨-, rfl⟩, -, hend, -, hzero, _, ⟨-, rfl⟩, _, ⟨-, rfl⟩, -, hlarge, rfl, rfl⟩
      rw [if_pos hlarge, if_pos hlarge, if_pos hlarge]
      exact ⟨rfl, hzero, fun _ => ⟨rfl, hend⟩, rfl⟩
    · intro h
      obtain ⟨hone, hzero, hcount, hsize⟩ := h
      have hlarge : 65535 < count := by
        by_contra hsmall
        rw [if_neg hsmall] at hone
        omega
      rw [if_pos hlarge] at hzero hsize
      obtain ⟨hvalue, hend⟩ := hcount hlarge
      exact ⟨_, ⟨by omega, rfl⟩, (), hend, (), hzero, _, ⟨by omega, rfl⟩, _, ⟨by omega, rfl⟩, (),
        by omega, hvalue, hsize.symm⟩
  · have hzero : bitField anchor 9 1 = 0 := by omega
    simp only [hzero, Nat.zero_ne_one, decide_false, Bool.false_eq_true, if_false, pure_eq_ok_iff,
      Prod.mk.injEq]
    constructor
    · rintro ⟨rfl, rfl⟩
      have hsmall : ¬ 65535 < bitField anchor 48 16 := by omega
      rw [if_neg hsmall, if_neg hsmall, if_neg hsmall]
      exact ⟨rfl, rfl, fun h => absurd h hsmall, rfl⟩
    · rintro ⟨hform, hcount, -, hsize⟩
      have hsmall : ¬ 65535 < count := by
        intro hlarge
        rw [if_pos hlarge] at hform
        omega
      rw [if_neg hsmall] at hcount hsize
      exact ⟨hcount, hsize.symm⟩

/-- The reader's last check on a block: a final one must not continue. -/
def Block.ContinuesAtEnd (header : Header) (block : Block) : Prop :=
  block.continuation = true ∧
    (block.payloadEnd = header.dataRegionEnd ∨ header.dataRegionEnd ≤ block.nextBlockStart)

/-- An accepted block is canonical. -/
theorem parseBlock_sound {bytes : List UInt8} {header : Header} {start : Nat}
    {required : Option UInt16} {block : Block} (hlength : bytes.length < u64Bound)
    (hglobal : GlobalHeader bytes header) (hstart : header.dataRegionStart ≤ start)
    (hparse : parseBlock bytes header start required = .ok block) :
    block.blockStart = start ∧ BlockAt bytes header block ∧ ContinuationRule required block ∧
      ¬ block.ContinuesAtEnd header := by
  have hend := hglobal.dataRegionEnd_eq
  have hstep := hglobal.baseStep_eq
  have hshift := hglobal.baseShift_le
  simp only [parseBlock, readU64, bind_eq_ok_iff, readLe_eq_ok_iff, rejectIf_eq_ok_iff,
    requireZero_eq_ok_iff, checkedAdd_eq_ok_iff, checkedMul_eq_ok_iff, pure_eq_ok_iff, not_not,
    not_lt, not_or] at hparse
  obtain ⟨-, ⟨-, hrelMod⟩, _, ⟨-, rfl⟩, -, hanchorEnd, anchor, ⟨-, rfl⟩, -, hne, -, hrule,
    ⟨count, headerSize⟩, hparseCount, ⟨semantic, physical⟩, hvalidate, -, hcombined, -, -,
    headerEnd, ⟨-, rfl⟩, payloadStart, hpayloadStart, -, ⟨-, -, hzero⟩, bits, ⟨hbits, rfl⟩,
    payloadEnd, ⟨-, rfl⟩, -, hpayloadLe, -, -, next, hnext, -, hcontinues, rfl⟩ := hparse
  obtain ⟨hform, hinline, hextended, rfl⟩ := (parseCount_eq_ok_iff hlength hend).1 hparseCount
  obtain ⟨⟨hsemantic, hwidth⟩, hphysical, hcount⟩ := validateRepresentation_eq_ok_iff.1 hvalidate
  simp only [unpack_eq_bitField] at *
  obtain ⟨hlenGe, hlenLt⟩ := ceilDiv_iff.1 (Eq.refl
    (count * bitField (leAt bytes start 8) 32 16 / 8 +
      (if count * bitField (leAt bytes start 8) 32 16 % 8 ≠ 0 then 1 else 0)))
  have hheaderEnd : start + (if 65535 < count then 16 else 8) ≤ header.dataRegionEnd := by
    split
    next hlarge => exact (hextended hlarge).2
    next => exact hanchorEnd
  refine ⟨trivial,
    { start_ge := hstart
      start_dvd := Nat.dvd_of_mod_eq_zero hrelMod
      headerEnd_le := hheaderEnd
      anchor :=
        { anchor_ne := hne
          semantic_eq := hsemantic
          physical_eq := hphysical
          continuation_eq := bit_eq_toNat_iff.2 rfl
          count64_eq := hform
          combinedShift_le := hcombined
          payloadAlignment_eq := rfl
          keyId_eq := (keyId_iff (bitField_lt _ _ _)).1 rfl
          bitWidth_eq := rfl
          inlineCount_eq := hinline }
      extendedCount := fun hext => (hextended hext).1
      legalWidth := hwidth
      legalCount := hcount
      payloadStart_aligned := (alignUp_eq_ok_iff_alignsTo hcombined).1 hpayloadStart
      padding_zero := hzero
      payloadBits_lt := hbits
      payloadLen_ge := hlenGe
      payloadLen_lt := hlenLt
      payloadEnd_eq := rfl
      payloadEnd_le := hpayloadLe
      nextBlockStart_aligned := ?_ }, ?_, hcontinues⟩
  · rw [hstep] at hnext ⊢
    exact (alignUp_eq_ok_iff_alignsTo (by omega)).1 hnext
  · intro key hkey
    subst hkey
    simpa [eq_comm] using hrule

theorem BlockAt.baseStep_dvd_blockStart {bytes : List UInt8} {header : Header} {block : Block}
    (h : BlockAt bytes header block) (hglobal : GlobalHeader bytes header) :
    header.baseStep ∣ block.blockStart := by
  have hge := h.start_ge
  have hsum : block.blockStart =
      header.dataRegionStart + (block.blockStart - header.dataRegionStart) := by omega
  rw [hsum]
  exact Nat.dvd_add hglobal.dataRegionStart_aligned.dvd h.start_dvd

theorem BlockAt.baseStep_dvd_payloadAlignment {bytes : List UInt8} {header : Header} {block : Block}
    (h : BlockAt bytes header block) (hglobal : GlobalHeader bytes header) :
    header.baseStep ∣ block.payloadAlignment := by
  rw [hglobal.baseStep_eq, h.anchor.payloadAlignment_eq]
  exact pow_dvd_pow 2 (Nat.le_add_right _ _)

/-- Every canonical block that obeys the continuation rule is accepted. -/
theorem parseBlock_complete {bytes : List UInt8} {header : Header} {required : Option UInt16}
    {block : Block} (hlength : bytes.length < u64Bound) (hglobal : GlobalHeader bytes header)
    (h : BlockAt bytes header block) (hrule : ContinuationRule required block)
    (hcontinues : ¬ block.ContinuesAtEnd header) :
    parseBlock bytes header block.blockStart required = .ok block := by
  have hend := hglobal.dataRegionEnd_eq
  have hshift := hglobal.baseShift_le
  have ha := h.anchor
  have hcontinuation := bit_eq_toNat_iff.1 ha.continuation_eq
  have hkeyId := (keyId_iff (bitField_lt _ _ _)).2 ha.keyId_eq
  have hpayloadLen := ceilDiv_iff.2 ⟨h.payloadLen_ge, h.payloadLen_lt⟩
  have hstepDvd := h.baseStep_dvd_payloadAlignment hglobal
  have halign : 2 ^ (header.baseShift + bitField (leAt bytes block.blockStart 8) 10 6) =
      block.payloadAlignment := ha.payloadAlignment_eq.symm
  have halignPos : 0 < block.payloadAlignment := by
    rw [ha.payloadAlignment_eq]
    exact Nat.two_pow_pos _
  have hheaderLe : block.blockStart + (if 65535 < block.count then 16 else 8) ≤
      header.dataRegionEnd := h.headerEnd_le
  have hanchorEnd : block.blockStart + 8 ≤ header.dataRegionEnd := by
    split at hheaderLe <;> omega
  have hcountEnd : 65535 < block.count → block.blockStart + 16 ≤ header.dataRegionEnd := by
    intro hlarge
    rwa [if_pos hlarge] at hheaderLe
  have hpayloadEnd := h.payloadEnd_eq
  have hpayloadLe := h.payloadEnd_le
  have hcount := (parseCount_eq_ok_iff hlength hend).2 ⟨ha.count64_eq, ha.inlineCount_eq,
    fun hext => ⟨h.extendedCount hext, hcountEnd hext⟩, rfl⟩
  have hrepresentation := (@validateRepresentation_eq_ok_iff _ _ _ _ block.blockStart _ _).2
    ⟨⟨ha.semantic_eq, h.legalWidth⟩, ha.physical_eq, h.legalCount⟩
  have hpayloadStart : alignUp block.headerEnd block.payloadAlignment = .ok block.payloadStart := by
    rw [ha.payloadAlignment_eq, alignUp_eq_ok_iff_alignsTo ha.combinedShift_le,
      ← ha.payloadAlignment_eq]
    exact h.payloadStart_aligned
  have hnext : alignUp block.payloadEnd header.baseStep = .ok block.nextBlockStart := by
    rw [hglobal.baseStep_eq, alignUp_eq_ok_iff_alignsTo (by omega), ← hglobal.baseStep_eq]
    exact h.nextBlockStart_aligned
  simp only [parseBlock, readU64, bind_eq_ok_iff, readLe_eq_ok_iff, rejectIf_eq_ok_iff,
    requireZero_eq_ok_iff, checkedAdd_eq_ok_iff, checkedMul_eq_ok_iff, pure_eq_ok_iff, not_not,
    not_lt, not_or]
  refine ⟨(), ⟨Nat.mod_eq_zero_of_dvd (h.baseStep_dvd_blockStart hglobal),
      Nat.mod_eq_zero_of_dvd h.start_dvd⟩, _, ⟨by omega, rfl⟩, (), hanchorEnd, _,
    ⟨by omega, rfl⟩, (), ha.anchor_ne, (), ?_, _, hcount, (block.semantic, block.physical), ?_, ?_⟩
  · -- The preceding block's key, when it continues, is this block's key.
    simp only [unpack_eq_bitField, hkeyId]
    rintro ⟨hsome, hne⟩
    obtain ⟨key, rfl⟩ := Option.isSome_iff_exists.1 hsome
    exact hne (congrArg some (hrule key rfl).symm)
  · simp only [unpack_eq_bitField, ha.bitWidth_eq]
    exact hrepresentation
  · simp only [unpack_eq_bitField, ha.bitWidth_eq, hcontinuation, hkeyId, halign]
    have hstartLe := h.payloadStart_aligned.le
    refine ⟨(), ha.combinedShift_le, (),
      ⟨Nat.le_of_dvd halignPos hstepDvd, Nat.mod_eq_zero_of_dvd hstepDvd⟩, _, ⟨by omega, rfl⟩, _, hpayloadStart, (), ⟨hstartLe, by omega, h.padding_zero⟩, _,
      ⟨h.payloadBits_lt, rfl⟩, block.payloadEnd, ?_, (), hpayloadLe, (),
      ⟨Nat.mod_eq_zero_of_dvd (Nat.dvd_trans hstepDvd h.payloadStart_aligned.dvd),
        Nat.mod_eq_zero_of_dvd h.payloadStart_aligned.dvd⟩, _, hnext, (), hcontinues, ?_⟩
    · rw [← hpayloadLen]
      exact ⟨by omega, hpayloadEnd⟩
    · rw [← hpayloadLen]

/-! ### The block loop -/

theorem AlignsTo.le_aligned {value alignment aligned bound : Nat}
    (h : AlignsTo value alignment aligned) (hbound : bound ≤ value) : bound ≤ aligned :=
  Nat.le_trans hbound h.le

/-- Every block moves the cursor past its anchor. -/
theorem BlockAt.advances {bytes : List UInt8} {header : Header} {block : Block}
    (h : BlockAt bytes header block) :
    block.blockStart + 8 ≤ block.payloadStart ∧ block.payloadStart ≤ block.payloadEnd ∧
      block.payloadEnd ≤ block.nextBlockStart := by
  have hheader : block.blockStart + 8 ≤ block.headerEnd := by
    unfold Block.headerEnd
    split <;> omega
  refine ⟨h.payloadStart_aligned.le_aligned hheader, ?_, h.nextBlockStart_aligned.le⟩
  rw [h.payloadEnd_eq]
  exact Nat.le_add_right _ _

/-- One iteration of the block loop that succeeds. -/
private theorem blockLoop_succ_eq_ok_iff {bytes : List UInt8} {header : Header} {fuel start : Nat}
    {required : Option UInt16} {blocks : List Block} (hstart : start < header.dataRegionEnd) :
    blockLoop bytes header (fuel + 1) start required = .ok blocks ↔
      ∃ block, parseBlock bytes header start required = .ok block ∧
        if block.payloadEnd = header.dataRegionEnd then blocks = [block]
        else block.nextBlockStart < header.dataRegionEnd ∧
          (block.payloadEnd ≤ block.nextBlockStart ∧ block.nextBlockStart ≤ bytes.length ∧
            ZeroOn bytes block.payloadEnd block.nextBlockStart) ∧
          ∃ rest, blockLoop bytes header fuel block.nextBlockStart block.continuationKey =
              .ok rest ∧ blocks = block :: rest := by
  rw [blockLoop, if_pos hstart, bind_eq_ok_iff]
  refine exists_congr fun block => and_congr_right fun _ => ?_
  by_cases hlast : block.payloadEnd = header.dataRegionEnd
  · rw [if_pos hlast, if_pos hlast, pure_eq_ok_iff, eq_comm]
  · rw [if_neg hlast, if_neg hlast]
    simp only [bind_eq_ok_iff, rejectIf_eq_ok_iff, requireZero_eq_ok_iff, pure_eq_ok_iff, not_le]
    constructor
    · rintro ⟨-, hinside, -, hzero, rest, hrest, rfl⟩
      exact ⟨hinside, hzero, rest, hrest, rfl⟩
    · rintro ⟨hinside, hzero, rest, hrest, rfl⟩
      exact ⟨(), hinside, (), hzero, rest, hrest, rfl⟩

/-- From a position inside the data region, the block loop accepts exactly the
block sequences that fill the rest of it. -/
theorem blockLoop_eq_ok_iff {bytes : List UInt8} {header : Header} (hlength : bytes.length < u64Bound)
    (hglobal : GlobalHeader bytes header) {fuel start : Nat} {required : Option UInt16}
    {blocks : List Block} (hfuel : header.dataRegionEnd ≤ fuel + start)
    (hge : header.dataRegionStart ≤ start) (hstart : start < header.dataRegionEnd) :
    blockLoop bytes header fuel start required = .ok blocks ↔
      BlockSequence bytes header required start blocks := by
  induction fuel generalizing start required blocks with
  | zero => omega
  | succ fuel ih =>
      rw [blockLoop_succ_eq_ok_iff hstart]
      constructor
      · rintro ⟨block, hparse, hrest⟩
        obtain ⟨rfl, hblock, hrule, hcontinues⟩ := parseBlock_sound hlength hglobal hge hparse
        obtain ⟨hfirst, hsecond, hthird⟩ := hblock.advances
        by_cases hlast : block.payloadEnd = header.dataRegionEnd
        · rw [if_pos hlast] at hrest
          subst hrest
          refine BlockSequence.last hblock hrule hlast ?_
          by_contra hopen
          exact hcontinues ⟨Bool.eq_true_of_not_eq_false hopen, Or.inl hlast⟩
        · rw [if_neg hlast] at hrest
          obtain ⟨hinside, ⟨-, -, hzero⟩, rest, hloop, rfl⟩ := hrest
          exact BlockSequence.next hblock hrule hinside hzero
            ((ih (by omega) (by omega) hinside).1 hloop)
      · intro hsequence
        cases hsequence with
        | last hblock hrule hends hclosed =>
            refine ⟨_, parseBlock_complete hlength hglobal hblock hrule ?_, ?_⟩
            · rintro ⟨hopen, -⟩
              rw [hclosed] at hopen
              cases hopen
            · rw [if_pos hends]
        | next hblock hrule hinside hzero htail =>
            obtain ⟨hfirst, hsecond, hthird⟩ := hblock.advances
            have hend := hglobal.dataRegionEnd_eq
            refine ⟨_, parseBlock_complete hlength hglobal hblock hrule ?_, ?_⟩
            · rintro ⟨-, hends | hends⟩ <;> omega
            · rw [if_neg (by omega)]
              exact ⟨hinside, ⟨hthird, by omega, hzero⟩, _,
                (ih (by omega) (by omega) hinside).2 htail, rfl⟩

/-- The byte count is fuel enough: with at least the remaining distance as fuel
the block loop does not depend on the fuel. -/
theorem blockLoop_fuel_irrelevant {bytes : List UInt8} {header : Header}
    (hlength : bytes.length < u64Bound) (hglobal : GlobalHeader bytes header)
    {fuel fuel' start : Nat} {required : Option UInt16}
    (hfuel : header.dataRegionEnd ≤ fuel + start) (hfuel' : header.dataRegionEnd ≤ fuel' + start)
    (hge : header.dataRegionStart ≤ start) :
    blockLoop bytes header fuel start required = blockLoop bytes header fuel' start required := by
  induction fuel generalizing fuel' start required with
  | zero =>
      cases fuel' with
      | zero => rfl
      | succ fuel' => rw [blockLoop, blockLoop, if_neg (by omega)]
  | succ fuel ih =>
      cases fuel' with
      | zero => rw [blockLoop, blockLoop, if_neg (by omega)]
      | succ fuel' =>
          rw [blockLoop, blockLoop]
          by_cases hstart : start < header.dataRegionEnd
          · rw [if_pos hstart, if_pos hstart]
            cases hparse : parseBlock bytes header start required with
            | error e => rfl
            | ok block =>
                obtain ⟨rfl, hblock, -, -⟩ := parseBlock_sound hlength hglobal hge hparse
                obtain ⟨hfirst, hsecond, hthird⟩ := hblock.advances
                have hrest := @ih fuel' block.nextBlockStart block.continuationKey
                  (by omega) (by omega) (by omega)
                show (if _ then _ else _) = (if _ then _ else _)
                rw [hrest]
          · rw [if_neg hstart, if_neg hstart]

/-- The same for the extension loop. -/
theorem extensionLoop_fuel_irrelevant {bytes : List UInt8} {headerSize fuel fuel' offset : Nat}
    (hfuel : headerSize ≤ fuel + offset) (hfuel' : headerSize ≤ fuel' + offset) :
    extensionLoop bytes headerSize fuel offset = extensionLoop bytes headerSize fuel' offset := by
  induction fuel generalizing fuel' offset with
  | zero =>
      cases fuel' with
      | zero => rfl
      | succ fuel' => rw [extensionLoop, extensionLoop, if_neg (by omega)]
  | succ fuel ih =>
      cases fuel' with
      | zero => rw [extensionLoop, extensionLoop, if_neg (by omega)]
      | succ fuel' =>
          rw [extensionLoop, extensionLoop]
          by_cases hoffset : offset < headerSize
          · rw [if_pos hoffset, if_pos hoffset]
            cases hstep : extensionStep bytes headerSize offset with
            | error e => rfl
            | ok last =>
                have hadvance : offset + 8 ≤ last := by
                  simp only [extensionStep, bind_eq_ok_iff, rejectIf_eq_ok_iff,
                    checkedAdd_eq_ok_iff, pure_eq_ok_iff, not_or, not_lt] at hstep
                  obtain ⟨_, -, flags, -, size, -, -, hframing, _, ⟨-, rfl⟩, -, -, -, -, rfl⟩ := hstep
                  have hsize := hframing.2.1
                  omega
                exact ih (by omega) (by omega)
          · rw [if_neg hoffset, if_neg hoffset]

/-! ### The whole stream -/

theorem BlockSequence.start_lt {bytes : List UInt8} {header : Header} {required : Option UInt16}
    {start : Nat} {blocks : List Block} (h : BlockSequence bytes header required start blocks) :
    start < header.dataRegionEnd := by
  cases h with
  | last hblock _ _ _ | next hblock _ _ _ _ =>
      obtain ⟨hfirst, hsecond, -⟩ := hblock.advances
      have hend := hblock.payloadEnd_le
      omega

theorem BlockSequence.ne_nil {bytes : List UInt8} {header : Header} {required : Option UInt16}
    {start : Nat} {blocks : List Block} (h : BlockSequence bytes header required start blocks) :
    blocks ≠ [] := by
  cases h with
  | last _ _ _ _ | next _ _ _ _ _ => exact List.cons_ne_nil _ _

/-- `parse_v06` returns exactly the header and blocks of a well-formed stream. -/
theorem parseV06_eq_ok_iff {bytes : List UInt8} {validated : Validated} :
    parseV06 bytes = .ok validated ↔
      validated.bytes = bytes ∧ WellFormed bytes validated.header validated.blocks := by
  simp only [parseV06, bind_eq_ok_iff, pure_eq_ok_iff, parseHeader_eq_ok_iff]
  constructor
  · rintro ⟨header, ⟨hlength, hglobal⟩, blocks, hloop, rfl⟩
    refine ⟨rfl, hlength, hglobal, ?_⟩
    have hend := hglobal.dataRegionEnd_eq
    have hsize := hglobal.dataRegionSize_eq
    rcases Nat.lt_or_ge header.dataRegionStart header.dataRegionEnd with hstart | hempty
    · exact Or.inr ((blockLoop_eq_ok_iff hlength hglobal (by omega) (Nat.le_refl _) hstart).1 hloop)
    · have hzero : header.dataRegionSize = 0 := by omega
      refine Or.inl ⟨hzero, ?_⟩
      have hnil : blockLoop bytes header 0 header.dataRegionStart none = .ok blocks :=
        (blockLoop_fuel_irrelevant hlength hglobal (by omega) (by omega) (Nat.le_refl _)).trans hloop
      exact (Except.ok.inj hnil).symm
  · rintro ⟨rfl, hlength, hglobal, hregion⟩
    have hend := hglobal.dataRegionEnd_eq
    have hsize := hglobal.dataRegionSize_eq
    refine ⟨validated.header, ⟨hlength, hglobal⟩, validated.blocks, ?_, rfl⟩
    rcases hregion with ⟨hzero, hnil⟩ | hsequence
    · rw [hnil]
      exact @blockLoop_fuel_irrelevant _ _ hlength hglobal _ 0 _ none (by omega) (by omega)
        (Nat.le_refl _)
    · exact (blockLoop_eq_ok_iff hlength hglobal (by omega) (Nat.le_refl _)
        hsequence.start_lt).2 hsequence

/-- A stream has at most one header and one block list. -/
theorem WellFormed.unique {bytes : List UInt8} {header header' : Header}
    {blocks blocks' : List Block} (h : WellFormed bytes header blocks)
    (h' : WellFormed bytes header' blocks') : header' = header ∧ blocks' = blocks := by
  have hparse : parseV06 bytes = .ok ⟨bytes, header, blocks⟩ := parseV06_eq_ok_iff.2 ⟨rfl, h⟩
  have hparse' : parseV06 bytes = .ok ⟨bytes, header', blocks'⟩ := parseV06_eq_ok_iff.2 ⟨rfl, h'⟩
  rw [hparse] at hparse'
  have heq := Validated.mk.inj (Except.ok.inj hparse')
  exact ⟨heq.2.1.symm, heq.2.2.symm⟩

/-- The reader is total on byte strings and accepts exactly the grammar; the
descriptors it returns are the only ones the grammar allows. -/
theorem parseV06_accepts_exactly_grammar (bytes : List UInt8) :
    ((∃ validated, parseV06 bytes = .ok validated) ↔
        ∃ header blocks, WellFormed bytes header blocks) ∧
      ∀ validated, parseV06 bytes = .ok validated →
        WellFormed bytes validated.header validated.blocks ∧
          ∀ header blocks, WellFormed bytes header blocks →
            header = validated.header ∧ blocks = validated.blocks := by
  refine ⟨⟨?_, ?_⟩, ?_⟩
  · rintro ⟨validated, hparse⟩
    exact ⟨_, _, (parseV06_eq_ok_iff.1 hparse).2⟩
  · rintro ⟨header, blocks, hwell⟩
    exact ⟨⟨bytes, header, blocks⟩, parseV06_eq_ok_iff.2 ⟨rfl, hwell⟩⟩
  · intro validated hparse
    have hwell := (parseV06_eq_ok_iff.1 hparse).2
    exact ⟨hwell, fun header blocks hother => hwell.unique hother⟩

end VBuf.V06
