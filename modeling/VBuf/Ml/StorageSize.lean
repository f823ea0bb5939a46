import VBuf.Ml.ConsumerTypes

/-!
# When a storage size is found

The checked arithmetic of `expected_payload_bytes` fails only on numbers that are too
large, and the embedded and the external check of a tensor come to the same for every
block that the wire parser accepts.
-/

namespace VBuf.Ml

open VBuf.Lib VBuf.V06

/-- A product of the first dimensions does not fit. -/
def PrefixOverflows (dimensions : List Nat) : Prop :=
  ∃ count, u64Bound ≤ (dimensions.take count).prod

/-- The row width is there, not zero and a multiple of the block length. -/
def RowFits (representation : TensorRepresentation) (dimensions : List Nat) : Prop :=
  ∃ rowWidth, dimensions.head? = some rowWidth ∧ rowWidth ≠ 0 ∧
    (ConsumerTensorType.ofRepresentation representation).block.1 ∣ rowWidth

/-- The payload size over unbounded numbers. -/
def TensorRepresentation.storageSize (representation : TensorRepresentation)
    (dimensions : List Nat) : Nat :=
  (ConsumerTensorType.ofRepresentation representation).storageSize dimensions

/-- The block without elements and payload. -/
def emptied (block : Block) : Block :=
  { block with count := 0, payloadLen := 0, payloadEnd := block.payloadStart }

section Products

variable {dimensions : List Nat} {start : Nat}

/-- The checked product fails only where a product of the first factors does not fit. -/
theorem foldlM_checkedMul_eq_none (hstart : start < u64Bound)
    (h : dimensions.foldlM checkedMul? start = none) :
    ∃ count, u64Bound ≤ start * (dimensions.take count).prod := by
  induction dimensions generalizing start with
  | nil => cases h
  | cons dimension rest ih =>
    rw [List.foldlM_cons, Option.bind_eq_bind] at h
    by_cases hfits : start * dimension < u64Bound
    · rw [checkedMul?_eq_some_iff.2 ⟨hfits, rfl⟩, Option.bind_some] at h
      obtain ⟨count, hcount⟩ := ih hfits h
      refine ⟨count + 1, ?_⟩
      rwa [List.take_succ_cons, List.prod_cons, ← Nat.mul_assoc]
    · refine ⟨1, ?_⟩
      rw [List.take_succ_cons, List.take_zero, List.prod_cons, List.prod_nil, Nat.mul_one]
      exact Nat.le_of_not_lt hfits

theorem checkedProduct_eq_none (h : checkedProduct dimensions = none) :
    PrefixOverflows dimensions := by
  obtain ⟨count, hcount⟩ := foldlM_checkedMul_eq_none (by decide) h
  exact ⟨count, by rwa [Nat.one_mul] at hcount⟩

/-- The rows do not overflow where the elements do not: a row has an element. -/
theorem prefixOverflows_of_tail {rowWidth : Nat} {rest : List Nat} (hrow : rowWidth ≠ 0)
    (h : PrefixOverflows rest) : PrefixOverflows (rowWidth :: rest) := by
  obtain ⟨count, hcount⟩ := h
  refine ⟨count + 1, ?_⟩
  rw [List.take_succ_cons, List.prod_cons]
  exact hcount.trans (Nat.le_mul_of_pos_left _ (Nat.pos_of_ne_zero hrow))

end Products

variable {representation : TensorRepresentation} {dimensions : List Nat}

theorem checkedProduct_complete (h : ¬ PrefixOverflows dimensions) :
    checkedProduct dimensions = some dimensions.prod := by
  cases hproduct : checkedProduct dimensions with
  | none => exact absurd (checkedProduct_eq_none hproduct) h
  | some product => rw [checkedProduct_eq hproduct]

/-- The block-quantized arm succeeds on rows of whole blocks whose sizes fit. -/
theorem quantizedPayloadBytes_complete {blockElements blockBytes : Nat} (hbytes : 0 < blockBytes)
    (hrow : ∃ rowWidth, dimensions.head? = some rowWidth ∧ rowWidth ≠ 0 ∧ blockElements ∣ rowWidth)
    (hproducts : ¬ PrefixOverflows dimensions)
    (hfits : dimensions.prod / blockElements * blockBytes < u64Bound) :
    quantizedPayloadBytes blockElements blockBytes dimensions =
      .ok (dimensions.prod / blockElements * blockBytes) := by
  obtain ⟨rowWidth, hhead, hne, hdvd⟩ := hrow
  obtain ⟨rest, rfl⟩ := List.head?_eq_some_iff.1 hhead
  have hrows := checkedProduct_complete fun h => hproducts (prefixOverflows_of_tail hne h)
  have hblocks : (rowWidth :: rest).prod / blockElements = rest.prod * (rowWidth / blockElements) := by
    rw [List.prod_cons, Nat.mul_comm rowWidth, Nat.mul_div_assoc _ hdvd]
  rw [hblocks] at hfits ⊢
  have hcount : rest.prod * (rowWidth / blockElements) < u64Bound :=
    Nat.lt_of_le_of_lt (Nat.le_mul_of_pos_right _ hbytes) hfits
  simp only [quantizedPayloadBytes, bind_eq_ok_iff, okOr_eq_ok_iff, rejectIf_eq_ok_iff,
    Option.bind_eq_some_iff, checkedMul?_eq_some_iff, not_or]
  exact ⟨rowWidth, rfl, (), ⟨hne, not_not.2 (Nat.mod_eq_zero_of_dvd hdvd)⟩, rest.prod, hrows, _,
    ⟨hcount, rfl⟩, hfits, rfl⟩

/-- `expected_payload_bytes` succeeds when every product and the size fit and the rows of a
block format are whole blocks. -/
theorem expectedPayloadBytes_complete (hpacked : representation ≠ .canonicalPrimitive)
    (hproducts : ¬ PrefixOverflows dimensions)
    (hfits : representation.storageSize dimensions < u64Bound)
    (hrow : representation.quantizedBlock ≠ none → RowFits representation dimensions) :
    expectedPayloadBytes representation dimensions = .ok (representation.storageSize dimensions) := by
  have helements : logicalElements dimensions = .ok dimensions.prod :=
    logicalElements_eq_ok_iff.2 (checkedProduct_complete hproducts)
  rw [expectedPayloadBytes, bind_eq_ok_iff]
  refine ⟨dimensions.prod, helements, ?_⟩
  cases representation with
  | canonicalPrimitive => exact absurd rfl hpacked
  | bf16 =>
    have hsize : TensorRepresentation.storageSize .bf16 dimensions = dimensions.prod * 2 :=
      congrArg (· * 2) (Nat.div_one _)
    rw [hsize] at hfits ⊢
    exact okOr_eq_ok_iff.2 (checkedMul?_eq_some_iff.2 ⟨hfits, rfl⟩)
  | f8E4M3 =>
    have hsize : TensorRepresentation.storageSize .f8E4M3 dimensions = dimensions.prod :=
      (Nat.mul_one _).trans (Nat.div_one _)
    rw [hsize]
    rfl
  | _ => exact quantizedPayloadBytes_complete (by decide) (hrow (by decide)) hproducts hfits

/-- A size of a block format says that the rows are whole blocks. -/
theorem rowFits_of_expected {size : Nat} (hblock : representation.quantizedBlock ≠ none)
    (h : expectedPayloadBytes representation dimensions = .ok size) :
    RowFits representation dimensions := by
  rw [expectedPayloadBytes, bind_eq_ok_iff] at h
  obtain ⟨elements, -, h⟩ := h
  cases representation with
  | canonicalPrimitive | bf16 | f8E4M3 => exact absurd rfl hblock
  | _ =>
    simp only [TensorRepresentation.quantizedBlock, quantizedPayloadBytes, bind_eq_ok_iff,
      okOr_eq_ok_iff, rejectIf_eq_ok_iff, not_or, not_not] at h
    obtain ⟨rowWidth, hhead, _, ⟨hne, hmod⟩, -⟩ := h
    exact ⟨rowWidth, hhead, hne, Nat.dvd_of_mod_eq_zero hmod⟩

/-! ### The embedded and the external check -/

/-- What the wire parser promises of the payload of an accepted block. -/
theorem payloadLen_of_parse {bytes : List UInt8} {validated : Validated} {block : Block}
    (h : parseV06 bytes = .ok validated) (hmem : block ∈ validated.blocks)
    (hbytes : block.bitWidth % 8 = 0) :
    0 < block.bitWidth ∧ block.payloadLen = block.count * (block.bitWidth / 8) := by
  have hat := (parseV06_eq_ok_iff.1 h).2.blockAt hmem
  have hlower := hat.payloadLen_ge
  have hupper := hat.payloadLen_lt
  have hwidth : block.bitWidth = 8 * (block.bitWidth / 8) := by omega
  have hproduct : block.count * block.bitWidth = 8 * (block.count * (block.bitWidth / 8)) := by
    rw [Nat.mul_left_comm, ← hwidth]
  constructor
  · have hlegal := hat.legalWidth
    cases hsemantic : block.semantic <;> rw [hsemantic] at hlegal <;>
      simp only [Semantic.LegalWidth, List.mem_cons, List.not_mem_nil, or_false] at hlegal <;> omega
  · omega

/-- A block that the wire parser accepts passes the check of an embedded tensor exactly when
its emptied form passes the external one with its payload length. -/
theorem validate_iff_validateExternal {bytes : List UInt8} {validated : Validated} {block : Block}
    (h : parseV06 bytes = .ok validated) (hmem : block ∈ validated.blocks) :
    validateTensorRepresentation representation dimensions block = .ok () ↔
      validateExternalTensorRepresentation representation dimensions (emptied block)
        block.payloadLen = .ok () := by
  have hlength := payloadLen_of_parse h hmem
  cases representation with
  | canonicalPrimitive =>
    simp only [validateTensorRepresentation, validateExternalTensorRepresentation,
      bind_eq_ok_iff, okOr_eq_ok_iff, rejectIf_eq_ok_iff, checkedMul?_eq_some_iff, not_or, not_not]
    dsimp only [emptied]
    constructor
    · rintro ⟨elements, helements, _, ⟨hsemantic, hwidth, -⟩, hexpected⟩
      exact ⟨elements, helements, (), ⟨hsemantic, hwidth⟩, hexpected⟩
    · rintro ⟨elements, helements, _, ⟨hsemantic, hwidth⟩, expected, ⟨hfits, rfl⟩, hpayload⟩
      obtain ⟨hpos, hcount⟩ := hlength hwidth
      -- Both the count and the elements times the same width are the payload.
      have hequal : block.count = elements :=
        Nat.eq_of_mul_eq_mul_right (by omega : 0 < block.bitWidth / 8) (hcount.symm.trans hpayload)
      exact ⟨elements, helements, (), ⟨hsemantic, hwidth, hequal⟩, _, ⟨hfits, rfl⟩, hpayload⟩
  | _ =>
    simp only [validateTensorRepresentation, validateExternalTensorRepresentation,
      bind_eq_ok_iff, rejectIf_eq_ok_iff, not_or, not_not]
    dsimp only [emptied]
    constructor
    · rintro ⟨elements, helements, _, hblock, expected, hexpected, _, -, hpayload⟩
      exact ⟨elements, helements, (), hblock, expected, hexpected, hpayload⟩
    · rintro ⟨elements, helements, _, hblock, expected, hexpected, hpayload⟩
      obtain ⟨-, hcount⟩ := hlength (by omega)
      have hequal : block.count = expected := by
        rw [← hpayload, hcount, hblock.2.2, Nat.mul_one]
      exact ⟨elements, helements, (), hblock, expected, hexpected, (), hequal, hpayload⟩

/-- Storage sizes are exact: `expected_payload_bytes` fails only on a product or a size that
does not fit or on a row that is not a whole number of blocks, its result is the size over
unbounded numbers, and the embedded and the external check agree on accepted blocks. -/
theorem storageSize_exact (representation : TensorRepresentation) (dimensions : List Nat) :
    (representation ≠ .canonicalPrimitive →
      (∀ error, expectedPayloadBytes representation dimensions = .error error →
        PrefixOverflows dimensions ∨ u64Bound ≤ representation.storageSize dimensions ∨
          (representation.quantizedBlock ≠ none ∧ ¬ RowFits representation dimensions)) ∧
      ∀ size, expectedPayloadBytes representation dimensions = .ok size →
        size = representation.storageSize dimensions) ∧
    ∀ bytes validated block, parseV06 bytes = .ok validated → block ∈ validated.blocks →
      (validateTensorRepresentation representation dimensions block = .ok () ↔
        validateExternalTensorRepresentation representation dimensions (emptied block)
          block.payloadLen = .ok ()) := by
  refine ⟨?_, fun _ _ _ h hmem => validate_iff_validateExternal h hmem⟩
  intro hpacked
  refine ⟨?_, fun _ => expectedPayloadBytes_eq⟩
  intro error herror
  by_contra hnone
  simp only [not_or, not_and_or, not_not] at hnone
  obtain ⟨hproducts, hfits, hrow⟩ := hnone
  rw [expectedPayloadBytes_complete hpacked hproducts (Nat.lt_of_not_le hfits)
    hrow.resolve_left] at herror
  cases herror

end VBuf.Ml
