import VBuf.Lib.Tiling
import VBuf.Runtime.ChunkedAttention
import VBuf.Runtime.ExpertRuns
import VBuf.Runtime.HeadRows

/-!
# The projection by chunks is the projection at once

A chunk of rows of the output head is a part of the head, so its product is a part of the
product with the head.  The loop scatters each row of it to its token, and its chunks tile the
rows of the vocabulary: each row is read once, and nothing outside the tensor.
-/

namespace VBuf.Runtime

open VBuf.Lib VBuf.Ml

/-! ### A chunk -/

section Chunk

variable {F : Type} [Field F] [LinearOrder F] {math : ExactMath F} {kernels : GenericKernels F}
  {decode : UInt16 → F} {get : UInt32 → Except String (GenericTensor F)} {input : GenericTensor F}
  {headId : UInt32} {sizes : ProjectionSizes}

/-- The lowered graph of a chunk. -/
def outputProjectionGraph (headId : UInt32) : ExecutionGraph F where
  input := 0
  output := 1
  tensors := [⟨headId, "model.lm_head.weight", 0, 0⟩]
  operations :=
    [{ id := "lm_head_chunk"
       kind := .matMul
       inputs := [.value 0, .tensor headId]
       output := 1
       attributes := { matmulWeightOperand := some .rhs, matmulTransposeWeight := some false } }]

/-- The graph of a chunk is always lowered. -/
theorem lowerRegion_outputProjection (math : ExactMath F) (headId : UInt32) :
    lowerRegion math (buildOutputProjectionGraph (F := F) headId).1
      (buildOutputProjectionGraph headId).2 = .ok (outputProjectionGraph headId) := by
  rfl

/-- The graph multiplies the input with the tensor that the provider has for the head. -/
theorem executeGenericGraph_outputProjection {provider : UInt32 → Except String (GenericTensor F)}
    {head : GenericTensor F} (hhead : provider headId = .ok head)
    {state after : GenericExecutionState F} {result : GenericExecutionResult F}
    (h : executeGenericGraph math kernels provider none (outputProjectionGraph headId) input state =
      (.ok result, after)) :
    ∃ product, matmul input head = .ok product ∧ result.values.lookup 1 = some product := by
  unfold executeGenericGraph at h
  dsimp only at h
  split at h
  · cases h
  next run hrun =>
    cases h
    rw [outputProjectionGraph, List.foldlM_cons, bind_eq_ok_iff] at hrun
    obtain ⟨next, hnext, hend⟩ := hrun
    cases hend
    simp only [executeGenericOperation, operationOutput, bind_eq_ok_iff] at hnext
    obtain ⟨product, ⟨value, hvalue, weight, hweight, hproduct⟩, hresult⟩ := hnext
    rw [valueInput_of_lookup rfl (AList.lookup_insert _)] at hvalue
    rw [tensorInput_of_input rfl, hhead] at hweight
    cases hvalue
    cases hweight
    cases hresult
    exact ⟨product, hproduct, AList.lookup_insert _⟩

omit [Field F] [LinearOrder F] in
/-- The copy of a row has room for it. -/
theorem copyToken_ok {chunk logits after : List F} {vocabulary rowStart rowCount token : Nat}
    (h : copyToken chunk vocabulary rowStart rowCount logits token = .ok after) :
    after.length = logits.length ∧ ∀ i, after[i]? =
      if token * vocabulary + rowStart ≤ i ∧ i < token * vocabulary + rowStart + rowCount then
        chunk[token * rowCount + (i - (token * vocabulary + rowStart))]?
      else logits[i]? := by
  simp only [copyToken, bind_eq_ok_iff, okOr_eq_ok_iff, rejectIf_eq_ok_iff, range?_eq_some_iff] at h
  obtain ⟨_, hroom, source, ⟨-, hinside, rfl⟩, heq⟩ := h
  cases heq
  rw [Nat.add_sub_cancel_left]
  have hlength : (slice chunk (token * rowCount) rowCount).length = rowCount :=
    slice_length_of_le hinside
  have hfits : token * vocabulary + rowStart + (slice chunk (token * rowCount) rowCount).length ≤
      logits.length := by
    rw [hlength]
    exact Nat.le_of_not_lt hroom
  refine ⟨patch_length hfits, fun i => ?_⟩
  rw [getElem?_patch hfits, hlength]
  split
  next hin => rw [getElem?_slice (by omega)]
  next => rfl

omit [Field F] [LinearOrder F] in
/-- The loop over the tokens scatters the rows of a chunk. -/
theorem copyTokens_ok {chunk logits after : List F} {vocabulary rowStart rowCount sequence : Nat}
    (hrows : rowStart + rowCount ≤ vocabulary)
    (h : (List.range sequence).foldlM (copyToken chunk vocabulary rowStart rowCount) logits =
      .ok after) :
    after.length = logits.length ∧ ∀ token < sequence, ∀ row < vocabulary,
      after[token * vocabulary + row]? =
        if rowStart ≤ row ∧ row < rowStart + rowCount then
          chunk[token * rowCount + (row - rowStart)]?
        else logits[token * vocabulary + row]? := by
  -- The rows of the tokens before this turn are in place.
  have hinv := @foldlM_range_inv _ _ _ (fun turn current => current.length = logits.length ∧
      ∀ token row, row < vocabulary → current[token * vocabulary + row]? =
        if token < turn ∧ rowStart ≤ row ∧ row < rowStart + rowCount then
          chunk[token * rowCount + (row - rowStart)]?
        else logits[token * vocabulary + row]?) _ _ _ h ⟨rfl, ?_⟩ ?_
  · refine ⟨hinv.1, fun token htoken row hrow => ?_⟩
    rw [hinv.2 token row hrow]
    simp only [htoken, true_and]
  · intro token row _
    rw [if_neg fun hin => Nat.not_lt_zero _ hin.1]
  · intro turn _ current next ⟨hlength, hcells⟩ hcopy
    obtain ⟨hsame, hcopied⟩ := copyToken_ok hcopy
    refine ⟨hsame.trans hlength, fun token row hrow => ?_⟩
    rw [hcopied, hcells token row hrow]
    -- Only the row of this token is touched, since a row of the chunk fits in the vocabulary.
    rcases Nat.lt_trichotomy token turn with hbefore | rfl | hafter
    · have hblock := Nat.mul_le_mul_right vocabulary (Nat.succ_le_of_lt hbefore)
      rw [Nat.succ_mul] at hblock
      rw [if_neg (by omega)]
      refine if_congr ?_ rfl rfl
      omega
    · by_cases hin : rowStart ≤ row ∧ row < rowStart + rowCount
      · rw [if_pos (by omega), if_pos (by omega)]
        congr 2
        omega
      · rw [if_neg (by omega), if_neg (by omega), if_neg (by omega)]
    · have hblock := Nat.mul_le_mul_right vocabulary (Nat.succ_le_of_lt hafter)
      rw [Nat.succ_mul] at hblock
      rw [if_neg (by omega), if_neg (by omega), if_neg (by omega)]

/-- What a turn of the loop has done. -/
theorem projectChunk_ok {sequence rowStart : Nat} {loop next : ProjectionLoop F}
    (h : projectChunk math kernels decode get sizes input headId sequence loop rowStart =
      .ok next) :
    ∃ head materializer product,
      loop.materializer.getBf16Rows decode headId rowStart
        (min sizes.outputHeadChunkRows (sizes.vocab - rowStart)) = .ok (head, materializer) ∧
      matmul input head = .ok product ∧
      (List.range sequence).foldlM (copyToken product.values sizes.vocab rowStart
        (min sizes.outputHeadChunkRows (sizes.vocab - rowStart))) loop.logitsValues =
          .ok next.logitsValues ∧
      next.materializer = { materializer with cache := materializer.cache.erase headId } := by
  unfold projectChunk at h
  rw [bind_eq_ok_iff] at h
  obtain ⟨⟨head, materializer⟩, hrows, h⟩ := h
  dsimp only at h
  rw [lowerRegion_outputProjection, bind_eq_ok_iff] at h
  obtain ⟨graph, hgraph, h⟩ := h
  cases hgraph
  rw [bind_eq_ok_iff] at h
  obtain ⟨result, hresult, h⟩ := h
  rw [mapErr_eq_ok_iff] at hresult
  rw [bind_eq_ok_iff] at h
  obtain ⟨product, hproduct, h⟩ := h
  rw [okOr_eq_ok_iff] at hproduct
  rw [bind_eq_ok_iff] at h
  obtain ⟨logits, hlogits, h⟩ := h
  cases h
  obtain ⟨computed, hmatmul, hlookup⟩ := executeGenericGraph_outputProjection
    (if_pos rfl) (Prod.ext hresult rfl)
  cases hproduct.symm.trans hlookup
  exact ⟨head, materializer, product, hrows, hmatmul, hlogits, rfl⟩

end Chunk

/-! ### The head -/

section Whole

variable {F : Type} [Field F] [LinearOrder F] {math : ExactMath F} {kernels : GenericKernels F}
  {decode : UInt16 → F} {get : UInt32 → Except String (GenericTensor F)} {input : GenericTensor F}
  {headId : UInt32} {sizes : ProjectionSizes} {tokens width : UInt64} {m : Materializer F}
  {descriptor : TensorDescriptor}

omit [Field F] [LinearOrder F] in
theorem getElem?_of_lt {values : List F} {index : Nat} (default : F) (h : index < values.length) :
    values[index]? = some (values.getD index default) := by
  rw [List.getD_eq_getElem?_getD, List.getElem?_eq_getElem h]
  rfl

omit [LinearOrder F] in
/-- A product has a weight of the width of its input. -/
theorem matmul_width {weight product : GenericTensor F}
    (hshape : input.dimensions = [1, tokens, width]) (h : matmul input weight = .ok product) :
    weight.dimensions[1]? = some width := by
  simp only [matmul, checkedLastDimension, bind_eq_ok_iff, okOr_eq_ok_iff, rejectIf_eq_ok_iff] at h
  obtain ⟨last, hlast, _, hgeometry, -⟩ := h
  rw [hshape] at hlast
  cases hlast
  rw [not_or, not_not, not_not] at hgeometry
  exact hgeometry.2

omit [LinearOrder F] in
/-- The number at a token and a row of a product. -/
theorem matmul_cell {weight product : GenericTensor F} {token row : Nat}
    (hshape : input.dimensions = [1, tokens, width]) (h : matmul input weight = .ok product)
    (htoken : token < tokens.toNat) (hrow : row < (weight.dimensions.getD 0 0).toNat) :
    product.values[token * (weight.dimensions.getD 0 0).toNat + row]? =
      some (rowDot input.values weight.values width.toNat token row) := by
  obtain ⟨-, -, -, -, hlength, hcells⟩ := matmul_rows hshape h
  rw [getElem?_of_lt 0 (by rw [hlength]; exact block_lt htoken hrow), hcells token htoken row hrow,
    rowDot_eq_sum]

omit [LinearOrder F] in
/-- A chunk is a part of the head, so its product is a part of the product. -/
theorem chunk_cell {rowStart rowCount totalRows hidden : Nat} {rows product : GenericTensor F}
    {after : Materializer F}
    (hrows : RowsRead decode descriptor rowStart rowCount m rows after totalRows hidden)
    (hpos : 0 < rowCount) (hshape : input.dimensions = [1, tokens, width])
    (hproduct : matmul input rows = .ok product) :
    hidden = width.toNat ∧ ∀ token < tokens.toNat, ∀ column < rowCount,
      product.values[token * rowCount + column]? =
        some (rowDot input.values (headValues decode descriptor m.payload) width.toNat token
          (rowStart + column)) := by
  have hwidth := matmul_width hshape hproduct
  rw [hrows.dims] at hwidth
  have hsmall : hidden < 2 ^ 64 := by
    have hle := Nat.mul_le_mul_right hidden (Nat.le_trans (Nat.le_add_left _ _) hrows.inside)
    have hone := Nat.mul_le_mul_right hidden (Nat.succ_le_of_lt hpos)
    have hfits := hrows.fits
    omega
  have hhidden : hidden = width.toNat := by
    rw [← Option.some.inj hwidth, UInt64.toNat_ofNat_of_lt' hsmall]
  refine ⟨hhidden, fun token htoken column hcolumn => ?_⟩
  have hcount : (rows.dimensions.getD 0 0).toNat = rowCount := by
    rw [hrows.dims]
    exact UInt64.toNat_ofNat_of_lt' hrows.small
  have hcell := matmul_cell hshape hproduct htoken (hcount.symm ▸ hcolumn)
  rw [hcount] at hcell
  rw [hcell, rowDot_eq_sum, rowDot_eq_sum]
  congr 1
  refine Finset.sum_congr rfl fun i hi => ?_
  rw [Finset.mem_range] at hi
  -- Number by number, the chunk is the head from its first row on.
  have hvalue : rows.values[column * width.toNat + i]? =
      (headValues decode descriptor m.payload)[(rowStart + column) * width.toNat + i]? := by
    have hinside : (rowStart * hidden + rowCount * hidden) * 2 ≤ descriptor.payload.length := by
      rw [hrows.length, ← Nat.add_mul]
      exact Nat.mul_le_mul_right 2 (Nat.mul_le_mul_right hidden hrows.inside)
    have hindex : column * width.toNat + i < rowCount * hidden := by
      rw [hhidden]
      exact block_lt hcolumn hi
    rw [hrows.values, headValues, ← Nat.mul_assoc, ← Nat.mul_assoc,
      getElem?_bf16Values_slice hindex hinside, hhidden, Nat.add_mul, Nat.add_assoc]
  have hsame : rows.values.getD (column * width.toNat + i) 0 =
      (headValues decode descriptor m.payload).getD ((rowStart + column) * width.toNat + i) 0 := by
    rw [List.getD_eq_getElem?_getD, hvalue, List.getD_eq_getElem?_getD]
  rw [hsame]

/-- The rows that the turns before a turn have read. -/
def chunkRows (sizes : ProjectionSizes) (turns : Nat) : List (Nat × Nat) :=
  (List.range turns).map fun turn => (turn * sizes.outputHeadChunkRows,
    turn * sizes.outputHeadChunkRows +
      min sizes.outputHeadChunkRows (sizes.vocab - turn * sizes.outputHeadChunkRows))

/-- The turns of the loop over the chunks. -/
def chunkTurns (sizes : ProjectionSizes) : Nat :=
  (sizes.vocab + sizes.outputHeadChunkRows - 1) / sizes.outputHeadChunkRows

/-- A turn has rows, and after the last one all rows are read. -/
theorem chunkTurns_spec (sizes : ProjectionSizes) :
    (∀ turn < chunkTurns sizes, turn * sizes.outputHeadChunkRows < sizes.vocab) ∧
      sizes.vocab ≤ chunkTurns sizes * sizes.outputHeadChunkRows := by
  have hpos := sizes.chunkRows_pos
  constructor
  · intro turn hturn
    have hle := (Nat.le_div_iff_mul_le hpos).1 (Nat.succ_le_of_lt hturn)
    rw [Nat.succ_mul] at hle
    omega
  · have hlt := Nat.lt_mul_div_succ (sizes.vocab + sizes.outputHeadChunkRows - 1) hpos
    rw [Nat.mul_succ, Nat.mul_comm] at hlt
    unfold chunkTurns
    omega

/-- The chunks tile the rows. -/
theorem chunkRows_tiles (sizes : ProjectionSizes) {turns : Nat} (h : turns ≤ chunkTurns sizes) :
    Tiles Prod.fst Prod.snd 0 (min (turns * sizes.outputHeadChunkRows) sizes.vocab)
      (chunkRows sizes turns) := by
  have hpos := sizes.chunkRows_pos
  induction turns with
  | zero =>
      rw [Nat.zero_mul, Nat.zero_min]
      exact .nil 0
  | succ turns ih =>
      have hturn := (chunkTurns_spec sizes).1 turns (by omega)
      have hbefore := ih (by omega)
      rw [Nat.min_eq_left (Nat.le_of_lt hturn)] at hbefore
      have hnext : min ((turns + 1) * sizes.outputHeadChunkRows) sizes.vocab =
          turns * sizes.outputHeadChunkRows + min sizes.outputHeadChunkRows
            (sizes.vocab - turns * sizes.outputHeadChunkRows) := by
        rw [Nat.succ_mul]
        omega
      rw [chunkRows, List.range_succ, List.map_append, hnext]
      refine hbefore.append (.cons rfl ?_ (.nil _))
      dsimp only
      omega

/-- Where the turns of the loop have come. -/
structure LoopInv (decode : UInt16 → F) (sizes : ProjectionSizes) (input : GenericTensor F)
    (sequence : Nat) (descriptor : TensorDescriptor) (m : Materializer F) (turns : Nat)
    (loop : ProjectionLoop F) : Prop where
  length : loop.logitsValues.length = sequence * sizes.vocab
  directory : loop.materializer.directory = m.directory
  payload : loop.materializer.payload = m.payload
  reads : loop.materializer.reads = m.reads ++ (chunkRows sizes turns).map fun rows =>
    (descriptor.payload.offset + rows.1 * (descriptor.dimensions.getD 1 0 * 2),
      descriptor.payload.offset + rows.2 * (descriptor.dimensions.getD 1 0 * 2))
  inside : min (turns * sizes.outputHeadChunkRows) sizes.vocab *
    (descriptor.dimensions.getD 1 0 * 2) ≤ descriptor.payload.length
  rows : min (turns * sizes.outputHeadChunkRows) sizes.vocab ≤
    (UInt64.ofNat (descriptor.dimensions.getD 0 0)).toNat
  cells : ∀ token < sequence, ∀ row < sizes.vocab, row < turns * sizes.outputHeadChunkRows →
    loop.logitsValues[token * sizes.vocab + row]? = some (rowDot input.values
      (headValues decode descriptor m.payload) sizes.hidden.toNat token row)

/-- A turn reads the next rows and puts their numbers in place. -/
theorem loopInv_step
    (hfound : getByIdentity m.directory headKeyId headId.toUInt16 = some descriptor)
    (hshape : input.dimensions = [1, tokens, sizes.hidden]) {turn : Nat}
    (hturn : turn < chunkTurns sizes) {loop next : ProjectionLoop F}
    (h : LoopInv decode sizes input tokens.toNat descriptor m turn loop)
    (hstep : projectChunk math kernels decode get sizes input headId tokens.toNat loop
      (turn * sizes.outputHeadChunkRows) = .ok next) :
    LoopInv decode sizes input tokens.toNat descriptor m (turn + 1) next := by
  have hpos := sizes.chunkRows_pos
  have hstart := (chunkTurns_spec sizes).1 turn hturn
  obtain ⟨head, materializer, product, hrows, hproduct, hcopy, hnext⟩ := projectChunk_ok hstep
  rw [← h.directory] at hfound
  obtain ⟨totalRows, hidden, hread⟩ := getBf16Rows_ok hfound hrows
  obtain ⟨hhidden, hcell⟩ := chunk_cell hread (by omega) hshape hproduct
  obtain ⟨hlength, hcopied⟩ := copyTokens_ok (by omega) hcopy
  have hwidth : descriptor.dimensions.getD 1 0 = hidden := by
    rw [hread.dimensions]
    rfl
  -- The last chunk ends with the vocabulary, also where the chunk rows do not divide it.
  have hlast : min ((turn + 1) * sizes.outputHeadChunkRows) sizes.vocab =
      turn * sizes.outputHeadChunkRows + min sizes.outputHeadChunkRows
        (sizes.vocab - turn * sizes.outputHeadChunkRows) := by
    rw [Nat.succ_mul]
    omega
  constructor
  · rw [hlength, h.length]
  · rw [hnext]
    exact hread.directory.trans h.directory
  · rw [hnext]
    exact hread.payload.trans h.payload
  · rw [hnext]
    show materializer.reads = _
    rw [hread.reads, h.reads, chunkRows, chunkRows, List.range_succ, List.map_append,
      List.map_append, List.append_assoc, hwidth, Nat.add_assoc, ← Nat.add_mul]
    rfl
  · rw [hwidth, hlast, hread.length, Nat.mul_assoc]
    exact Nat.mul_le_mul_right _ hread.inside
  · obtain ⟨-, -, hwidthPos, -⟩ := matmul_rows hshape hproduct
    have hsmall : totalRows < 2 ^ 64 := by
      have hle := Nat.mul_le_mul_left totalRows (Nat.succ_le_of_lt (hhidden ▸ hwidthPos))
      have hfits := hread.fits
      omega
    have htotal : descriptor.dimensions.getD 0 0 = totalRows := by
      rw [hread.dimensions]
      rfl
    rw [htotal, UInt64.toNat_ofNat_of_lt' hsmall, hlast]
    exact hread.inside
  · intro token htoken row hrow hdone
    rw [hcopied token htoken row hrow]
    split
    next hin =>
      -- A row of this chunk.
      rw [hcell token htoken _ (by omega), h.payload, Nat.add_sub_cancel' hin.1]
    next hout =>
      -- A row of an earlier one, which the copy has left alone.
      refine h.cells token htoken row hrow ?_
      rw [Nat.succ_mul] at hdone
      omega

/-- The logits are the product with the whole head, and its rows were read once each. -/
structure ProjectsWhole (decode : UInt16 → F) (sizes : ProjectionSizes) (input : GenericTensor F)
    (headId : UInt32) (head : TensorDescriptor) (before after : Materializer F)
    (logits : GenericTensor F) : Prop where
  dimensions : logits.dimensions = [1, input.dimensions.getD 1 0, UInt64.ofNat sizes.vocab]
  length : logits.values.length = (input.dimensions.getD 1 0).toNat * sizes.vocab
  product : ∀ whole product, before.wholeBf16 decode headId = .ok whole →
    matmul input whole = .ok product →
      ∀ token < (input.dimensions.getD 1 0).toNat, ∀ row < sizes.vocab, ∃ value,
        logits.values[token * sizes.vocab + row]? = some value ∧
          product.values[token * (product.dimensions.getD 2 0).toNat + row]? = some value
  reads : ∃ rows : List (Nat × Nat), Tiles Prod.fst Prod.snd 0 sizes.vocab rows ∧
    after.reads = before.reads ++ rows.map fun rows =>
      (head.payload.offset + rows.1 * (head.dimensions.getD 1 0 * 2),
        head.payload.offset + rows.2 * (head.dimensions.getD 1 0 * 2))
  inside : ∀ read ∈ after.reads, read ∈ before.reads ∨
    head.payload.offset ≤ read.1 ∧ read.2 ≤ head.payload.offset + head.payload.length

/-- The projection chunk by chunk is the projection at once. -/
theorem projectLogits_projectsWhole
    (hfound : getByIdentity m.directory headKeyId headId.toUInt16 = some descriptor)
    {logits : GenericTensor F} {peak : Nat} {after : Materializer F}
    (h : projectLogits math kernels decode get sizes input headId m = .ok ((logits, peak), after)) :
    ProjectsWhole decode sizes input headId descriptor m after logits := by
  unfold projectLogits at h
  rw [bind_eq_ok_iff] at h
  obtain ⟨_, hgeometry, h⟩ := h
  rw [rejectIf_eq_ok_iff, not_or, not_or, not_not, not_not, not_not] at hgeometry
  obtain ⟨hrank, hbatch, hhidden⟩ := hgeometry
  obtain ⟨batch, tokens, width, hshape⟩ := List.length_eq_three.1 hrank
  rw [hshape] at hbatch hhidden
  cases hbatch
  cases hhidden
  have htokens : input.dimensions.getD 1 0 = tokens := by
    rw [hshape]
    rfl
  rw [htokens] at h
  dsimp only at h
  rw [bind_eq_ok_iff] at h
  obtain ⟨_, -, h⟩ := h
  rw [bind_eq_ok_iff] at h
  obtain ⟨state, -, h⟩ := h
  rw [bind_eq_ok_iff] at h
  obtain ⟨last, hloop, h⟩ := h
  cases h
  have hinv : LoopInv decode sizes input tokens.toNat descriptor m (chunkTurns sizes) last := by
    refine foldlM_range_inv hloop ?_ fun turn hturn loop next hturns hstep =>
      loopInv_step hfound hshape hturn hturns hstep
    refine ⟨List.length_replicate, rfl, rfl, (List.append_nil _).symm, ?_, ?_, ?_⟩
    · rw [Nat.zero_mul, Nat.zero_min, Nat.zero_mul]
      exact Nat.zero_le _
    · rw [Nat.zero_mul, Nat.zero_min]
      exact Nat.zero_le _
    · intro token _ row _ hdone
      rw [Nat.zero_mul] at hdone
      exact absurd hdone (Nat.not_lt_zero row)
  have hturns := (chunkTurns_spec sizes).2
  have htiles := chunkRows_tiles sizes (Nat.le_refl (chunkTurns sizes))
  have hinside := hinv.inside
  have hrows := hinv.rows
  rw [Nat.min_eq_right hturns] at htiles hinside hrows
  constructor
  · rw [htokens, UInt64.ofNat_toNat]
  · rw [htokens]
    exact hinv.length
  · intro whole product hwhole hproduct token htoken row hrow
    rw [htokens] at htoken
    obtain ⟨hdims, hvalues⟩ := wholeBf16_ok hfound hwhole
    refine ⟨_, hinv.cells token htoken row hrow (by omega), ?_⟩
    have hcount : (whole.dimensions.getD 0 0).toNat =
        (UInt64.ofNat (descriptor.dimensions.getD 0 0)).toNat := by
      rw [hdims]
      cases descriptor.dimensions <;> rfl
    obtain ⟨-, -, -, hproductDims, -⟩ := matmul_rows hshape hproduct
    have hcell := matmul_cell hshape hproduct htoken (hcount ▸ Nat.lt_of_lt_of_le hrow hrows)
    rw [hvalues] at hcell
    rw [hproductDims]
    exact hcell
  · exact ⟨chunkRows sizes (chunkTurns sizes), htiles, hinv.reads⟩
  · intro read hread
    rw [hinv.reads, List.mem_append] at hread
    refine hread.imp_right fun hmem => ?_
    obtain ⟨rows, hrow, rfl⟩ := List.mem_map.1 hmem
    have hlast := Nat.mul_le_mul_right (descriptor.dimensions.getD 1 0 * 2)
      (htiles.bounds hrow).2
    dsimp only
    omega

end Whole

/-! ### The projection succeeds -/

section Exists

variable {F : Type} [Field F] [LinearOrder F] {math : ExactMath F} {kernels : GenericKernels F}
  {decode : UInt16 → F} {get : UInt32 → Except String (GenericTensor F)} {input : GenericTensor F}
  {headId : UInt32} {sizes : ProjectionSizes} {tokens : UInt64} {m : Materializer F}
  {descriptor : TensorDescriptor} {totalRows : Nat}

omit [LinearOrder F] in
/-- Tensors of matching shapes have a product, if a vector can hold it. -/
theorem exists_matmul {weight : GenericTensor F} {tokens width rows : UInt64}
    (hshape : input.dimensions = [1, tokens, width]) (hinput : input.WellFormed)
    (hweightShape : weight.dimensions = [rows, width]) (hweight : weight.WellFormed)
    (hroom : 4 * (tokens.toNat * rows.toNat) < 2 ^ 63) :
    ∃ product, matmul input weight = .ok product := by
  have helements := (input.elements_eq_ok_iff _).2 ⟨hinput, rfl⟩
  obtain ⟨hlength, -, hwidth⟩ := length_of_elements hshape helements
  simp only [matmul, checkedLastDimension, bind_eq_ok_iff, okOr_eq_ok_iff, rejectIf_eq_ok_iff]
  refine ⟨_, width, ?_, (), ?_, _, helements, _, (weight.elements_eq_ok_iff _).2 ⟨hweight, rfl⟩, (),
    ?_, rfl⟩
  · rw [hshape]
    rfl
  · rw [hweightShape, not_or, not_not, not_not]
    exact ⟨rfl, rfl⟩
  · rw [hlength, Nat.mul_div_cancel _ hwidth, hweightShape]
    exact Nat.not_le.2 hroom

/-- The graph of a chunk comes to its product. -/
theorem exists_executeGenericGraph {provider : UInt32 → Except String (GenericTensor F)}
    {head product : GenericTensor F} (hhead : provider headId = .ok head)
    (hproduct : matmul input head = .ok product) (state : GenericExecutionState F) :
    ∃ result, executeGenericGraph math kernels provider none (outputProjectionGraph headId) input
      state = (.ok result, state) ∧ result.values.lookup 1 = some product := by
  have hturn : executeGenericOperation math kernels provider none
      ⟨(∅ : AssocMap UInt32 (GenericTensor F)).insert 0 input, none, state⟩
      ⟨"lm_head_chunk", .matMul, [.value 0, .tensor headId], 1,
        { matmulWeightOperand := some .rhs, matmulTransposeWeight := some false }⟩ =
      .ok ⟨((∅ : AssocMap UInt32 (GenericTensor F)).insert 0 input).insert 1 product, none,
        state⟩ := by
    simp only [executeGenericOperation, operationOutput, bind_eq_ok_iff]
    refine ⟨product, ⟨input, valueInput_of_lookup rfl (AList.lookup_insert _), head, ?_, hproduct⟩,
      rfl⟩
    rw [tensorInput_of_input rfl, hhead]
  refine ⟨⟨((∅ : AssocMap UInt32 (GenericTensor F)).insert 0 input).insert 1 product, none⟩, ?_,
    AList.lookup_insert _⟩
  unfold executeGenericGraph outputProjectionGraph
  dsimp only
  rw [List.foldlM_cons, hturn]
  rfl

omit [Field F] [LinearOrder F] in
/-- A row of a chunk has room in the logits. -/
theorem exists_copyTokens {chunk logits : List F} {vocabulary rowStart rowCount sequence : Nat}
    (hrows : rowStart + rowCount ≤ vocabulary) (hchunk : chunk.length = sequence * rowCount)
    (hlogits : logits.length = sequence * vocabulary) :
    ∃ after, (List.range sequence).foldlM (copyToken chunk vocabulary rowStart rowCount) logits =
      .ok after ∧ after.length = sequence * vocabulary := by
  refine @exists_foldlM_range _ _ _
    (fun _ (current : List F) => current.length = sequence * vocabulary) _ sequence hlogits fun token htoken current hlength => ?_
  have hblock := Nat.mul_le_mul_right vocabulary (Nat.succ_le_of_lt htoken)
  have hsource := Nat.mul_le_mul_right rowCount (Nat.succ_le_of_lt htoken)
  rw [Nat.succ_mul] at hblock hsource
  have hcopy : copyToken chunk vocabulary rowStart rowCount current token = .ok
      (patch current (token * vocabulary + rowStart)
        (slice chunk (token * rowCount) (token * rowCount + rowCount - token * rowCount))) := by
    simp only [copyToken, bind_eq_ok_iff, okOr_eq_ok_iff, rejectIf_eq_ok_iff]
    exact ⟨(), by omega, _, range?_of_le (by omega) (by omega), rfl⟩
  exact ⟨_, hcopy, (copyToken_ok hcopy).1.trans hlength⟩

/-- A turn of the loop succeeds on well-formed tensors. -/
theorem exists_projectChunk
    (hfound : getByIdentity m.directory headKeyId headId.toUInt16 = some descriptor)
    (hhead : HoldsHead sizes descriptor totalRows m.payload)
    (hshape : input.dimensions = [1, tokens, sizes.hidden]) (hinput : input.WellFormed)
    (hroom : 4 * (tokens.toNat * sizes.vocab) < 2 ^ 63) {turn : Nat}
    (hturn : turn < chunkTurns sizes) {loop : ProjectionLoop F}
    (hlength : loop.logitsValues.length = tokens.toNat * sizes.vocab)
    (hdirectory : loop.materializer.directory = m.directory)
    (hpayload : loop.materializer.payload = m.payload) :
    ∃ next, projectChunk math kernels decode get sizes input headId tokens.toNat loop
        (turn * sizes.outputHeadChunkRows) = .ok next ∧
      next.logitsValues.length = tokens.toNat * sizes.vocab ∧
      next.materializer.directory = m.directory ∧ next.materializer.payload = m.payload := by
  have hpos := sizes.chunkRows_pos
  have hstart := (chunkTurns_spec sizes).1 turn hturn
  rw [← hdirectory] at hfound
  rw [← hpayload] at hhead
  have hrows : turn * sizes.outputHeadChunkRows + min sizes.outputHeadChunkRows
      (sizes.vocab - turn * sizes.outputHeadChunkRows) ≤ totalRows := by
    have := hhead.vocab
    omega
  obtain ⟨rows, after, hread⟩ :=
    @exists_getBf16Rows _ decode _ _ _ _ _ hfound hhead _ _ (by omega) hrows
  obtain ⟨total, hidden, hrowsRead⟩ := getBf16Rows_ok hfound hread
  obtain rfl : hidden = sizes.hidden.toNat := by
    have hsame := hrowsRead.dimensions.symm.trans hhead.dimensions
    cases hsame
    rfl
  obtain ⟨hrowsShape, hrowsFormed⟩ := hrowsRead.wellFormed (by omega) hhead.hidden
  have hcount := UInt64.toNat_ofNat_of_lt' hrowsRead.small
  have hchunkRoom : 4 * (tokens.toNat * (UInt64.ofNat (min sizes.outputHeadChunkRows
      (sizes.vocab - turn * sizes.outputHeadChunkRows))).toNat) < 2 ^ 63 := by
    rw [hcount]
    have hle := Nat.mul_le_mul_left tokens.toNat (Nat.le_trans (Nat.min_le_right
      sizes.outputHeadChunkRows _) (Nat.sub_le sizes.vocab (turn * sizes.outputHeadChunkRows)))
    omega
  obtain ⟨product, hproduct⟩ := exists_matmul hshape hinput hrowsShape hrowsFormed hchunkRoom
  obtain ⟨-, -, -, -, hproductLength, -⟩ := matmul_rows hshape hproduct
  rw [hrowsShape] at hproductLength
  obtain ⟨logits, hlogits, hlogitsLength⟩ := @exists_copyTokens _ product.values loop.logitsValues
    sizes.vocab (turn * sizes.outputHeadChunkRows) _ tokens.toNat (by omega)
    (hproductLength.trans (congrArg _ hcount)) hlength
  obtain ⟨result, hresult, hlookup⟩ := @exists_executeGenericGraph _ _ _ math kernels input headId
    (fun id => if id = headId then .ok rows else get id) _ _ (if_pos rfl) hproduct loop.outputState
  refine ⟨⟨logits, max loop.peakCacheBytes (after.cacheF32Bytes + rows.values.length * 4),
    { after with cache := after.cache.erase headId }, loop.outputState⟩, ?_, hlogitsLength,
    hrowsRead.directory.trans hdirectory, hrowsRead.payload.trans hpayload⟩
  unfold projectChunk
  dsimp only
  refine bind_eq_ok_iff.2 ⟨_, hread, bind_eq_ok_iff.2 ⟨outputProjectionGraph headId, ?_,
    bind_eq_ok_iff.2 ⟨result, ?_, bind_eq_ok_iff.2 ⟨product, okOr_eq_ok_iff.2 hlookup,
      bind_eq_ok_iff.2 ⟨logits, hlogits, ?_⟩⟩⟩⟩⟩
  · rw [mapErr_eq_ok_iff]
    exact lowerRegion_outputProjection math headId
  · rw [mapErr_eq_ok_iff, hresult]
  · rw [hresult]

/-- The projection succeeds on well-formed tensors. -/
theorem exists_projectLogits
    (hfound : getByIdentity m.directory headKeyId headId.toUInt16 = some descriptor)
    (hhead : HoldsHead sizes descriptor totalRows m.payload)
    (hshape : input.dimensions = [1, tokens, sizes.hidden]) (hinput : input.WellFormed)
    (hroom : 4 * (tokens.toNat * sizes.vocab) < 2 ^ 63) :
    ∃ logits peak after, projectLogits math kernels decode get sizes input headId m =
      .ok ((logits, peak), after) := by
  have hstate : (GenericExecutionState.new 0xFFFFFFFE 1 : Except String (GenericExecutionState F)) =
      .ok ⟨0xFFFFFFFE, 1, 0, 0, 0, 0, [], []⟩ := rfl
  obtain ⟨last, hlast, -⟩ := @exists_foldlM_range String (ProjectionLoop F)
    (fun loop turn => projectChunk math kernels decode get sizes input headId tokens.toNat loop
      (turn * sizes.outputHeadChunkRows))
    (fun _ loop => loop.logitsValues.length = tokens.toNat * sizes.vocab ∧
      loop.materializer.directory = m.directory ∧ loop.materializer.payload = m.payload)
    ⟨List.replicate (tokens.toNat * sizes.vocab) 0, m.cacheF32Bytes, m,
      ⟨0xFFFFFFFE, 1, 0, 0, 0, 0, [], []⟩⟩
    (chunkTurns sizes) ⟨List.length_replicate, rfl, rfl⟩ fun turn hturn loop hloop =>
      exists_projectChunk hfound hhead hshape hinput hroom hturn hloop.1 hloop.2.1 hloop.2.2
  simp only [projectLogits, bind_eq_ok_iff, rejectIf_eq_ok_iff]
  refine ⟨_, _, _, (), ?_, (), ?_, _, hstate, last, ?_, rfl⟩
  · rw [hshape, not_or, not_or, not_not, not_not, not_not]
    exact ⟨rfl, rfl, rfl⟩
  · rw [hshape]
    exact Nat.not_le.2 hroom
  · rw [hshape]
    exact hlast

omit [LinearOrder F] in
/-- So does the projection at once, if a vector can hold its product. -/
theorem exists_wholeProduct
    (hfound : getByIdentity m.directory headKeyId headId.toUInt16 = some descriptor)
    (hhead : HoldsHead sizes descriptor totalRows m.payload)
    (hshape : input.dimensions = [1, tokens, sizes.hidden]) (hinput : input.WellFormed)
    (hrows : 0 < totalRows) (hroom : 4 * (tokens.toNat * totalRows) < 2 ^ 63) :
    ∃ whole product, m.wholeBf16 decode headId = .ok whole ∧ matmul input whole = .ok product := by
  have hbound : descriptor.payload.offset + descriptor.payload.length < 2 ^ 64 :=
    descriptor.payload.range.fits
  have hlength := hhead.length
  have hone := Nat.mul_le_mul_left totalRows (Nat.succ_le_of_lt (toNat_pos_of_ne hhead.hidden))
  have hsmall : totalRows < 2 ^ 64 := by omega
  have hcount := UInt64.toNat_ofNat_of_lt' hsmall
  -- The whole tensor as rows from the first to the last.
  have hwhole : RowsRead decode descriptor 0 totalRows m
      ⟨[UInt64.ofNat totalRows, UInt64.ofNat sizes.hidden.toNat],
        headValues decode descriptor m.payload⟩
      { m with reads := m.reads ++ [(descriptor.payload.offset + 0 * (sizes.hidden.toNat * 2),
        descriptor.payload.offset + 0 * (sizes.hidden.toNat * 2) +
          totalRows * (sizes.hidden.toNat * 2))] } totalRows sizes.hidden.toNat := by
    have hbytes : totalRows * (sizes.hidden.toNat * 2) = descriptor.payload.length := by
      rw [hlength, Nat.mul_assoc]
    refine ⟨hhead.representation, hhead.dimensions, by omega, hlength, hsmall, by omega, ?_, rfl,
      ?_, rfl, rfl, rfl⟩
    · rw [hbytes, Nat.zero_mul, Nat.add_zero]
      exact hhead.inside
    · rw [hbytes, Nat.zero_mul, Nat.add_zero]
      rfl
  obtain ⟨hwholeShape, hformed⟩ := hwhole.wellFormed hrows hhead.hidden
  obtain ⟨product, hproduct⟩ := exists_matmul hshape hinput hwholeShape hformed
    (by rw [hcount]; exact hroom)
  have hdims : [UInt64.ofNat totalRows, UInt64.ofNat sizes.hidden.toNat] =
      descriptor.dimensions.map UInt64.ofNat := by
    rw [hhead.dimensions]
    rfl
  rw [hdims] at hformed hproduct
  have hpiece : range? m.payload descriptor.payload.offset
      (descriptor.payload.offset + descriptor.payload.length) =
        some (slice m.payload descriptor.payload.offset descriptor.payload.length) := by
    rw [range?_of_le (Nat.le_add_right _ _) hhead.inside, Nat.add_sub_cancel_left]
  refine ⟨_, product, ?_, hproduct⟩
  simp only [Materializer.wholeBf16, Materializer.bytes, hfound, bind_eq_ok_iff, okOr_eq_ok_iff,
    rejectIf_eq_ok_iff]
  refine ⟨_, ⟨descriptor, rfl, (), not_not.2 hhead.source, (), Nat.not_le.2 hbound, _, hpiece, rfl⟩,
    (), not_not.2 hhead.representation, (), ?_, _,
    (GenericTensor.elements_eq_ok_iff _ _).2 ⟨hformed, rfl⟩, rfl⟩
  rw [slice_length_of_le hhead.inside, hlength, Nat.mul_mod_left, not_not]

end Exists

/-! ### A projection -/

/-- A head of equal numbers behind a header of eight bytes. -/
def evenHead : TensorDescriptor where
  name := "lm_head.weight"
  dimensions := [151552, 4096]
  representation := .bf16
  keyId := 512
  occurrence := 0
  blockIndex := 0
  range := none
  payload := ⟨⟨1⟩, ⟨8, 1241513984, by decide⟩⟩

def evenMaterializer : Materializer ℚ where
  directory := ⟨[evenHead]⟩
  payload := List.replicate 1241513992 0x3f
  cache := ∅
  touched := ∅
  touchedRanges := ∅
  sourceBytes := 0
  reads := []

/-- The number of the one word of the head. -/
def evenWord (word : UInt16) : ℚ := if word = 0x3f3f then 191 / 256 else 0

/-- The hidden state of one token. -/
def evenHidden : GenericTensor ℚ := ⟨[1, 1, 4096], List.replicate 4096 2⟩

theorem evenHead_holds : HoldsHead blockSizes evenHead 151552 evenMaterializer.payload where
  representation := rfl
  dimensions := rfl
  source := rfl
  length := by decide
  vocab := Nat.le_refl _
  inside := by
    rw [evenMaterializer, List.length_replicate]
    decide
  hidden := by decide

theorem evenHidden_wellFormed : evenHidden.WellFormed where
  nonzero := by
    show ∀ d ∈ ([1, 1, 4096] : List UInt64), d ≠ 0
    simp
  fits := by
    show elementCount [1, 1, 4096] < 2 ^ 64
    simp [elementCount]
  length := by
    show (List.replicate 4096 (2 : ℚ)).length = elementCount [1, 1, 4096]
    rw [List.length_replicate]
    simp [elementCount]

theorem projectLogits_projectsWhole_evenHead :
    ∃ logits peak after whole product,
      projectLogits SequenceGeometry.exampleMath
        (exactKernels SequenceGeometry.exampleMath fun input _ => .ok input) evenWord
        (fun _ => .error "absent") blockSizes evenHidden 0 evenMaterializer =
          .ok ((logits, peak), after) ∧
      evenMaterializer.wholeBf16 evenWord 0 = .ok whole ∧
      matmul evenHidden whole = .ok product ∧
      ProjectsWhole evenWord blockSizes evenHidden 0 evenHead evenMaterializer after
        logits := by
  have hfound : getByIdentity evenMaterializer.directory headKeyId (0 : UInt32).toUInt16 =
      some evenHead := rfl
  obtain ⟨logits, peak, after, hproject⟩ := @exists_projectLogits _ _ _ SequenceGeometry.exampleMath
    (exactKernels SequenceGeometry.exampleMath fun input _ => .ok input) evenWord
    (fun _ => .error "absent") _ _ _ 1 _ _ _ hfound evenHead_holds rfl evenHidden_wellFormed
    (by decide)
  obtain ⟨whole, product, hwhole, hproduct⟩ := @exists_wholeProduct _ _ evenWord _ _ _ 1
    _ _ _ hfound evenHead_holds rfl evenHidden_wellFormed (by decide) (by decide)
  exact ⟨logits, peak, after, whole, product, hproject, hwhole, hproduct,
    projectLogits_projectsWhole hfound hproject⟩

end VBuf.Runtime
