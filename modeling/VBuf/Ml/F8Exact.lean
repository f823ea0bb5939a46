import VBuf.Ml.ConsumerTypes
import VBuf.Ml.F8Tensors

/-!
# Validated FP8 tensors

An entry that the validator accepts is found and materialized without an error or an
index out of range.  The products are those of the stored scales exactly when the scale
block holds floats, or nothing but zeros.
-/

namespace VBuf.Ml

open VBuf.Lib VBuf.Layout VBuf.V06

/-! ### What validation promises -/

namespace TensorDirectory

variable {validated : Validated} {bootstrap : Bootstrap} {sources : SourceRegistry}
  {external : List (UInt16 × UInt16 × TensorRef)} {directory : TensorDirectory}

theorem mem_of_get {name : String} {tensor : TensorDescriptor}
    (h : directory.get name = some tensor) : tensor ∈ directory.tensors :=
  List.mem_of_find?_eq_some h

/-- The bytes of a local tensor are as many as its payload says. -/
theorem Bound.bytes_length {bytes : List UInt8} {tensor : TensorDescriptor} {target : Block}
    (hparse : parseV06 bytes = .ok validated)
    (h : tensor.Bound validated sources external target) {range : CheckedRange}
    (hrange : tensor.range = some range) : range.bytes.length = tensor.payload.length := by
  have hlength : range.range.length = tensor.payload.length :=
    Bound.range_length_eq hparse h (by rw [blockRange, hrange]; rfl)
  have hbytes : range.bytes.length = range.length := slice_length_of_le range.bounded
  exact hbytes.trans hlength

end TensorDirectory

theorem checkedProduct_pair {rows columns elements : Nat}
    (h : checkedProduct [rows, columns] = some elements) :
    rows * columns < u64Bound ∧ elements = rows * columns := by
  rw [checkedProduct, List.foldlM_cons, Option.bind_eq_bind, Option.bind_eq_some_iff] at h
  obtain ⟨first, hfirst, h⟩ := h
  obtain ⟨-, rfl⟩ := checkedMul?_eq_some_iff.1 hfirst
  rw [Nat.one_mul, List.foldlM_cons, Option.bind_eq_bind, Option.bind_eq_some_iff] at h
  obtain ⟨second, hsecond, h⟩ := h
  obtain ⟨hlt, rfl⟩ := checkedMul?_eq_some_iff.1 hsecond
  cases h
  exact ⟨hlt, rfl⟩

theorem divCeil_one (value : Nat) : divCeil value 1 = value := by
  rw [divCeil, if_pos (Nat.mod_one value), Nat.div_one]

theorem divCeil_self {value : Nat} (h : 0 < value) : divCeil value value = 1 := by
  rw [divCeil, if_pos (Nat.mod_self value), Nat.div_self h]

theorem divCeil_pos {value divisor : Nat} (hvalue : 0 < value) (hdivisor : divisor ≠ 0) :
    0 < divCeil value divisor :=
  Nat.zero_lt_of_lt (div_lt_divCeil hdivisor hvalue)

/-- In either layout the tensor of scales has one element for each cell of the grid. -/
theorem ScaleShape.prod {rows columns blockRows blockColumns : Nat} {dimensions : List Nat}
    (h : F8QuantizationDirectory.ScaleShape rows columns blockRows blockColumns dimensions)
    (hcolumns : 0 < columns) :
    dimensions.prod = divCeil rows blockRows * divCeil columns blockColumns := by
  rcases h with rfl | ⟨⟨rfl, rfl⟩, rfl⟩
  · rw [List.prod_cons, List.prod_singleton]
  · rw [List.prod_singleton, divCeil_one, divCeil_self hcolumns, Nat.mul_one]

/-- And a cell of the grid is at one position in both. -/
theorem ScaleShape.scaleElement_eq {rows columns blockRows blockColumns : Nat}
    {dimensions : List Nat}
    (h : F8QuantizationDirectory.ScaleShape rows columns blockRows blockColumns dimensions)
    (hcolumns : 0 < columns) {gridRow gridColumn : Nat}
    (hgrid : gridColumn < divCeil columns blockColumns) :
    scaleElement dimensions gridRow gridColumn =
      gridRow * divCeil columns blockColumns + gridColumn := by
  rcases h with rfl | ⟨⟨rfl, rfl⟩, rfl⟩
  · rfl
  · rw [divCeil_self hcolumns] at hgrid ⊢
    obtain rfl := Nat.lt_one_iff.1 hgrid
    rw [Nat.mul_one]
    rfl

/-- What the validator has compared of an entry. -/
structure F8Checked (entry : F8QuantizationEntry) (weight scale : TensorDescriptor)
    (rows columns : Nat) : Prop where
  weight_f8 : weight.representation = .f8E4M3
  dimensions_eq : weight.dimensions = [rows, columns]
  scale_primitive : scale.representation = .canonicalPrimitive
  scaleBytes_lt : divCeil rows entry.blockRows * divCeil columns entry.blockColumns * 4 < u64Bound
  shape : F8QuantizationDirectory.ScaleShape rows columns entry.blockRows entry.blockColumns
    scale.dimensions
  payload_length : scale.payload.length =
    divCeil rows entry.blockRows * divCeil columns entry.blockColumns * 4

theorem F8QuantizationDirectory.checked_of_validate {directory : TensorDirectory}
    {entry : F8QuantizationEntry} {weight scale : TensorDescriptor}
    (h : validateEntryAgainst directory entry = .ok ())
    (hweight : directory.get entry.weightName = some weight)
    (hscale : directory.get entry.scaleName = some scale) :
    ∃ rows columns, F8Checked entry weight scale rows columns := by
  simp only [validateEntryAgainst, bind_eq_ok_iff, okOr_eq_ok_iff, rejectIf_eq_ok_iff,
    Option.bind_eq_some_iff, checkedMul?_eq_some_iff, not_or, not_not, hweight, hscale,
    Option.some.injEq] at h
  obtain ⟨_, rfl, _, rfl, _, ⟨hf8, hrank, hprimitive, -⟩, expected, ⟨cells, ⟨-, rfl⟩, hlt, rfl⟩,
    hshape, hlength⟩ := h
  obtain ⟨rows, columns, hdimensions⟩ := List.length_eq_two.1 hrank
  rw [hdimensions] at hlt hshape hlength
  exact ⟨rows, columns, hf8, hdimensions, hprimitive, hlt, hshape, hlength⟩

section Validated

open TensorDirectory F8QuantizationDirectory

variable {bytes : List UInt8} {validated : Validated} {bootstrap : Bootstrap}
  {sources : SourceRegistry} {external : List (UInt16 × UInt16 × TensorRef)}
  {directory : TensorDirectory} {entry : F8QuantizationEntry} {weight scale : TensorDescriptor}
  {weightTarget target : Block} {weightRange scaleRange : CheckedRange} {rows columns : Nat}

theorem F8Checked.columns_pos (h : F8Checked entry weight scale rows columns)
    (hweight : weight.Bound validated sources external weightTarget) : 0 < columns := by
  have hzero := hweight.dimensions_pos
  rw [h.dimensions_eq, List.mem_cons, List.mem_singleton, not_or] at hzero
  exact Nat.pos_of_ne_zero (Ne.symm hzero.2)

/-- The payloads of a checked entry fit together. -/
theorem F8Checked.geometry (hparse : parseV06 bytes = .ok validated)
    (h : F8Checked entry weight scale rows columns) (hvalid : ValidEntry entry)
    (hbounded : Bounded entry)
    (hweight : weight.Bound validated sources external weightTarget)
    (hscale : scale.Bound validated sources external target)
    (hweightRange : weight.range = some weightRange) (hscaleRange : scale.range = some scaleRange) :
    F8Geometry weightRange.bytes scaleRange.bytes rows columns entry.blockRows
      entry.blockColumns := by
  obtain ⟨-, -, -, -, hblockRows, hblockColumns⟩ := hvalid
  have hsize := (Bound.packed hweight (by rw [h.weight_f8]; exact nofun)).2
  rw [h.weight_f8, h.dimensions_eq, expectedPayloadBytes, bind_eq_ok_iff] at hsize
  obtain ⟨elements, helements, hsize⟩ := hsize
  have hproduct := logicalElements_eq_ok_iff.1 helements
  obtain ⟨hlt, hvalue⟩ := checkedProduct_pair hproduct
  have hdimension := dimension_lt (h.dimensions_eq ▸ hweight.dimensions_pos) hproduct
  have hpayload : elements = weight.payload.length := pure_eq_ok_iff.1 hsize
  exact
    { rows_lt := hdimension rows List.mem_cons_self
      columns_lt := hdimension columns (List.mem_cons_of_mem _ List.mem_cons_self)
      columns_pos := h.columns_pos hweight
      blockRows_lt := hbounded.1
      blockColumns_lt := hbounded.2
      blockRows_ne := hblockRows
      blockColumns_ne := hblockColumns
      elements_lt := hlt
      payload_length := (Bound.bytes_length hparse hweight hweightRange).trans
        (hpayload.symm.trans hvalue)
      scaleBytes_lt := h.scaleBytes_lt
      scales_length := (Bound.bytes_length hparse hscale hscaleRange).trans h.payload_length }

/-- A checked scale tensor has 32-bit elements, but of any number type. -/
theorem F8Checked.scale_width (hparse : parseV06 bytes = .ok validated)
    (h : F8Checked entry weight scale rows columns)
    (hweight : weight.Bound validated sources external weightTarget)
    (hscale : scale.Bound validated sources external target) :
    target.bitWidth = 32 ∧ target.semantic ≠ .opaqueBytes := by
  obtain ⟨hwhole, elements, helements, hlength⟩ := Bound.primitive hscale h.scale_primitive
  have hpos := logicalElements_pos hscale.dimensions_pos helements
  have hproduct := checkedProduct_eq (logicalElements_eq_ok_iff.1 helements)
  have hcells := ScaleShape.prod h.shape (h.columns_pos hweight)
  have hbytes : elements * (target.bitWidth / 8) = elements * 4 := by
    rw [← hlength, h.payload_length, hproduct, hcells]
  have hwidth : target.bitWidth = 32 := by
    have hfour := Nat.eq_of_mul_eq_mul_left hpos hbytes
    omega
  refine ⟨hwidth, ?_⟩
  intro hsemantic
  have hlegal := ((parseV06_eq_ok_iff.1 hparse).2.blockAt
    (List.mem_of_getElem? hscale.block_eq)).legalWidth
  rw [hsemantic, hwidth] at hlegal
  exact absurd hlegal (by decide)

end Validated

/-! ### The scales -/

theorem ofLeBytes_eq_zero_iff {bytes : List UInt8} :
    ofLeBytes bytes = 0 ↔ ∀ byte ∈ bytes, byte = 0 := by
  induction bytes with
  | nil => exact iff_of_true rfl nofun
  | cons byte rest ih =>
      rw [List.forall_mem_cons, ← ih, ofLeBytes]
      constructor
      · intro h
        exact ⟨UInt8.toNat_inj.1 (by rw [UInt8.toNat_zero]; omega), by omega⟩
      · rintro ⟨rfl, hrest⟩
        rw [hrest]
        rfl

/-- A tensor of words is zero exactly when its bytes are. -/
theorem scaleWord_eq_zero_iff {scales : List UInt8} {count : Nat}
    (hlength : scales.length = count * 4) :
    (∀ position < count, scaleWord scales position = 0) ↔ ∀ byte ∈ scales, byte = 0 := by
  constructor
  · intro h byte hbyte
    obtain ⟨index, hindex, rfl⟩ := List.getElem_of_mem hbyte
    have hword := ofLeBytes_eq_zero_iff.1 (h (index / 4) (by omega))
    refine hword _ (List.mem_of_getElem? (i := index % 4) ?_)
    have hsplit : index / 4 * 4 + index % 4 = index := by omega
    rw [getElem?_slice (Nat.mod_lt _ (by decide)), hsplit, List.getElem?_eq_getElem hindex]
  · intro h position _
    refine ofLeBytes_eq_zero_iff.2 fun byte hbyte => h byte ?_
    exact List.mem_of_mem_drop (List.mem_of_mem_take hbyte)

theorem scaleWord_lt (scales : List UInt8) (position : Nat) : scaleWord scales position < 2 ^ 32 := by
  have hlt := ofLeBytes_lt (slice scales (position * 4) 4)
  have hle : (slice scales (position * 4) 4).length ≤ 4 := List.length_take_le _ _
  calc scaleWord scales position
      < 256 ^ (slice scales (position * 4) 4).length := hlt
    _ ≤ 256 ^ 4 := Nat.pow_le_pow_right (by decide) hle

/-- A word is the number of its element exactly for floats and for zero. -/
theorem elementNumber_eq_ofBits_iff {semantic : Semantic} {word : Nat} (hword : word < 2 ^ 32)
    (hnumber : semantic ≠ .opaqueBytes) :
    elementNumber semantic word = some (.ofBits word) ↔ semantic = .float ∨ word = 0 := by
  cases semantic with
  | unsigned =>
      rw [elementNumber, Option.some.injEq, eq_comm, Number.ofBits_eq_unsigned_iff hword]
      exact ⟨Or.inr, fun h => h.resolve_left nofun⟩
  | float => exact iff_of_true rfl (Or.inl rfl)
  | signed =>
      rw [elementNumber, Option.some.injEq, eq_comm, Number.ofBits_eq_signed_iff hword]
      exact ⟨Or.inr, fun h => h.resolve_left nofun⟩
  | opaqueBytes => exact absurd rfl hnumber

section Exact

variable {payload scales : List UInt8} {rows columns blockRows blockColumns : Nat}

/-- Each scale is the scale of an element. -/
theorem F8Geometry.exists_position
    (h : F8Geometry payload scales rows columns blockRows blockColumns) {position : Nat}
    (hposition : position < divCeil rows blockRows * divCeil columns blockColumns) :
    ∃ row < rows, ∃ column < columns,
      scalePosition columns blockRows blockColumns row column = position := by
  have hgrid : 0 < divCeil columns blockColumns := divCeil_pos h.columns_pos h.blockColumns_ne
  have hrow : position / divCeil columns blockColumns < divCeil rows blockRows :=
    (Nat.div_lt_iff_lt_mul hgrid).2 hposition
  have hcolumn : position % divCeil columns blockColumns < divCeil columns blockColumns :=
    Nat.mod_lt _ hgrid
  refine ⟨_, mul_lt_of_lt_divCeil h.blockRows_ne hrow, _,
    mul_lt_of_lt_divCeil h.blockColumns_ne hcolumn, ?_⟩
  rw [scalePosition, Nat.mul_div_cancel _ (Nat.pos_of_ne_zero h.blockRows_ne),
    Nat.mul_div_cancel _ (Nat.pos_of_ne_zero h.blockColumns_ne)]
  exact Nat.div_add_mod' position _

/-- All elements get the numbers of their scales exactly when the scales are floats or zero. -/
theorem F8Geometry.elementNumbers_iff
    (h : F8Geometry payload scales rows columns blockRows blockColumns) {semantic : Semantic}
    (hnumber : semantic ≠ .opaqueBytes) :
    (∀ row < rows, ∀ column < columns,
      elementNumber semantic
          (scaleWord scales (scalePosition columns blockRows blockColumns row column)) =
        some (.ofBits (scaleWord scales
          (scalePosition columns blockRows blockColumns row column)))) ↔
      semantic = .float ∨ ∀ byte ∈ scales, byte = 0 := by
  rw [← scaleWord_eq_zero_iff h.scales_length]
  constructor
  · intro hall
    by_cases hfloat : semantic = .float
    · exact Or.inl hfloat
    · right
      intro position hposition
      obtain ⟨row, hrow, column, hcolumn, rfl⟩ := h.exists_position hposition
      exact ((elementNumber_eq_ofBits_iff (scaleWord_lt _ _) hnumber).1
        (hall row hrow column hcolumn)).resolve_left hfloat
  · intro hgood row hrow column hcolumn
    rw [elementNumber_eq_ofBits_iff (scaleWord_lt _ _) hnumber]
    exact hgood.imp_right fun hzero => hzero _ (h.position_lt hrow hcolumn)

end Exact

/-- The tensor of an entry is materialized: the entry is found, and each element is the
product of its weight and the number that the scale tensor stores for its block, under
every multiplication. -/
def MaterializesExactly (validated : Validated) (directory : TensorDirectory)
    (quantization : F8QuantizationDirectory) (entry : F8QuantizationEntry)
    (weight scale : TensorDescriptor) : Prop :=
  ∃ rows columns weightRange scaleRange target,
    weight.dimensions = [rows, columns] ∧ weight.range = some weightRange ∧
    scale.range = some scaleRange ∧ validated.blocks[scale.blockIndex]? = some target ∧
    ∀ (α : Type) (zero : α) (mul : Number → Number → α), ∃ output,
      materializeF8Tensor zero mul directory (some quantization) entry.weightName =
        .ok (some output) ∧ output.length = rows * columns ∧
      ∀ row < rows, ∀ column < columns, ∃ byte number,
        weightRange.bytes[row * columns + column]? = some byte ∧
        storedNumber target scaleRange.bytes (scaleElement scale.dimensions
          (row / entry.blockRows) (column / entry.blockColumns)) = some number ∧
        output[row * columns + column]? = some (mul (e4m3fnToF32 byte) number)

/-- The scale tensor lies in a block of floats, or all its bytes are zero. -/
def ScaleReadsAsFloat (validated : Validated) (scale : TensorDescriptor) : Prop :=
  ∀ target ∈ validated.blocks[scale.blockIndex]?, target.semantic = .float ∨
    ∀ range ∈ scale.range, ∀ byte ∈ range.bytes, byte = 0

instance (validated : Validated) (scale : TensorDescriptor) :
    Decidable (ScaleReadsAsFloat validated scale) :=
  inferInstanceAs (Decidable (∀ target ∈ validated.blocks[scale.blockIndex]?, _ ∨ _))

section Main

open TensorDirectory F8QuantizationDirectory

variable {bytes : List UInt8} {validated : Validated} {bootstrap : Bootstrap}
  {sources : SourceRegistry} {external : List (UInt16 × UInt16 × TensorRef)}
  {directory : TensorDirectory} {quantization : F8QuantizationDirectory}
  {entry : F8QuantizationEntry} {weight scale : TensorDescriptor}
  {target : Block} {weightRange scaleRange : CheckedRange} {rows columns : Nat}

/-- A parsed profile was made by `new`, from entries of `u64` blocks. -/
theorem new_of_parse (h : F8QuantizationDirectory.parse validated bootstrap = .ok (some quantization)) :
    (∃ entries, F8QuantizationDirectory.new entries = .ok quantization) ∧
      ∀ entry ∈ quantization.entries, ValidEntry entry ∧ Bounded entry := by
  rw [F8QuantizationDirectory.parse] at h
  split at h
  · cases h
  · rename_i region _
    simp only [bind_eq_ok_iff, pure_eq_ok_iff, Option.some.injEq] at h
    obtain ⟨block, -, _, -, parsed, hparsed, rfl⟩ := h
    have hbounded := bounded_of_parsePayload hparsed
    obtain ⟨records, hstores, hnew, -⟩ := stores_of_parsePayload hparsed
    obtain ⟨hvalid, -, hentries⟩ := new_eq_ok_iff.1 hnew
    refine ⟨⟨records, hnew⟩, fun entry hentry => ⟨?_, hbounded entry hentry⟩⟩
    rw [hentries] at hentry
    exact hvalid entry ((List.mem_insertionSort _).1 hentry)

/-- The materializer on a checked entry. -/
theorem materializeF8Tensor_eq (h : F8Checked entry weight scale rows columns)
    (hgeometry : F8Geometry weightRange.bytes scaleRange.bytes rows columns entry.blockRows
      entry.blockColumns) (hfound : quantization.get entry.weightName = some entry)
    (hweight : directory.get entry.weightName = some weight)
    (hscale : directory.get entry.scaleName = some scale)
    (hweightRange : weight.range = some weightRange) (hscaleRange : scale.range = some scaleRange)
    {α : Type} (zero : α) (mul : Number → Number → α) :
    materializeF8Tensor zero mul directory (some quantization) entry.weightName =
      .ok (some ((List.range (rows * columns)).map fun i =>
        elementValue mul weightRange.bytes scaleRange.bytes columns entry.blockRows
          entry.blockColumns (i / columns) (i % columns))) := by
  rw [materializeF8Tensor, hweight]
  dsimp only
  rw [if_neg (not_not.2 h.weight_f8)]
  simp only [bind_eq_ok_iff, okOr_eq_ok_iff, pure_eq_ok_iff, Option.some.injEq, h.dimensions_eq]
  exact ⟨quantization, rfl, entry, hfound, scale, hscale, weightRange, hweightRange, scaleRange,
    hscaleRange, rows, rfl, columns, rfl, _, dequantizeF8E4M3_eq hgeometry, rfl⟩

/-- The number stored for an element is its scale, read with the type of the block. -/
theorem storedNumber_eq (h : F8Checked entry weight scale rows columns)
    (hgeometry : F8Geometry weightRange.bytes scaleRange.bytes rows columns entry.blockRows
      entry.blockColumns) (hwidth : target.bitWidth = 32) {row column : Nat} (hrow : row < rows)
    (hcolumn : column < columns) :
    storedNumber target scaleRange.bytes (scaleElement scale.dimensions (row / entry.blockRows)
        (column / entry.blockColumns)) =
      elementNumber target.semantic (scaleWord scaleRange.bytes
        (scalePosition columns entry.blockRows entry.blockColumns row column)) := by
  rw [ScaleShape.scaleElement_eq h.shape hgeometry.columns_pos
    (div_lt_divCeil hgeometry.blockColumns_ne hcolumn), storedNumber, if_pos hwidth]
  have hcell := hgeometry.range?_scales (hgeometry.position_lt hrow hcolumn)
  rw [scalePosition] at hcell ⊢
  rw [hcell]
  rfl

/-- The elements are the products of the stored scales exactly when the words of the scales
are the numbers stored. -/
theorem materializesExactly_iff (h : F8Checked entry weight scale rows columns)
    (hgeometry : F8Geometry weightRange.bytes scaleRange.bytes rows columns entry.blockRows
      entry.blockColumns) (hfound : quantization.get entry.weightName = some entry)
    (hweight : directory.get entry.weightName = some weight)
    (hscale : directory.get entry.scaleName = some scale)
    (hweightRange : weight.range = some weightRange) (hscaleRange : scale.range = some scaleRange)
    (htarget : validated.blocks[scale.blockIndex]? = some target)
    (hwidth : target.bitWidth = 32) :
    MaterializesExactly validated directory quantization entry weight scale ↔
      ∀ row < rows, ∀ column < columns,
        elementNumber target.semantic (scaleWord scaleRange.bytes
            (scalePosition columns entry.blockRows entry.blockColumns row column)) =
          some (.ofBits (scaleWord scaleRange.bytes
            (scalePosition columns entry.blockRows entry.blockColumns row column))) := by
  have hcell : ∀ {α : Type} (mul : Number → Number → α) (row column : Nat), row < rows →
      column < columns → ((List.range (rows * columns)).map fun i =>
        elementValue mul weightRange.bytes scaleRange.bytes columns entry.blockRows
          entry.blockColumns (i / columns) (i % columns))[row * columns + column]? =
        some (elementValue mul weightRange.bytes scaleRange.bytes columns entry.blockRows
          entry.blockColumns row column) := by
    intro α mul row column hrow hcolumn
    obtain ⟨hdiv, hmod⟩ := div_mod_block hcolumn row
    rw [List.getElem?_map, List.getElem?_range (block_lt hrow hcolumn), Option.map_some, hdiv,
      hmod]
  constructor
  · rintro ⟨rows', columns', _, _, _, hdimensions, hweightRange', hscaleRange', htarget', hall⟩
      row hrow column hcolumn
    rw [h.dimensions_eq] at hdimensions
    rw [hweightRange] at hweightRange'
    rw [hscaleRange] at hscaleRange'
    rw [htarget] at htarget'
    cases hdimensions
    cases hweightRange'
    cases hscaleRange'
    cases htarget'
    -- The pair of the factors is a multiplication that keeps them apart.
    obtain ⟨output, houtput, -, helements⟩ := hall (Number × Number) (.nan, .nan) Prod.mk
    rw [materializeF8Tensor_eq h hgeometry hfound hweight hscale hweightRange hscaleRange,
      Except.ok.injEq, Option.some.injEq] at houtput
    obtain ⟨byte, number, -, hstored, helement⟩ := helements row hrow column hcolumn
    rw [storedNumber_eq h hgeometry hwidth hrow hcolumn] at hstored
    rw [← houtput, hcell Prod.mk row column hrow hcolumn, Option.some.injEq, elementValue,
      Prod.mk.injEq] at helement
    rw [hstored, helement.2]
  · intro hnumbers
    refine ⟨rows, columns, weightRange, scaleRange, target, h.dimensions_eq, hweightRange,
      hscaleRange, htarget, fun α zero mul => ⟨_, materializeF8Tensor_eq h hgeometry hfound
        hweight hscale hweightRange hscaleRange zero mul, ?_, ?_⟩⟩
    · rw [List.length_map, List.length_range]
    · intro row hrow column hcolumn
      have hpayload : row * columns + column < weightRange.bytes.length := by
        rw [hgeometry.payload_length]
        exact block_lt hrow hcolumn
      refine ⟨_, _, List.getElem?_eq_getElem hpayload,
        (storedNumber_eq h hgeometry hwidth hrow hcolumn).trans (hnumbers row hrow column hcolumn),
        ?_⟩
      rw [hcell mul row column hrow hcolumn, elementValue, List.getD_eq_getElem _ _ hpayload]

/-- A validated entry with local payloads is materialized exactly if and only if its scale
reads as a float. -/
theorem materializesExactly_iff_readsAsFloat (hparse : parseV06 bytes = .ok validated)
    (hdirectory : parseWithSources validated bootstrap sources external = .ok directory)
    (hquantization : F8QuantizationDirectory.parse validated bootstrap = .ok (some quantization))
    (hvalid : quantization.validateAgainst directory = .ok ())
    (hentry : entry ∈ quantization.entries)
    (hweight : directory.get entry.weightName = some weight)
    (hscale : directory.get entry.scaleName = some scale)
    (hweightLocal : weight.range.isSome = true) (hscaleLocal : scale.range.isSome = true) :
    MaterializesExactly validated directory quantization entry weight scale ↔
      ScaleReadsAsFloat validated scale := by
  obtain ⟨⟨records, hnew⟩, hentries⟩ := new_of_parse hquantization
  obtain ⟨hvalidEntry, hbounded⟩ := hentries entry hentry
  have hfound := get_of_new hnew hentry
  obtain ⟨rows, columns, hchecked⟩ :=
    checked_of_validate (forM_eq_ok_iff.1 hvalid entry hentry) hweight hscale
  obtain ⟨weightTarget, hweightBound⟩ := bound_of_parseWithSources hdirectory (mem_of_get hweight)
  obtain ⟨target, hscaleBound⟩ := bound_of_parseWithSources hdirectory (mem_of_get hscale)
  obtain ⟨weightRange, hweightRange⟩ := Option.isSome_iff_exists.1 hweightLocal
  obtain ⟨scaleRange, hscaleRange⟩ := Option.isSome_iff_exists.1 hscaleLocal
  have hgeometry := hchecked.geometry hparse hvalidEntry hbounded hweightBound hscaleBound
    hweightRange hscaleRange
  obtain ⟨hwidth, hnumber⟩ := hchecked.scale_width hparse hweightBound hscaleBound
  rw [materializesExactly_iff hchecked hgeometry hfound hweight hscale hweightRange hscaleRange
    hscaleBound.block_eq hwidth, hgeometry.elementNumbers_iff hnumber, ScaleReadsAsFloat,
    hscaleBound.block_eq, hscaleRange]
  simp only [Option.mem_some_iff, forall_eq']

/-- Every profile finds its entries by name, and a validated entry with local payloads is
materialized exactly if and only if its scale block holds floats, or only zeros. -/
theorem materializeF8Tensor_exact_iff (hparse : parseV06 bytes = .ok validated)
    (hdirectory : parseWithSources validated bootstrap sources external = .ok directory)
    (hquantization : F8QuantizationDirectory.parse validated bootstrap = .ok (some quantization))
    (hvalid : quantization.validateAgainst directory = .ok ())
    (hentry : entry ∈ quantization.entries)
    (hweight : directory.get entry.weightName = some weight)
    (hscale : directory.get entry.scaleName = some scale)
    (hweightLocal : weight.range.isSome = true) (hscaleLocal : scale.range.isSome = true) :
    (∀ entries profile, F8QuantizationDirectory.new entries = .ok profile →
      ∀ listed ∈ profile.entries, profile.get listed.weightName = some listed) ∧
    (MaterializesExactly validated directory quantization entry weight scale ↔
      ScaleReadsAsFloat validated scale) :=
  ⟨fun _ _ hnew _ hlisted => get_of_new hnew hlisted,
    materializesExactly_iff_readsAsFloat hparse hdirectory hquantization hvalid hentry hweight
      hscale hweightLocal hscaleLocal⟩

end Main

/-! ### A scale of integers -/

namespace TensorDirectory

open F8QuantizationDirectory

/-- A bootstrap of a tensor directory, a metadata region and a quantization profile. -/
def integerBootstrap : List UInt8 :=
  Bootstrap.magic ++ leBytes 2 1 ++ leBytes 2 0 ++ leBytes 2 3 ++ leBytes 2 0 ++
    Bootstrap.entryBytes ⟨1, true, 2, 0⟩ ++ Bootstrap.entryBytes ⟨2, true, 1, 0⟩ ++
    Bootstrap.entryBytes ⟨8, false, 9, 0⟩

/-- A directory of a scale and a weight, of one element each. -/
def integerDirectory : List UInt8 :=
  magic ++ leBytes 2 version ++ leBytes 2 0 ++ leBytes 4 2 ++ leBytes 4 0 ++
    entryBytes ⟨"s", [1, 1], .canonicalPrimitive, 7, 0⟩ ++ entryBytes ⟨"w", [1, 1], .f8E4M3, 8, 0⟩

/-- The entry of the weight. -/
def integerEntry : F8QuantizationEntry := ⟨"w", "s", 1, 1⟩

/-- The profile of the weight. -/
def integerProfile : List UInt8 :=
  F8QuantizationDirectory.magic ++ leBytes 2 F8QuantizationDirectory.version ++ leBytes 2 0 ++
    leBytes 4 1 ++ leBytes 4 0 ++ F8QuantizationDirectory.entryBytes integerEntry

/-- An artifact whose weight is one, with a scale of four bytes. -/
def scaledArtifact (semantic : Semantic) (scale : List UInt8) : List UInt8 :=
  encodeStream 3 .knownSize
    [arrayCall 0xF000 .opaqueBytes 8 integerBootstrap.length integerBootstrap,
     arrayCall 1 .opaqueBytes 8 0 [],
     arrayCall 2 .opaqueBytes 8 integerDirectory.length integerDirectory,
     arrayCall 7 semantic 32 1 scale,
     arrayCall 8 .opaqueBytes 8 1 [0x38],
     arrayCall 9 .opaqueBytes 8 integerProfile.length integerProfile]

/-- The weight scaled by the float two. -/
def floatArtifact : List UInt8 := scaledArtifact .float [0, 0, 0, 64]

/-- The parsed artifact. -/
def floatView : Validated := (parseV06 floatArtifact).toOption.get (by decide +kernel)

/-- Its bootstrap. -/
def floatRegions : Bootstrap := (Bootstrap.discover floatView).toOption.get (by decide +kernel)

/-- Its directory. -/
def floatTensors : TensorDirectory :=
  (parseWithSources floatView floatRegions (.ofSelf floatArtifact.length) []).toOption.get
    (by decide +kernel)

/-- The weight and the scale of the directory. -/
def floatWeight : TensorDescriptor := (floatTensors.get "w").get (by decide +kernel)

def floatScale : TensorDescriptor := (floatTensors.get "s").get (by decide +kernel)

/-- The weight comes scaled by the float that is stored. -/
theorem materializeF8Tensor_exact_iff_float :
    MaterializesExactly floatView floatTensors ⟨[integerEntry]⟩ integerEntry floatWeight
      floatScale :=
  (materializeF8Tensor_exact_iff (eq_ok_get _ : parseV06 floatArtifact = .ok floatView)
    (eq_ok_get _ : parseWithSources floatView floatRegions (.ofSelf floatArtifact.length) [] =
      .ok floatTensors) (by decide +kernel) (by decide +kernel) List.mem_cons_self
    (Option.some_get _).symm (Option.some_get _).symm (by decide +kernel)
    (by decide +kernel)).2.2 (by decide +kernel)

/-- The weight scaled by the unsigned integer one. -/
def integerArtifact : List UInt8 := scaledArtifact .unsigned [1, 0, 0, 0]

/-- The parsed artifact. -/
def integerView : Validated := (parseV06 integerArtifact).toOption.get (by decide +kernel)

/-- Its bootstrap. -/
def integerRegions : Bootstrap := (Bootstrap.discover integerView).toOption.get (by decide +kernel)

/-- Its directory. -/
def integerTensors : TensorDirectory :=
  (parseWithSources integerView integerRegions (.ofSelf integerArtifact.length) []).toOption.get
    (by decide +kernel)

theorem integerView_eq : parseV06 integerArtifact = .ok integerView := eq_ok_get _

theorem integerRegions_eq : Bootstrap.discover integerView = .ok integerRegions := eq_ok_get _

theorem integerTensors_eq :
    parseWithSources integerView integerRegions (.ofSelf integerArtifact.length) [] =
      .ok integerTensors := eq_ok_get _

theorem integerProfile_eq :
    F8QuantizationDirectory.parse integerView integerRegions = .ok (some ⟨[integerEntry]⟩) := by
  decide +kernel

theorem integerProfile_valid :
    F8QuantizationDirectory.validateAgainst ⟨[integerEntry]⟩ integerTensors = .ok () := by
  decide +kernel

/-- The weight and the scale of the directory. -/
def integerWeight : TensorDescriptor := (integerTensors.get "w").get (by decide +kernel)

def integerScale : TensorDescriptor := (integerTensors.get "s").get (by decide +kernel)

theorem integerWeight_eq : integerTensors.get integerEntry.weightName = some integerWeight :=
  (Option.some_get _).symm

theorem integerScale_eq : integerTensors.get integerEntry.scaleName = some integerScale :=
  (Option.some_get _).symm

theorem integerWeight_local : integerWeight.range.isSome = true := by decide +kernel

theorem integerScale_local : integerScale.range.isSome = true := by decide +kernel

theorem integerScale_not_float : ¬ ScaleReadsAsFloat integerView integerScale := by
  decide +kernel

/-- A validated scale of unsigned integers is taken for a float. -/
theorem integerScale_not_exact :
    ¬ ∀ bytes validated bootstrap sources external directory quantization entry weight scale,
      parseV06 bytes = .ok validated → Bootstrap.discover validated = .ok bootstrap →
      parseWithSources validated bootstrap sources external = .ok directory →
      F8QuantizationDirectory.parse validated bootstrap = .ok (some quantization) →
      quantization.validateAgainst directory = .ok () → entry ∈ quantization.entries →
      directory.get entry.weightName = some weight → directory.get entry.scaleName = some scale →
      weight.range.isSome = true → scale.range.isSome = true →
      MaterializesExactly validated directory quantization entry weight scale := by
  intro h
  have hexact := h _ _ _ _ _ _ _ integerEntry _ _ integerView_eq integerRegions_eq
    integerTensors_eq integerProfile_eq integerProfile_valid List.mem_cons_self integerWeight_eq
    integerScale_eq integerWeight_local integerScale_local
  exact integerScale_not_float ((materializesExactly_iff_readsAsFloat integerView_eq
    integerTensors_eq integerProfile_eq integerProfile_valid List.mem_cons_self integerWeight_eq
    integerScale_eq integerWeight_local integerScale_local).1 hexact)

end TensorDirectory

end VBuf.Ml
