import Mathlib.Data.List.Pairwise
import VBuf.Lib.BinarySearch
import VBuf.Lib.Binary32
import VBuf.Lib.RowMajor
import VBuf.Ml.QuantizationCodec

/-!
# FP8 tensors as numbers

The consumer multiplies each FP8 element by the scale of its block.  The scale tensor
was checked for its shape and its size in bytes; the materializer takes the four bytes of
a cell for a 32-bit float, whatever the type of the scale block is.
-/

namespace VBuf.Ml

open VBuf.Lib VBuf.Layout VBuf.V06

/-- How a materialization ends without a tensor: with an error, or by an index out of range. -/
inductive F8Halt
  | error (error : MlError)
  | outOfRange
  deriving DecidableEq

/-- `e4m3fn_to_f32`; every value of the format is a binary32 number. -/
def e4m3fnToF32 (bits : UInt8) : Number :=
  let negative := decide (bits &&& 0x80 ≠ 0)
  let exponent := ((bits >>> 3) &&& 0x0f).toNat
  let mantissa := (bits &&& 0x07).toNat
  if exponent = 0 then .finite negative (mantissa * 2 ^ 140)
  else if exponent = 0x0f ∧ mantissa = 0x07 then .nan
  else .finite negative ((8 + mantissa) * 2 ^ (exponent + 139))

/-- A store into the output vector. -/
def storeAt {α : Type} (output : List α) (index : Nat) (value : α) : Except F8Halt (List α) :=
  if index < output.length then .ok (output.set index value) else .error .outOfRange

section Materializer

variable {α : Type} (zero : α) (mul : Number → Number → α)

/-- The body of the two loops of `dequantize_f8_e4m3`: one element. -/
def dequantizeElement (payload scales : List UInt8)
    (columns blockRows blockColumns scaleColumns row : Nat) (output : List α) (column : Nat) :
    Except F8Halt (List α) := do
  let scaleIndex := row / blockRows * scaleColumns + column / blockColumns
  let start := scaleIndex * 4
  let cell ← okOr (range? scales start (start + 4)) .outOfRange
  let scale := Number.ofBits (ofLeBytes cell)
  let weight ← okOr payload[row * columns + column]? .outOfRange
  storeAt output (row * columns + column) (mul (e4m3fnToF32 weight) scale)

/-- `dequantize_f8_e4m3` on a 64-bit host, with the multiplication as a parameter. -/
def dequantizeF8E4M3 (payload : List UInt8) (shape : Nat × Nat) (scales : List UInt8)
    (blockSize : Nat × Nat) : Except F8Halt (List α) := do
  rejectIf (u64Bound ≤ shape.1) (.error ⟨.shapeOverflow, "FP8 row count exceeds host limits"⟩)
  let rows := shape.1
  rejectIf (u64Bound ≤ shape.2) (.error ⟨.shapeOverflow, "FP8 column count exceeds host limits"⟩)
  let columns := shape.2
  rejectIf (u64Bound ≤ blockSize.1)
    (.error ⟨.invalidQuantizationMetadata, "FP8 block row size exceeds host limits"⟩)
  let blockRows := blockSize.1
  rejectIf (u64Bound ≤ blockSize.2)
    (.error ⟨.invalidQuantizationMetadata, "FP8 block column size exceeds host limits"⟩)
  let blockColumns := blockSize.2
  rejectIf (blockRows = 0 ∨ blockColumns = 0)
    (.error ⟨.invalidQuantizationMetadata, "FP8 block size must be non-zero"⟩)
  let elements ← okOr (checkedMul? rows columns)
    (.error ⟨.shapeOverflow, "FP8 element count overflows host limits"⟩)
  rejectIf (payload.length ≠ elements)
    (.error ⟨.tensorPayloadSizeMismatch, "FP8 payload length does not match shape"⟩)
  let scaleRows := divCeil rows blockRows
  let scaleColumns := divCeil columns blockColumns
  let scaleCount ← okOr (checkedMul? scaleRows scaleColumns)
    (.error ⟨.shapeOverflow, "FP8 scale count overflows host limits"⟩)
  rejectIf (scales.length ≠ (checkedMul? scaleCount 4).getD (u64Bound - 1))
    (.error ⟨.tensorPayloadSizeMismatch,
      "FP8 scale payload length does not match block geometry"⟩)
  (List.range rows).foldlM (fun output row =>
    (List.range columns).foldlM
      (dequantizeElement mul payload scales columns blockRows blockColumns scaleColumns row)
      output) (List.replicate elements zero)

/-- The comparison of `F8QuantizationDirectory::get`: names compare as bytes. -/
def compareNames (name other : String) : Ordering :=
  if byteKey name < byteKey other then .lt else if byteKey other < byteKey name then .gt else .eq

/-- `F8QuantizationDirectory::get`. -/
def F8QuantizationDirectory.get (directory : F8QuantizationDirectory) (weightName : String) :
    Option F8QuantizationEntry :=
  (binarySearchBy (fun entry => compareNames entry.weightName weightName)
    directory.entries).bind fun index => directory.entries[index]?

/-- `BorrowedModel::materialize_f8_tensor`, on the directory and the profile of the view. -/
def materializeF8Tensor (directory : TensorDirectory)
    (quantization : Option F8QuantizationDirectory) (name : String) :
    Except F8Halt (Option (List α)) :=
  match directory.get name with
  | none => .ok none
  | some weight =>
      if weight.representation ≠ .f8E4M3 then .ok none
      else do
        let quantization ← okOr quantization
          (.error ⟨.quantizationMetadataMissing, "FP8 tensor has no quantization provenance"⟩)
        let entry ← okOr (quantization.get name)
          (.error ⟨.invalidQuantizationMetadata, "FP8 tensor has no scale association"⟩)
        let scale ← okOr (directory.get entry.scaleName)
          (.error ⟨.invalidQuantizationMetadata, "FP8 scale tensor is absent"⟩)
        let weightBytes ← okOr weight.range
          (.error ⟨.tensorReferenceMissing, "FP8 weight payload is not locally materialized"⟩)
        let scaleBytes ← okOr scale.range
          (.error ⟨.tensorReferenceMissing, "FP8 scale payload is not locally materialized"⟩)
        let rows ← okOr weight.dimensions[0]? .outOfRange
        let columns ← okOr weight.dimensions[1]? .outOfRange
        let output ← dequantizeF8E4M3 zero mul weightBytes.bytes (rows, columns) scaleBytes.bytes
          (entry.blockRows, entry.blockColumns)
        pure (some output)

end Materializer

/-! ### What a scale tensor stores -/

/-- The number that an element of a block says, by the block's element type. -/
def elementNumber (semantic : Semantic) (word : Nat) : Option Number :=
  match semantic with
  | .unsigned => some (.ofInt word)
  | .signed => some (.ofInt (Number.signedOf word))
  | .float => some (.ofBits word)
  | .opaqueBytes => none

/-- The element of a scale tensor for a cell of the grid: by row and column in a matrix of
scales, by row in a vector of channel scales. -/
def scaleElement (dimensions : List Nat) (gridRow gridColumn : Nat) : Nat :=
  match dimensions with
  | [_, columns] => gridRow * columns + gridColumn
  | _ => gridRow

/-- The number that a tensor of 32-bit elements stores at a position. -/
def storedNumber (target : Block) (bytes : List UInt8) (position : Nat) : Option Number :=
  if target.bitWidth = 32 then
    (range? bytes (position * 4) (position * 4 + 4)).bind fun cell =>
      elementNumber target.semantic (ofLeBytes cell)
  else none

/-! ### The loops -/

theorem div_lt_divCeil {index count block : Nat} (hblock : block ≠ 0) (h : index < count) :
    index / block < divCeil count block := by
  have hpos := Nat.pos_of_ne_zero hblock
  have hsplit := Nat.div_add_mod count block
  unfold divCeil
  split
  · rename_i hmod
    rw [Nat.div_lt_iff_lt_mul hpos]
    rw [hmod, Nat.add_zero, Nat.mul_comm] at hsplit
    omega
  · exact Nat.lt_succ_of_le (Nat.div_le_div_right h.le)

/-- A row of the grid has a row of the tensor. -/
theorem mul_lt_of_lt_divCeil {index count block : Nat} (hblock : block ≠ 0)
    (h : index < divCeil count block) : index * block < count := by
  have hpos := Nat.pos_of_ne_zero hblock
  have hsplit := Nat.div_add_mod count block
  unfold divCeil at h
  split at h
  · rename_i hmod
    have hle : (index + 1) * block ≤ count / block * block := Nat.mul_le_mul_right _ h
    rw [Nat.succ_mul, Nat.mul_comm (count / block)] at hle
    omega
  · rename_i hmod
    have hle : index * block ≤ count / block * block :=
      Nat.mul_le_mul_right _ (Nat.le_of_lt_succ h)
    rw [Nat.mul_comm (count / block)] at hle
    omega

/-- The sizes of a weight and of its scales fit together. -/
structure F8Geometry (payload scales : List UInt8) (rows columns blockRows blockColumns : Nat) :
    Prop where
  rows_lt : rows < u64Bound
  columns_lt : columns < u64Bound
  columns_pos : 0 < columns
  blockRows_lt : blockRows < u64Bound
  blockColumns_lt : blockColumns < u64Bound
  blockRows_ne : blockRows ≠ 0
  blockColumns_ne : blockColumns ≠ 0
  elements_lt : rows * columns < u64Bound
  payload_length : payload.length = rows * columns
  scaleBytes_lt : divCeil rows blockRows * divCeil columns blockColumns * 4 < u64Bound
  scales_length : scales.length = divCeil rows blockRows * divCeil columns blockColumns * 4

/-- The position of the scale of an element. -/
def scalePosition (columns blockRows blockColumns row column : Nat) : Nat :=
  row / blockRows * divCeil columns blockColumns + column / blockColumns

/-- The word of the scales at a position. -/
def scaleWord (scales : List UInt8) (position : Nat) : Nat :=
  ofLeBytes (slice scales (position * 4) 4)

section Loops

variable {α : Type} {zero : α} {mul : Number → Number → α} {payload scales : List UInt8}
  {rows columns blockRows blockColumns : Nat}

/-- The value of an element. -/
def elementValue (mul : Number → Number → α) (payload scales : List UInt8)
    (columns blockRows blockColumns row column : Nat) : α :=
  mul (e4m3fnToF32 (payload.getD (row * columns + column) 0))
    (.ofBits (scaleWord scales (scalePosition columns blockRows blockColumns row column)))

theorem F8Geometry.position_lt (h : F8Geometry payload scales rows columns blockRows blockColumns)
    {row column : Nat} (hrow : row < rows) (hcolumn : column < columns) :
    scalePosition columns blockRows blockColumns row column <
      divCeil rows blockRows * divCeil columns blockColumns :=
  block_lt (div_lt_divCeil h.blockRows_ne hrow) (div_lt_divCeil h.blockColumns_ne hcolumn)

/-- The four bytes of a scale are there. -/
theorem F8Geometry.range?_scales
    (h : F8Geometry payload scales rows columns blockRows blockColumns) {position : Nat}
    (hposition : position < divCeil rows blockRows * divCeil columns blockColumns) :
    range? scales (position * 4) (position * 4 + 4) = some (slice scales (position * 4) 4) := by
  have hlength := h.scales_length
  rw [range?_of_le (Nat.le_add_right _ 4) (by omega), Nat.add_sub_cancel_left]

/-- The body of the loops writes the value of the element. -/
theorem dequantizeElement_eq (h : F8Geometry payload scales rows columns blockRows blockColumns)
    {row column : Nat} (hrow : row < rows) (hcolumn : column < columns) {output : List α}
    (houtput : output.length = rows * columns) :
    dequantizeElement mul payload scales columns blockRows blockColumns
        (divCeil columns blockColumns) row output column =
      .ok (output.set (row * columns + column)
        (elementValue mul payload scales columns blockRows blockColumns row column)) := by
  have hcell := h.range?_scales (h.position_lt hrow hcolumn)
  have hindex : row * columns + column < rows * columns := block_lt hrow hcolumn
  have hpayload : row * columns + column < payload.length := by
    rw [h.payload_length]
    exact hindex
  have hweight : payload[row * columns + column]? =
      some (payload.getD (row * columns + column) 0) := by
    rw [List.getD_eq_getElem _ _ hpayload, List.getElem?_eq_getElem hpayload]
  simp only [dequantizeElement, bind_eq_ok_iff, okOr_eq_ok_iff]
  refine ⟨_, hcell, _, hweight, ?_⟩
  rw [storeAt, if_pos (houtput ▸ hindex)]
  rfl

/-- The materializer returns the values of all elements, row by row. -/
theorem dequantizeF8E4M3_eq (h : F8Geometry payload scales rows columns blockRows blockColumns) :
    dequantizeF8E4M3 zero mul payload (rows, columns) scales (blockRows, blockColumns) =
      .ok ((List.range (rows * columns)).map fun i =>
        elementValue mul payload scales columns blockRows blockColumns (i / columns)
          (i % columns)) := by
  have hbytes := h.scaleBytes_lt
  have hcount : checkedMul? (divCeil rows blockRows) (divCeil columns blockColumns) =
      some (divCeil rows blockRows * divCeil columns blockColumns) :=
    checkedMul?_eq_some_iff.2 ⟨by omega, rfl⟩
  have hsize : (checkedMul? (divCeil rows blockRows * divCeil columns blockColumns) 4).getD
      (u64Bound - 1) = scales.length := by
    rw [checkedMul?_eq_some_iff.2 ⟨hbytes, rfl⟩, h.scales_length]
    rfl
  have hloops := @foldlM_eq_ok F8Halt (List α) Nat
    (fun output row => (List.range columns).foldlM
      (dequantizeElement mul payload scales columns blockRows blockColumns
        (divCeil columns blockColumns) row) output)
    (fun output row => (List.range columns).foldl (fun output column =>
      output.set (row * columns + column)
        (elementValue mul payload scales columns blockRows blockColumns row column)) output)
    (fun output => output.length = rows * columns) (List.range rows)
    (List.replicate (rows * columns) zero) (List.length_replicate ..)
    (fun row hrow output houtput => @foldlM_eq_ok F8Halt (List α) Nat _ _
      (fun output => output.length = rows * columns) _ _ houtput fun column hcolumn output houtput =>
        ⟨dequantizeElement_eq h (List.mem_range.1 hrow) (List.mem_range.1 hcolumn) houtput,
          List.length_set.trans houtput⟩)
  simp only [dequantizeF8E4M3, bind_eq_ok_iff, okOr_eq_ok_iff, rejectIf_eq_ok_iff]
  refine ⟨(), Nat.not_le.2 h.rows_lt, (), Nat.not_le.2 h.columns_lt, (),
    Nat.not_le.2 h.blockRows_lt, (), Nat.not_le.2 h.blockColumns_lt, (),
    not_or.2 ⟨h.blockRows_ne, h.blockColumns_ne⟩, _,
    checkedMul?_eq_some_iff.2 ⟨h.elements_lt, rfl⟩, (), not_not.2 h.payload_length, _, hcount, (),
    not_not.2 hsize.symm, ?_⟩
  rw [hloops.1]
  refine congrArg Except.ok (Fills.whole ?_ (@List.length_replicate α (rows * columns) zero))
  refine @fills_loop α _ 0 columns (fun row column =>
    elementValue mul payload scales columns blockRows blockColumns row column) h.columns_pos rows
    ?_ _
  intro row _ output
  refine (@fills_loop α _ _ 1 (fun column _ =>
    elementValue mul payload scales columns blockRows blockColumns row column) Nat.one_pos columns
    ?_ output).congr rfl (Nat.mul_one columns) ?_
  · intro column _ output
    refine (fills_set _ _ output).congr ?_ rfl (fun _ _ => rfl)
    rw [Nat.zero_add, Nat.mul_one]
  · intro column _
    rw [Nat.div_one]

end Loops

/-! ### Lookup -/

theorem compareNames_eq_iff {name other : String} :
    compareNames name other = .eq ↔ name = other := by
  unfold compareNames
  rcases lt_trichotomy (byteKey name) (byteKey other) with hlt | heq | hgt
  · rw [if_pos hlt]
    exact iff_of_false nofun fun hsame => (hsame ▸ hlt).ne rfl
  · rw [heq, if_neg (lt_irrefl _), if_neg (lt_irrefl _)]
    exact iff_of_true rfl (byteKey_injective heq)
  · rw [if_neg hgt.not_gt, if_pos hgt]
    exact iff_of_false nofun fun hsame => (hsame ▸ hgt).ne rfl

theorem compareNames_eq_lt_iff {name other : String} :
    compareNames name other = .lt ↔ byteKey name < byteKey other := by
  unfold compareNames
  split
  · rename_i hlt
    exact iff_of_true rfl hlt
  · rename_i hnot
    refine iff_of_false ?_ hnot
    split <;> exact nofun

theorem compareNames_eq_gt_iff {name other : String} :
    compareNames name other = .gt ↔ byteKey other < byteKey name := by
  unfold compareNames
  split
  · rename_i hlt
    exact iff_of_false nofun hlt.not_gt
  · split
    · rename_i hgt
      exact iff_of_true rfl hgt
    · rename_i hnot
      exact iff_of_false nofun hnot

namespace F8QuantizationDirectory

/-- The records of a directory stand in the order of the lookup. -/
theorem Sorted.probeOrdered {entries : List F8QuantizationEntry} (h : Sorted entries)
    (name : String) :
    ProbeOrdered (fun entry => compareNames entry.weightName name) entries := by
  refine h.imp ?_
  intro a b hlt
  rw [compareNames_eq_gt_iff, compareNames_eq_gt_iff, compareNames_eq_lt_iff,
    compareNames_eq_lt_iff]
  exact ⟨fun hgreater => hgreater.trans hlt, fun hless => hlt.trans hless⟩

/-- Two records of one weight are one record. -/
theorem Sorted.eq_of_weightName {entries : List F8QuantizationEntry} (h : Sorted entries)
    {entry other : F8QuantizationEntry} (hentry : entry ∈ entries) (hother : other ∈ entries)
    (hname : entry.weightName = other.weightName) : entry = other := by
  by_contra hne
  have hdistinct := h.imp (S := fun a b => a.weightName ≠ b.weightName)
    fun hlt hsame => (hsame ▸ hlt).ne rfl
  have hsymm : Std.Symm (fun a b : F8QuantizationEntry => a.weightName ≠ b.weightName) :=
    ⟨fun _ _ hab hsame => hab hsame.symm⟩
  exact hdistinct.forall hentry hother hne hname

/-- Every profile finds each of its entries by the name of the weight. -/
theorem get_of_new {entries : List F8QuantizationEntry} {directory : F8QuantizationDirectory}
    (h : new entries = .ok directory) {entry : F8QuantizationEntry}
    (hentry : entry ∈ directory.entries) : directory.get entry.weightName = some entry := by
  have hsorted := sorted_of_new h
  obtain ⟨index, found, hsearch, hget, hequal⟩ :=
    binarySearchBy_complete (hsorted.probeOrdered entry.weightName) hentry
      (compareNames_eq_iff.2 rfl)
  rw [get, hsearch, Option.bind_some, hget]
  exact congrArg some (hsorted.eq_of_weightName (List.mem_of_getElem? hget) hentry
    (compareNames_eq_iff.1 hequal))

end F8QuantizationDirectory

end VBuf.Ml
