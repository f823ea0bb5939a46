import Mathlib.Algebra.BigOperators.Group.List.Basic
import Mathlib.Tactic.Ring
import VBuf.Ml.StorageSize

/-!
# The geometry of a tensor view

`derive_tensor_geometry` of the adapter: the sizes and strides of a view, from a block
table and checked products of its own.  On a host with 64-bit sizes.
-/

namespace VBuf.Ggml.Geometry

open VBuf.Lib VBuf.Ml VBuf.V06

/-- `ggml_type`, as far as the adapter uses it. -/
inductive GgmlType
  | f32
  | iq1_S
  | iq4_NL
  | iq2_XXS
  | q2_K
  | q5_K
  deriving DecidableEq, Repr

/-- `RepresentationSpec`. -/
structure RepresentationSpec where
  type : GgmlType
  blockElements : UInt64
  blockBytes : UInt64
  deriving DecidableEq, Repr

/-- `VbufTensorView`; a null pointer is `none`, and the payload is its address. -/
structure VbufTensorView where
  representation : UInt8
  rank : UInt8
  dimensions : Option (List UInt64)
  payload : Option Nat
  payloadLen : UInt64
  deriving DecidableEq, Repr

/-- `TensorGeometry`; the extents are positive `int64_t`. -/
structure TensorGeometry where
  type : GgmlType
  rank : UInt8
  ne : List UInt64
  nb : List UInt64
  nbytes : UInt64
  blockElements : UInt64
  blockBytes : UInt64
  deriving DecidableEq, Repr

/-- `AdapterError`, as far as the geometry reports it. -/
inductive AdapterError
  | invalidArgument
  | unsupportedRepresentation
  | invalidRank
  | invalidDimension
  | shapeOverflow
  | invalidBlockGeometry
  | payloadSizeMismatch
  deriving DecidableEq, Repr

def uint64Max : UInt64 := 18446744073709551615
def int64Max : UInt64 := 9223372036854775807

/-- `GGML_MAX_DIMS`. -/
def maxDims : UInt8 := 4

/-- `checked_mul`. -/
def checkedMul (left right : UInt64) : Option UInt64 :=
  if right ≠ 0 ∧ uint64Max / right < left then none else some (left * right)

/-- `spec_for`. -/
def specFor : UInt8 → Option RepresentationSpec
  | 0 => some ⟨.f32, 1, 4⟩
  | 5 => some ⟨.iq1_S, 256, 50⟩
  | 7 => some ⟨.iq4_NL, 32, 18⟩
  | 10 => some ⟨.iq2_XXS, 256, 66⟩
  | 4 => some ⟨.q2_K, 256, 84⟩
  | 13 => some ⟨.q5_K, 256, 176⟩
  | _ => none

/-- The rows after a dimension. -/
def nextRows (index : Nat) (rows dimension : UInt64) :
    Except (AdapterError × String) UInt64 :=
  if 0 < index then okOr (checkedMul rows dimension) (.shapeOverflow, "row count overflows uint64")
  else .ok rows

/-- The loop over the dimensions, which counts the rows. -/
def countRows : Nat → UInt64 → List UInt64 → Except (AdapterError × String) UInt64
  | _, rows, [] => .ok rows
  | index, rows, dimension :: rest => do
    rejectIf (dimension = 0 ∨ int64Max < dimension)
      (.invalidDimension, "tensor dimensions must be non-zero signed int64 values")
    let rows ← nextRows index rows dimension
    countRows (index + 1) rows rest

/-- The stride of an index behind the strides before it. -/
def nextStride (spec : RepresentationSpec) (ne nb : List UInt64) (index : Nat) :
    Except (AdapterError × String) (List UInt64) := do
  let previous := nb.getD (index - 1) 0
  let previousNe := ne.getD (index - 1) 0
  let divisor := if index = 1 then spec.blockElements else 1
  let next := if divisor ≠ 1 then previousNe / divisor else previousNe
  let stride ← okOr (checkedMul previous next) (.shapeOverflow, "runtime stride overflows size_t")
  pure (nb ++ [stride])

/-- The loop over the strides. -/
def strides (spec : RepresentationSpec) (ne : List UInt64) :
    Except (AdapterError × String) (List UInt64) :=
  [1, 2, 3].foldlM (nextStride spec ne) [spec.blockBytes]

/-- `derive_tensor_geometry`, into a geometry that is there. -/
def deriveTensorGeometry (view : VbufTensorView) :
    Except (AdapterError × String) TensorGeometry := do
  let nullPointer := (AdapterError.invalidArgument, "tensor view contains a null required pointer")
  let array ← okOr view.dimensions nullPointer
  let _ ← okOr view.payload nullPointer
  rejectIf (view.rank = 0 ∨ maxDims < view.rank)
    (.invalidRank, "rank is outside the ggml descriptor range")
  let spec ← okOr (specFor view.representation)
    (.unsupportedRepresentation, "representation is not supported by this adapter")
  let dimensions := array.take view.rank.toNat
  let rows ← countRows 0 1 dimensions
  let ne := dimensions ++ List.replicate (4 - view.rank.toNat) 1
  let rowWidth := array.getD 0 0
  rejectIf (rowWidth % spec.blockElements ≠ 0)
    (.invalidBlockGeometry, "innermost row is not divisible by representation block width")
  let blocks ← okOr ((checkedMul rows (rowWidth / spec.blockElements)).bind fun blocks =>
      checkedMul blocks spec.blockBytes)
    (.shapeOverflow, "payload size overflows uint64")
  rejectIf (view.payloadLen ≠ blocks)
    (.payloadSizeMismatch, "payload length does not match representation and shape")
  let nb ← strides spec ne
  pure
    { type := spec.type
      rank := view.rank
      ne
      nb
      nbytes := blocks
      blockElements := spec.blockElements
      blockBytes := spec.blockBytes }

theorem checkedMul_eq_some_iff {left right product : UInt64} :
    checkedMul left right = some product ↔ product.toNat = left.toNat * right.toNat := by
  have hproduct := product.toNat_lt
  have hleft := left.toNat_lt
  have hlimit : uint64Max / right < left ↔ 18446744073709551615 / right.toNat < left.toNat := by
    rw [UInt64.lt_iff_toNat_lt, UInt64.toNat_div]
    rfl
  simp only [checkedMul, hlimit]
  by_cases hzero : right = 0
  · rw [if_neg (fun h => h.1 hzero), hzero, UInt64.mul_zero, Option.some.injEq, ← UInt64.toNat_inj]
    exact eq_comm
  · have hpos : 0 < right.toNat := Nat.pos_of_ne_zero fun h => hzero (UInt64.toNat_inj.1 h)
    have hfits : 18446744073709551615 / right.toNat < left.toNat ↔
        2 ^ 64 ≤ left.toNat * right.toNat := by
      rw [Nat.div_lt_iff_lt_mul hpos]
      omega
    simp only [hfits]
    split <;> rename_i hover
    · constructor
      · exact nofun
      · intro h
        omega
    · have hless : left.toNat * right.toNat < 2 ^ 64 := by
        by_contra hge
        exact hover ⟨hzero, Nat.le_of_not_lt hge⟩
      rw [Option.some.injEq, ← UInt64.toNat_inj, UInt64.toNat_mul, Nat.mod_eq_of_lt hless]
      exact eq_comm

/-- A dimension that the adapter accepts. -/
def ValidDimension (dimension : UInt64) : Prop := dimension ≠ 0 ∧ dimension ≤ int64Max

theorem ValidDimension.pos {dimension : UInt64} (h : ValidDimension dimension) :
    0 < dimension.toNat :=
  Nat.pos_of_ne_zero fun hzero => h.1 (UInt64.toNat_inj.1 hzero)

/-- The elements of a shape. -/
def elements (dimensions : List UInt64) : Nat := (dimensions.map UInt64.toNat).prod

@[simp] theorem elements_nil : elements [] = 1 := rfl

@[simp] theorem elements_cons {dimension : UInt64} {rest : List UInt64} :
    elements (dimension :: rest) = dimension.toNat * elements rest := List.prod_cons

theorem elements_pos {dimensions : List UInt64} (h : ∀ d ∈ dimensions, ValidDimension d) :
    0 < elements dimensions := by
  induction dimensions with
  | nil => exact Nat.one_pos
  | cons dimension rest ih =>
    rw [elements_cons]
    exact Nat.mul_pos (h _ List.mem_cons_self).pos (ih fun d hd => h d (List.mem_cons_of_mem _ hd))

/-- The rows behind the first dimension: checked products, which all fit when the last does. -/
theorem countRows_eq_ok_iff {index : Nat} {rows result : UInt64} {dimensions : List UInt64}
    (hindex : 0 < index) :
    countRows index rows dimensions = .ok result ↔
      (∀ d ∈ dimensions, ValidDimension d) ∧ result.toNat = rows.toNat * elements dimensions := by
  induction dimensions generalizing index rows with
  | nil => simp [countRows, ← UInt64.toNat_inj, eq_comm]
  | cons dimension rest ih =>
    have hvalid : ¬ (dimension = 0 ∨ int64Max < dimension) ↔ ValidDimension dimension := by
      rw [not_or, UInt64.not_lt, ValidDimension]
    simp only [countRows, nextRows, if_pos hindex, bind_eq_ok_iff, rejectIf_eq_ok_iff,
      okOr_eq_ok_iff, checkedMul_eq_some_iff, ih (Nat.succ_pos index), hvalid, elements_cons,
      List.forall_mem_cons]
    constructor
    · rintro ⟨_, hdimension, next, hnext, hrest, hresult⟩
      exact ⟨⟨hdimension, hrest⟩, by rw [hresult, hnext, Nat.mul_assoc]⟩
    · rintro ⟨⟨hdimension, hrest⟩, hresult⟩
      have hfits : rows.toNat * dimension.toNat < 2 ^ 64 := by
        have hle := Nat.le_mul_of_pos_right (rows.toNat * dimension.toNat) (elements_pos hrest)
        rw [Nat.mul_assoc, ← hresult] at hle
        exact Nat.lt_of_le_of_lt hle result.toNat_lt
      have hnext : (UInt64.ofNat (rows.toNat * dimension.toNat)).toNat =
          rows.toNat * dimension.toNat := UInt64.toNat_ofNat_of_lt' hfits
      exact ⟨(), hdimension, _, hnext, hrest, by rw [hnext, hresult, Nat.mul_assoc]⟩

theorem exists_checkedMul (left right : UInt64) (h : left.toNat * right.toNat < 2 ^ 64) :
    ∃ product, checkedMul left right = some product ∧
      product.toNat = left.toNat * right.toNat := by
  have hvalue : (UInt64.ofNat (left.toNat * right.toNat)).toNat = left.toNat * right.toNat :=
    UInt64.toNat_ofNat_of_lt' h
  exact ⟨_, checkedMul_eq_some_iff.2 hvalue, hvalue⟩

/-! ### The strides -/

/-- What a row of the representation takes. -/
def rowBytes (spec : RepresentationSpec) (rowWidth : UInt64) : Nat :=
  spec.blockBytes.toNat * (rowWidth.toNat / spec.blockElements.toNat)

theorem div_toNat (spec : RepresentationSpec) (rowWidth : UInt64) :
    (if spec.blockElements ≠ 1 then rowWidth / spec.blockElements else rowWidth).toNat =
      rowWidth.toNat / spec.blockElements.toNat := by
  split <;> rename_i hone
  · rw [UInt64.toNat_div]
  · rw [not_not.1 hone, show (1 : UInt64).toNat = 1 from rfl, Nat.div_one]

theorem nextStride_ok {spec : RepresentationSpec} {ne nb : List UInt64} {index : Nat}
    {divisor stride : UInt64} (hdivisor : (if index = 1 then spec.blockElements else 1) = divisor)
    (h : checkedMul (nb.getD (index - 1) 0)
      (if divisor ≠ 1 then ne.getD (index - 1) 0 / divisor else ne.getD (index - 1) 0) =
        some stride) :
    nextStride spec ne nb index = .ok (nb ++ [stride]) := by
  simp only [nextStride, hdivisor, h]
  rfl

/-- The strides of four extents whose payload fits. -/
theorem strides_ok {spec : RepresentationSpec} {a b c d : UInt64} (hb : ValidDimension b)
    (hc : ValidDimension c) (hfits : rowBytes spec a * (b.toNat * c.toNat) < 2 ^ 64) :
    ∃ row plane volume, strides spec [a, b, c, d] = .ok [spec.blockBytes, row, plane, volume] ∧
      row.toNat = rowBytes spec a ∧ plane.toNat = rowBytes spec a * b.toNat ∧
      volume.toNat = rowBytes spec a * (b.toNat * c.toNat) := by
  have hplane : rowBytes spec a * b.toNat < 2 ^ 64 := by
    refine Nat.lt_of_le_of_lt (Nat.mul_le_mul_left _ ?_) hfits
    exact Nat.le_mul_of_pos_right _ hc.pos
  have hrow : rowBytes spec a < 2 ^ 64 :=
    Nat.lt_of_le_of_lt (Nat.le_mul_of_pos_right _ hb.pos) hplane
  obtain ⟨row, hrowMul, hrowEq⟩ := exists_checkedMul spec.blockBytes
    (if spec.blockElements ≠ 1 then a / spec.blockElements else a) (by rwa [div_toNat])
  rw [div_toNat] at hrowEq
  obtain ⟨plane, hplaneMul, hplaneEq⟩ := exists_checkedMul row b (by rwa [hrowEq])
  obtain ⟨volume, hvolumeMul, hvolumeEq⟩ := exists_checkedMul plane c
    (by rwa [hplaneEq, hrowEq, Nat.mul_assoc])
  refine ⟨row, plane, volume, ?_, hrowEq, by rw [hplaneEq, hrowEq, rowBytes],
    by rw [hvolumeEq, hplaneEq, hrowEq, Nat.mul_assoc, rowBytes]⟩
  -- Only the first stride divides by the block length.
  have hfirst : nextStride spec [a, b, c, d] [spec.blockBytes] 1 = .ok [spec.blockBytes, row] :=
    nextStride_ok rfl hrowMul
  have hsecond : nextStride spec [a, b, c, d] [spec.blockBytes, row] 2 =
      .ok [spec.blockBytes, row, plane] := nextStride_ok rfl hplaneMul
  have hthird : nextStride spec [a, b, c, d] [spec.blockBytes, row, plane] 3 =
      .ok [spec.blockBytes, row, plane, volume] := nextStride_ok rfl hvolumeMul
  simp only [strides, List.foldlM_cons, List.foldlM_nil, bind_eq_ok_iff]
  exact ⟨_, hfirst, _, hsecond, _, hthird, rfl⟩

/-! ### What the adapter accepts -/

/-- The extents of a shape, filled up with ones. -/
def extents (dimensions : List UInt64) : List UInt64 :=
  dimensions ++ List.replicate (4 - dimensions.length) 1

/-- A shape that the adapter accepts with a payload of this length. -/
structure Fits (spec : RepresentationSpec) (dimensions : List UInt64) (payloadLen : UInt64) :
    Prop where
  rank_pos : dimensions ≠ []
  rank_le : dimensions.length ≤ 4
  valid : ∀ d ∈ dimensions, ValidDimension d
  row : spec.blockElements.toNat ∣ (dimensions.headD 0).toNat
  size : payloadLen.toNat =
    elements dimensions.tail * ((dimensions.headD 0).toNat / spec.blockElements.toNat) *
      spec.blockBytes.toNat

theorem specFor_pos {representation : UInt8} {spec : RepresentationSpec}
    (h : specFor representation = some spec) :
    0 < spec.blockElements.toNat ∧ 0 < spec.blockBytes.toNat := by
  unfold specFor at h
  split at h <;> cases h <;> decide

variable {view : VbufTensorView} {array : List UInt64} {spec : RepresentationSpec}
  {geometry : TensorGeometry} {dimensions : List UInt64}

/-- An accepted view, its geometry and its strides. -/
theorem deriveTensorGeometry_sound (hdims : view.dimensions = some array)
    (hlength : view.rank.toNat ≤ array.length) (h : deriveTensorGeometry view = .ok geometry) :
    view.payload ≠ none ∧ ∃ spec, specFor view.representation = some spec ∧
      Fits spec (array.take view.rank.toNat) view.payloadLen ∧
      geometry.ne = extents (array.take view.rank.toNat) ∧
      strides spec geometry.ne = .ok geometry.nb := by
  simp only [deriveTensorGeometry, hdims, bind_eq_ok_iff, okOr_eq_ok_iff, rejectIf_eq_ok_iff,
    Option.some.injEq, not_or, not_not, Option.bind_eq_some_iff, checkedMul_eq_some_iff] at h
  obtain ⟨_, rfl, payload, hpayload, _, ⟨hrank, hmax⟩, spec, hspec, rows, hrows, _, hrow, blocks,
    ⟨rowBlocks, hrowBlocks, hblocks⟩, _, hsize, nb, hnb, h⟩ := h
  have hrankPos : 0 < view.rank.toNat :=
    Nat.pos_of_ne_zero fun hzero => hrank (UInt8.toNat_inj.1 hzero)
  have hrankLe : view.rank.toNat ≤ 4 := UInt8.le_iff_toNat_le.1 (UInt8.not_lt.1 hmax)
  have htake : (array.take view.rank.toNat).length = view.rank.toNat := by
    rw [List.length_take, Nat.min_eq_left hlength]
  obtain ⟨first, rest, hshape⟩ : ∃ first rest, array.take view.rank.toNat = first :: rest :=
    List.exists_cons_of_length_pos (by omega)
  have hfirst : array.getD 0 0 = first := by
    have := congrArg (·.getD 0 0) hshape
    rwa [List.getD_eq_getElem?_getD, List.getElem?_take_of_lt hrankPos,
      ← List.getD_eq_getElem?_getD] at this
  rw [hshape] at hrows hnb h htake
  rw [hfirst] at hrow hrowBlocks
  simp only [countRows, nextRows, bind_eq_ok_iff, rejectIf_eq_ok_iff, not_or, UInt64.not_lt,
    Nat.lt_irrefl, if_false, Except.ok.injEq, exists_eq_left'] at hrows
  obtain ⟨_, hvalid, hrest⟩ := hrows
  rw [countRows_eq_ok_iff Nat.one_pos] at hrest
  have hmod : first.toNat % spec.blockElements.toNat = 0 := by
    have := congrArg UInt64.toNat hrow
    rwa [UInt64.toNat_mod] at this
  have hne : extents (first :: rest) =
      first :: rest ++ List.replicate (4 - view.rank.toNat) 1 := by
    rw [extents, htake]
  refine ⟨by simp [hpayload], spec, hspec, ?_, ?_, ?_⟩
  · rw [hshape]
    refine ⟨List.cons_ne_nil _ _, by omega, List.forall_mem_cons.2 ⟨hvalid, hrest.1⟩,
      Nat.dvd_of_mod_eq_zero hmod, ?_⟩
    rw [hsize, hblocks, hrowBlocks, hrest.2, UInt64.toNat_div,
      show (1 : UInt64).toNat = 1 from rfl, Nat.one_mul]
    rfl
  · rw [← Except.ok.inj h, hshape, hne]
  · rw [← Except.ok.inj h]
    exact hnb

theorem validDimension_one : ValidDimension 1 := ⟨by decide, by decide⟩

theorem Fits.rowBytes_mul {payloadLen : UInt64} (h : Fits spec dimensions payloadLen) :
    payloadLen.toNat = rowBytes spec (dimensions.headD 0) * elements dimensions.tail := by
  rw [h.size, rowBytes]
  ring

/-- The strides of an accepted shape: the last one times its extent is the payload. -/
theorem Fits.strides {payloadLen : UInt64} (h : Fits spec dimensions payloadLen) :
    ∃ nb, Geometry.strides spec (extents dimensions) = .ok nb ∧
      (2 ≤ dimensions.length →
        (nb.getD (dimensions.length - 1) 0).toNat *
          ((extents dimensions).getD (dimensions.length - 1) 0).toNat = payloadLen.toNat) := by
  have hpayload := payloadLen.toNat_lt
  have hsize := h.rowBytes_mul
  have hvalid := h.valid
  have hlength := h.rank_le
  have hone := validDimension_one
  have honeEq : (1 : UInt64).toNat = 1 := rfl
  rcases dimensions with _ | ⟨a, _ | ⟨b, _ | ⟨c, _ | ⟨d, _ | ⟨e, rest⟩⟩⟩⟩⟩
  · exact absurd rfl h.rank_pos
  · simp only [List.headD_cons, List.tail_cons, elements_nil, Nat.mul_one] at hsize
    obtain ⟨row, plane, volume, hok, -⟩ := @strides_ok spec a 1 1 1 hone hone
      (by simpa only [honeEq, Nat.mul_one, ← hsize] using hpayload)
    exact ⟨_, hok, fun htwo => absurd htwo (by simp)⟩
  · simp only [List.headD_cons, List.tail_cons, elements_cons, elements_nil, Nat.mul_one] at hsize
    obtain ⟨row, plane, volume, hok, hrow, -⟩ := @strides_ok spec a b 1 1 (hvalid b (by simp)) hone
      (by rw [honeEq, Nat.mul_one, ← hsize]; exact hpayload)
    exact ⟨_, hok, fun _ => by rw [hsize, ← hrow]; rfl⟩
  · simp only [List.headD_cons, List.tail_cons, elements_cons, elements_nil, Nat.mul_one] at hsize
    obtain ⟨row, plane, volume, hok, -, hplane, -⟩ := @strides_ok spec a b c 1
      (hvalid b (by simp)) (hvalid c (by simp)) (by rw [← hsize]; exact hpayload)
    exact ⟨_, hok, fun _ => by rw [hsize, ← Nat.mul_assoc, ← hplane]; rfl⟩
  · simp only [List.headD_cons, List.tail_cons, elements_cons, elements_nil, Nat.mul_one] at hsize
    have hd := (hvalid d (by simp)).pos
    have hproduct : payloadLen.toNat = rowBytes spec a * (b.toNat * c.toNat) * d.toNat := by
      rw [hsize, Nat.mul_assoc, Nat.mul_assoc]
    obtain ⟨row, plane, volume, hok, -, -, hvolume⟩ := @strides_ok spec a b c d
      (hvalid b (by simp)) (hvalid c (by simp))
      (Nat.lt_of_le_of_lt (Nat.le_mul_of_pos_right _ hd) (hproduct ▸ hpayload))
    exact ⟨_, hok, fun _ => by rw [hproduct, ← hvolume]; rfl⟩
  · simp only [List.length_cons] at hlength
    omega

/-- The rows of an accepted shape do not overflow: a row has a block. -/
theorem Fits.exists_rows {payloadLen : UInt64} {first : UInt64} {rest : List UInt64}
    (hpos : 0 < spec.blockElements.toNat ∧ 0 < spec.blockBytes.toNat)
    (h : Fits spec (first :: rest) payloadLen) :
    ∃ rows rowBlocks : UInt64, rows.toNat = elements rest ∧
      rowBlocks.toNat = rows.toNat * (first / spec.blockElements).toNat ∧
      payloadLen.toNat = rowBlocks.toNat * spec.blockBytes.toNat := by
  have hpayload := payloadLen.toNat_lt
  have hsize := h.size
  simp only [List.tail_cons, List.headD_cons] at hsize
  have hfirst := (h.valid first List.mem_cons_self).pos
  have hblocks : 0 < first.toNat / spec.blockElements.toNat :=
    Nat.div_pos (Nat.le_of_dvd hfirst h.row) hpos.1
  have hrowBlocks : elements rest * (first.toNat / spec.blockElements.toNat) < 2 ^ 64 :=
    Nat.lt_of_le_of_lt (Nat.le_mul_of_pos_right _ hpos.2) (hsize ▸ hpayload)
  have hrows : elements rest < 2 ^ 64 :=
    Nat.lt_of_le_of_lt (Nat.le_mul_of_pos_right _ hblocks) hrowBlocks
  refine ⟨UInt64.ofNat (elements rest),
    UInt64.ofNat (elements rest * (first.toNat / spec.blockElements.toNat)),
    UInt64.toNat_ofNat_of_lt' hrows, ?_, ?_⟩
  · rw [UInt64.toNat_ofNat_of_lt' hrowBlocks, UInt64.toNat_ofNat_of_lt' hrows, UInt64.toNat_div]
  · rw [UInt64.toNat_ofNat_of_lt' hrowBlocks, hsize]

theorem deriveTensorGeometry_complete (hdims : view.dimensions = some array)
    (hlength : view.rank.toNat ≤ array.length) (hpayload : view.payload ≠ none)
    (hspec : specFor view.representation = some spec)
    (hfits : Fits spec (array.take view.rank.toNat) view.payloadLen) :
    ∃ geometry, deriveTensorGeometry view = .ok geometry := by
  have htake : (array.take view.rank.toNat).length = view.rank.toNat := by
    rw [List.length_take, Nat.min_eq_left hlength]
  have hrankLe := hfits.rank_le
  obtain ⟨nb, hnb, -⟩ := hfits.strides
  obtain ⟨first, rest, hshape⟩ := List.exists_cons_of_ne_nil hfits.rank_pos
  have hrank : view.rank.toNat = rest.length + 1 := by rw [← htake, hshape, List.length_cons]
  have hfirst : array.getD 0 0 = first := by
    have := congrArg (·.getD 0 0) hshape
    rwa [List.getD_eq_getElem?_getD, List.getElem?_take_of_lt (by omega),
      ← List.getD_eq_getElem?_getD] at this
  rw [hshape] at hfits hnb
  obtain ⟨address, haddress⟩ := Option.ne_none_iff_exists'.1 hpayload
  obtain ⟨rows, rowBlocks, hrows, hrowBlocks, hsize⟩ := hfits.exists_rows (specFor_pos hspec)
  have hcount : countRows 0 1 (first :: rest) = .ok rows := by
    have hvalid := hfits.valid first List.mem_cons_self
    simp only [countRows, nextRows, bind_eq_ok_iff, rejectIf_eq_ok_iff, not_or, UInt64.not_lt,
      Nat.lt_irrefl, if_false, Except.ok.injEq, exists_eq_left']
    refine ⟨(), hvalid, (countRows_eq_ok_iff Nat.one_pos).2 ⟨?_, ?_⟩⟩
    · exact fun d hd => hfits.valid d (List.mem_cons_of_mem _ hd)
    · rw [hrows, show (1 : UInt64).toNat = 1 from rfl, Nat.one_mul]
  have hmod : first % spec.blockElements = 0 := by
    rw [← UInt64.toNat_inj, UInt64.toNat_mod]
    exact Nat.mod_eq_zero_of_dvd hfits.row
  have hne : extents (first :: rest) =
      first :: rest ++ List.replicate (4 - view.rank.toNat) 1 := by
    rw [extents, ← hshape, htake]
  simp only [deriveTensorGeometry, hdims, bind_eq_ok_iff, okOr_eq_ok_iff, rejectIf_eq_ok_iff,
    Option.some.injEq, not_or, not_not, Option.bind_eq_some_iff, checkedMul_eq_some_iff]
  refine ⟨_, _, rfl, address, haddress, (), ⟨?_, ?_⟩, spec, hspec, rows, ?_, (), ?_, view.payloadLen,
    ⟨rowBlocks, ?_, hsize⟩, (), rfl, nb, ?_, rfl⟩
  · intro hzero
    rw [hzero] at hrank
    exact absurd hrank (Nat.succ_ne_zero _).symm
  · rw [UInt8.not_lt, UInt8.le_iff_toNat_le, ← htake, hshape]
    exact hfits.rank_le
  · rw [hshape]
    exact hcount
  · rw [hfirst]
    exact hmod
  · rw [hfirst]
    exact hrowBlocks
  · rw [hshape, ← hne]
    exact hnb

/-! ### The sizes of the Rust validator -/

/-- The size that the Rust validator expects of a payload; a canonical primitive is taken as
`F32`. -/
def rustPayloadBytes (representation : UInt8) (dimensions : List Nat) : Except MlError Nat := do
  let representation ← representationFromId representation.toNat
  match representation with
  | .canonicalPrimitive => do
      let elements ← logicalElements dimensions
      okOr (checkedMul? elements 4)
        ⟨.representationArithmeticOverflow, "tensor payload size overflows u64"⟩
  | packed => expectedPayloadBytes packed dimensions

/-- A shape of non-zero extents whose elements fit has no product that does not. -/
theorem not_prefixOverflows (hvalid : ∀ d ∈ dimensions, ValidDimension d)
    (hfits : elements dimensions < 2 ^ 64) : ¬ PrefixOverflows (dimensions.map UInt64.toNat) := by
  intro ⟨count, hcount⟩
  have hle : ((dimensions.map UInt64.toNat).take count).prod ≤ elements dimensions := by
    have hsplit := List.prod_take_mul_prod_drop (dimensions.map UInt64.toNat) count
    have hdrop : 0 < ((dimensions.map UInt64.toNat).drop count).prod := by
      rw [← List.map_drop]
      exact elements_pos fun d hd => hvalid d (List.mem_of_mem_drop hd)
    rw [elements, ← hsplit]
    exact Nat.le_mul_of_pos_right _ hdrop
  exact absurd (hcount.trans hle) (by unfold u64Bound; omega)

/-- The adapter's size of a shape, by its rows, is the size by its elements. -/
theorem size_eq {first : UInt64} {rest : List UInt64}
    (hrow : spec.blockElements.toNat ∣ first.toNat) :
    elements rest * (first.toNat / spec.blockElements.toNat) * spec.blockBytes.toNat =
      ((first :: rest).map UInt64.toNat).prod / spec.blockElements.toNat *
        spec.blockBytes.toNat := by
  rw [List.map_cons, List.prod_cons, Nat.mul_comm first.toNat, Nat.mul_div_assoc _ hrow, elements]

/-- A representation with this block accepts the same payloads on both sides. -/
theorem fits_iff_expected {representation : TensorRepresentation} {payloadLen : UInt64}
    (hpacked : representation.quantizedBlock ≠ none)
    (hblock : (ConsumerTensorType.ofRepresentation representation).block =
      (spec.blockElements.toNat, spec.blockBytes.toNat))
    (hne : dimensions ≠ []) (hrank : dimensions.length ≤ 4)
    (hvalid : ∀ d ∈ dimensions, ValidDimension d) (helements : elements dimensions < 2 ^ 64) :
    Fits spec dimensions payloadLen ↔
      expectedPayloadBytes representation (dimensions.map UInt64.toNat) =
        .ok payloadLen.toNat := by
  obtain ⟨first, rest, rfl⟩ := List.exists_cons_of_ne_nil hne
  have hcanonical : representation ≠ .canonicalPrimitive := by
    rintro rfl
    exact hpacked rfl
  have hstorage : representation.storageSize ((first :: rest).map UInt64.toNat) =
      ((first :: rest).map UInt64.toNat).prod / spec.blockElements.toNat *
        spec.blockBytes.toNat := by
    rw [TensorRepresentation.storageSize, ConsumerTensorType.storageSize, hblock]
  constructor
  · intro h
    have hsize := h.size
    simp only [List.tail_cons, List.headD_cons] at hsize
    have hrow : spec.blockElements.toNat ∣ first.toNat := h.row
    rw [size_eq hrow, ← hstorage] at hsize
    rw [hsize]
    refine expectedPayloadBytes_complete hcanonical (not_prefixOverflows hvalid helements) ?_ ?_
    · rw [← hsize]
      exact payloadLen.toNat_lt
    · intro _
      refine ⟨first.toNat, rfl, (hvalid first List.mem_cons_self).pos.ne', ?_⟩
      rw [hblock]
      exact hrow
  · intro h
    obtain ⟨width, hhead, -, hdvd⟩ := rowFits_of_expected hpacked h
    cases hhead
    rw [hblock] at hdvd
    refine ⟨List.cons_ne_nil _ _, hrank, hvalid, hdvd, ?_⟩
    have hsize := expectedPayloadBytes_eq h
    rw [hsize]
    exact hstorage.trans (size_eq hdvd).symm

/-- The same for `F32`, whose elements are blocks of their own. -/
theorem fits_iff_float {payloadLen : UInt64} (hne : dimensions ≠ [])
    (hrank : dimensions.length ≤ 4) (hvalid : ∀ d ∈ dimensions, ValidDimension d)
    (helements : elements dimensions < 2 ^ 64) :
    Fits ⟨.f32, 1, 4⟩ dimensions payloadLen ↔
      rustPayloadBytes 0 (dimensions.map UInt64.toNat) = .ok payloadLen.toNat := by
  obtain ⟨first, rest, rfl⟩ := List.exists_cons_of_ne_nil hne
  have hproduct : logicalElements ((first :: rest).map UInt64.toNat) =
      .ok (elements (first :: rest)) :=
    logicalElements_eq_ok_iff.2 (checkedProduct_complete (not_prefixOverflows hvalid helements))
  have hrust : rustPayloadBytes 0 ((first :: rest).map UInt64.toNat) = .ok payloadLen.toNat ↔
      elements (first :: rest) * 4 < 2 ^ 64 ∧ payloadLen.toNat = elements (first :: rest) * 4 := by
    have hcode : representationFromId (0 : UInt8).toNat = .ok .canonicalPrimitive := rfl
    simp only [rustPayloadBytes, hcode, hproduct, bind_eq_ok_iff, Except.ok.injEq,
      exists_eq_left', okOr_eq_ok_iff, checkedMul?_eq_some_iff]
    rfl
  have hsize : elements rest * (first.toNat / 1) * 4 = elements (first :: rest) * 4 := by
    rw [Nat.div_one, elements_cons, Nat.mul_comm first.toNat]
  rw [hrust]
  constructor
  · intro h
    have hlength : payloadLen.toNat = elements rest * (first.toNat / 1) * 4 := h.size
    rw [hsize] at hlength
    exact ⟨hlength ▸ payloadLen.toNat_lt, hlength⟩
  · rintro ⟨-, hlength⟩
    exact ⟨List.cons_ne_nil _ _, hrank, hvalid, Nat.one_dvd _, hlength.trans hsize.symm⟩

/-- On every representation of the adapter's table the two sides accept the same payloads. -/
theorem fits_iff_rust {representation : UInt8} {payloadLen : UInt64}
    (hspec : specFor representation = some spec) (hne : dimensions ≠ [])
    (hrank : dimensions.length ≤ 4) (hvalid : ∀ d ∈ dimensions, ValidDimension d)
    (helements : elements dimensions < 2 ^ 64) :
    Fits spec dimensions payloadLen ↔
      rustPayloadBytes representation (dimensions.map UInt64.toNat) = .ok payloadLen.toNat := by
  unfold specFor at hspec
  split at hspec <;> cases hspec
  · exact fits_iff_float hne hrank hvalid helements
  · exact @fits_iff_expected _ _ .ggmlIQ1_S _ nofun rfl hne hrank hvalid helements
  · exact @fits_iff_expected _ _ .ggmlIQ4_NL _ nofun rfl hne hrank hvalid helements
  · exact @fits_iff_expected _ _ .ggmlIQ2_XXS _ nofun rfl hne hrank hvalid helements
  · exact @fits_iff_expected _ _ .ggmlQ2_K _ nofun rfl hne hrank hvalid helements
  · exact @fits_iff_expected _ _ .ggmlQ5_K _ nofun rfl hne hrank hvalid helements

/-- The adapter and the validator agree on the size of a tensor, and the outermost stride
times its extent is that size. -/
theorem deriveTensorGeometry_agrees (representation : UInt8) (dimensions : List UInt64)
    (address : Nat) (payloadLen : UInt64) (hspec : specFor representation ≠ none)
    (hne : dimensions ≠ []) (hrank : dimensions.length ≤ 4)
    (hdimensions : ∀ d ∈ dimensions, d ≠ 0 ∧ d.toNat < 2 ^ 63)
    (helements : (dimensions.map UInt64.toNat).prod < 2 ^ 64) :
    let view : VbufTensorView :=
      ⟨representation, UInt8.ofNat dimensions.length, some dimensions, some address, payloadLen⟩
    ((∃ geometry, deriveTensorGeometry view = .ok geometry) ↔
        rustPayloadBytes representation (dimensions.map UInt64.toNat) = .ok payloadLen.toNat) ∧
      ∀ geometry, deriveTensorGeometry view = .ok geometry → 2 ≤ dimensions.length →
        (geometry.nb.getD (dimensions.length - 1) 0).toNat *
          (geometry.ne.getD (dimensions.length - 1) 0).toNat = payloadLen.toNat := by
  intro view
  have hvalid : ∀ d ∈ dimensions, ValidDimension d := by
    intro d hd
    obtain ⟨hzero, hlt⟩ := hdimensions d hd
    refine ⟨hzero, UInt64.le_iff_toNat_le.2 ?_⟩
    have hmax : int64Max.toNat = 2 ^ 63 - 1 := rfl
    omega
  have hlength : view.rank.toNat = dimensions.length := UInt8.toNat_ofNat_of_lt' (Nat.lt_of_le_of_lt hrank (by decide))
  have htake : dimensions.take view.rank.toNat = dimensions :=
    List.take_of_length_le (Nat.le_of_eq hlength.symm)
  obtain ⟨spec, hspec⟩ := Option.ne_none_iff_exists'.1 hspec
  refine ⟨?_, ?_⟩
  · rw [← fits_iff_rust hspec hne hrank hvalid helements]
    constructor
    · intro ⟨geometry, hgeometry⟩
      obtain ⟨-, spec', hspec', hfits, -⟩ :=
        deriveTensorGeometry_sound rfl (Nat.le_of_eq hlength) hgeometry
      rw [htake] at hfits
      have heq : spec = spec' := Option.some.inj (hspec.symm.trans hspec')
      exact heq ▸ hfits
    · intro hfits
      exact deriveTensorGeometry_complete rfl (Nat.le_of_eq hlength) nofun hspec (htake.symm ▸ hfits)
  · intro geometry hgeometry htwo
    obtain ⟨-, spec', -, hfits, hnes, hnb⟩ :=
      deriveTensorGeometry_sound rfl (Nat.le_of_eq hlength) hgeometry
    rw [htake] at hfits hnes
    obtain ⟨nb, hstrides, hlast⟩ := hfits.strides
    rw [hnes, hstrides] at hnb
    rw [← Except.ok.inj hnb, hnes]
    exact hlast htwo

theorem deriveTensorGeometry_agrees_example :
    let view : VbufTensorView := ⟨7, 2, some [64, 3], some 0, 108⟩
    ((∃ geometry, deriveTensorGeometry view = .ok geometry) ↔
        rustPayloadBytes 7 [64, 3] = .ok 108) ∧
      ∀ geometry, deriveTensorGeometry view = .ok geometry → 2 ≤ 2 →
        (geometry.nb.getD 1 0).toNat * (geometry.ne.getD 1 0).toNat = 108 :=
  deriveTensorGeometry_agrees 7 [64, 3] 0 108 nofun nofun (by decide)
    (List.forall_mem_cons.2 ⟨by decide, List.forall_mem_singleton.2 (by decide)⟩) (by decide)

end VBuf.Ggml.Geometry
