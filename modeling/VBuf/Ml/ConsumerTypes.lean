import VBuf.Ml.PayloadPaths

/-!
# The tensor types of the consumer

The consumer exposes a type, a shape and a payload for each listed tensor.  The
directory parser sizes a canonical primitive by the width of its block, but the
consumer calls every canonical primitive an F32 tensor.
-/

namespace VBuf.Ml

open VBuf.Lib VBuf.Layout VBuf.V06

/-- `ConsumerTensorType`; the constructor order is the discriminant. -/
inductive ConsumerTensorType
  | f32
  | bf16
  | q8_0
  | q4_0
  | q2_K
  | iq1_S
  | q4_K
  | iq4_NL
  | iq4_XS
  | q3_K
  | iq2_XXS
  | iq2_XS
  | iq2_S
  | q5_K
  | q6_K
  | f8_E4M3
  deriving DecidableEq, Repr

namespace ConsumerTensorType

/-- The match of `tensor_type` and of `build_snapshot`. -/
def ofRepresentation : TensorRepresentation → ConsumerTensorType
  | .canonicalPrimitive => .f32
  | .bf16 => .bf16
  | .ggmlQ8_0 => .q8_0
  | .ggmlQ4_0 => .q4_0
  | .ggmlQ2_K => .q2_K
  | .ggmlIQ1_S => .iq1_S
  | .ggmlQ4_K => .q4_K
  | .ggmlIQ4_NL => .iq4_NL
  | .ggmlIQ4_XS => .iq4_XS
  | .ggmlQ3_K => .q3_K
  | .ggmlIQ2_XXS => .iq2_XXS
  | .ggmlIQ2_XS => .iq2_XS
  | .ggmlIQ2_S => .iq2_S
  | .ggmlQ5_K => .q5_K
  | .ggmlQ6_K => .q6_K
  | .f8E4M3 => .f8_E4M3

/-- The storage format a type names: elements and bytes of one block. -/
def block : ConsumerTensorType → Nat × Nat
  | .f32 => (1, 4)
  | .bf16 => (1, 2)
  | .q8_0 => (32, 34)
  | .q4_0 => (32, 18)
  | .q2_K => (256, 84)
  | .iq1_S => (256, 50)
  | .q4_K => (256, 144)
  | .iq4_NL => (32, 18)
  | .iq4_XS => (256, 136)
  | .q3_K => (256, 110)
  | .iq2_XXS => (256, 66)
  | .iq2_XS => (256, 74)
  | .iq2_S => (256, 82)
  | .q5_K => (256, 176)
  | .q6_K => (256, 210)
  | .f8_E4M3 => (1, 1)

/-- The bytes that a tensor of this type and shape takes. -/
def storageSize (type : ConsumerTensorType) (dimensions : List Nat) : Nat :=
  dimensions.prod / type.block.1 * type.block.2

/-- The elements that a consumer of this type reads from a block: 32-bit floats
from an F32 tensor, packed bytes from the others. -/
def Reads : ConsumerTensorType → Semantic → Prop
  | .f32, semantic => semantic = .float
  | _, semantic => semantic = .opaqueBytes

instance (type : ConsumerTensorType) (semantic : Semantic) : Decidable (type.Reads semantic) := by
  cases type <;> exact inferInstanceAs (Decidable (semantic = _))

end ConsumerTensorType

/-- `tensor_type`. -/
def TensorDescriptor.consumerType (tensor : TensorDescriptor) : ConsumerTensorType :=
  .ofRepresentation tensor.representation

theorem checkedProduct_eq {dimensions : List Nat} {product : Nat}
    (h : checkedProduct dimensions = some product) : product = dimensions.prod := by
  have hfold : ∀ (dimensions : List Nat) (start : Nat),
      dimensions.foldlM checkedMul? start = some product → product = start * dimensions.prod := by
    intro dimensions
    induction dimensions with
    | nil =>
        intro start h
        cases h
        rw [List.prod_nil, Nat.mul_one]
    | cons dimension rest ih =>
        intro start h
        rw [List.foldlM_cons, Option.bind_eq_bind, Option.bind_eq_some_iff] at h
        obtain ⟨next, hnext, hrest⟩ := h
        obtain ⟨-, rfl⟩ := checkedMul?_eq_some_iff.1 hnext
        rw [ih _ hrest, List.prod_cons, Nat.mul_assoc]
  rw [hfold dimensions 1 h, Nat.one_mul]

/-- The payload size of a block-quantized shape. -/
theorem quantizedPayloadBytes_eq {blockElements blockBytes size : Nat} {dimensions : List Nat}
    (h : quantizedPayloadBytes blockElements blockBytes dimensions = .ok size) :
    size = dimensions.prod / blockElements * blockBytes := by
  simp only [quantizedPayloadBytes, bind_eq_ok_iff, okOr_eq_ok_iff, rejectIf_eq_ok_iff,
    Option.bind_eq_some_iff, checkedMul?_eq_some_iff, not_or, not_not] at h
  obtain ⟨rowWidth, hhead, _, ⟨-, hmod⟩, rows, hrows, blocks, ⟨-, rfl⟩, -, rfl⟩ := h
  -- The parser sizes rows of whole blocks; the type counts blocks of the whole shape.
  obtain ⟨rest, rfl⟩ : ∃ rest, dimensions = rowWidth :: rest := by
    cases dimensions with
    | nil => cases hhead
    | cons first rest =>
        cases hhead
        exact ⟨rest, rfl⟩
  rw [checkedProduct_eq hrows, List.tail_cons, List.prod_cons, Nat.mul_comm rowWidth,
    Nat.mul_div_assoc _ (Nat.dvd_of_mod_eq_zero hmod)]

/-- The expected payload of a packed representation is the storage size of the
type that the consumer exposes. -/
theorem expectedPayloadBytes_eq {representation : TensorRepresentation} {dimensions : List Nat}
    {size : Nat} (h : expectedPayloadBytes representation dimensions = .ok size) :
    size = (ConsumerTensorType.ofRepresentation representation).storageSize dimensions := by
  rw [expectedPayloadBytes, bind_eq_ok_iff] at h
  obtain ⟨elements, helements, h⟩ := h
  have hproduct := checkedProduct_eq (logicalElements_eq_ok_iff.1 helements)
  cases representation with
  | canonicalPrimitive => cases h
  | bf16 =>
      obtain ⟨-, rfl⟩ := checkedMul?_eq_some_iff.1 (okOr_eq_ok_iff.1 h)
      show elements * 2 = dimensions.prod / 1 * 2
      rw [Nat.div_one, hproduct]
  | f8E4M3 =>
      cases h
      show size = dimensions.prod / 1 * 1
      rw [Nat.div_one, Nat.mul_one, hproduct]
  | _ => exact quantizedPayloadBytes_eq h

/-- The packed arm of `validate_tensor_representation`. -/
theorem packed_of_validate {representation : TensorRepresentation} {dimensions : List Nat}
    {block : Block} (hpacked : representation ≠ .canonicalPrimitive)
    (h : validateTensorRepresentation representation dimensions block = .ok ()) :
    block.semantic = .opaqueBytes ∧
      expectedPayloadBytes representation dimensions = .ok block.payloadLen := by
  cases representation with
  | canonicalPrimitive => exact absurd rfl hpacked
  | _ =>
      simp only [validateTensorRepresentation, bind_eq_ok_iff, rejectIf_eq_ok_iff, not_or,
        not_not] at h
      obtain ⟨_, -, _, ⟨hsemantic, -, -⟩, expected, hexpected, _, -, hlength⟩ := h
      exact ⟨hsemantic, hlength ▸ hexpected⟩

/-- The packed arm of `validate_external_tensor_representation`. -/
theorem packed_of_validateExternal {representation : TensorRepresentation}
    {dimensions : List Nat} {block : Block} {length : Nat}
    (hpacked : representation ≠ .canonicalPrimitive)
    (h : validateExternalTensorRepresentation representation dimensions block length = .ok ()) :
    block.semantic = .opaqueBytes ∧
      expectedPayloadBytes representation dimensions = .ok length := by
  cases representation with
  | canonicalPrimitive => exact absurd rfl hpacked
  | _ =>
      simp only [validateExternalTensorRepresentation, bind_eq_ok_iff, rejectIf_eq_ok_iff, not_or,
        not_not] at h
      obtain ⟨_, -, _, ⟨hsemantic, -, -⟩, expected, hexpected, hlength⟩ := h
      exact ⟨hsemantic, hlength ▸ hexpected⟩

namespace TensorDirectory

variable {validated : Validated} {bootstrap : Bootstrap} {sources : SourceRegistry}
  {external : List (UInt16 × UInt16 × TensorRef)} {directory : TensorDirectory}

/-- A primitive that either geometry check accepts is sized by its block. -/
theorem Bound.primitive {tensor : TensorDescriptor} {target : Block}
    (h : tensor.Bound validated sources external target)
    (hprimitive : tensor.representation = .canonicalPrimitive) :
    target.bitWidth % 8 = 0 ∧ ∃ elements, logicalElements tensor.dimensions = .ok elements ∧
      tensor.payload.length = elements * (target.bitWidth / 8) := by
  have hgeometry := h.geometry
  unfold checkGeometry at hgeometry
  split at hgeometry
  · rename_i hself
    change validateTensorRepresentation tensor.representation tensor.dimensions target = _
      at hgeometry
    rw [hprimitive] at hgeometry
    simp only [validateTensorRepresentation, bind_eq_ok_iff, okOr_eq_ok_iff, rejectIf_eq_ok_iff,
      checkedMul?_eq_some_iff, not_or, not_not] at hgeometry
    obtain ⟨elements, helements, _, ⟨-, hwhole, -⟩, bytes, ⟨-, rfl⟩, hbytes⟩ := hgeometry
    exact ⟨hwhole, elements, helements, (h.length_eq hself.1).trans hbytes⟩
  · change validateExternalTensorRepresentation tensor.representation tensor.dimensions target
      tensor.payload.length = _ at hgeometry
    rw [hprimitive] at hgeometry
    simp only [validateExternalTensorRepresentation, bind_eq_ok_iff, okOr_eq_ok_iff,
      rejectIf_eq_ok_iff, checkedMul?_eq_some_iff, not_or, not_not] at hgeometry
    obtain ⟨elements, helements, _, ⟨-, hwhole⟩, bytes, ⟨-, rfl⟩, hbytes⟩ := hgeometry
    exact ⟨hwhole, elements, helements, hbytes⟩

/-- A packed tensor that either geometry check accepts is sized by its
representation. -/
theorem Bound.packed {tensor : TensorDescriptor} {target : Block}
    (h : tensor.Bound validated sources external target)
    (hpacked : tensor.representation ≠ .canonicalPrimitive) :
    target.semantic = .opaqueBytes ∧
      expectedPayloadBytes tensor.representation tensor.dimensions =
        .ok tensor.payload.length := by
  have hgeometry := h.geometry
  unfold checkGeometry at hgeometry
  split at hgeometry
  · rename_i hself
    rw [h.length_eq hself.1]
    exact packed_of_validate hpacked hgeometry
  · exact packed_of_validateExternal hpacked hgeometry

/-- What the consumer exposes of a tensor fits together: the payload has the size
of the type at the shape, by both payload accessors, and its elements are the ones
that the type reads. -/
structure Consistent (validated : Validated) (tensor : TensorDescriptor) : Prop where
  length_eq : tensor.payload.length = tensor.consumerType.storageSize tensor.dimensions
  range_length_eq : ∀ range ∈ blockRange tensor,
    range.length = tensor.consumerType.storageSize tensor.dimensions
  reads : ∀ block ∈ namedBlock validated tensor.keyId tensor.occurrence,
    tensor.consumerType.Reads block.semantic

/-- A canonical primitive lies in a block of 32-bit floats. -/
def PrimitiveIsF32 (validated : Validated) (tensor : TensorDescriptor) : Prop :=
  tensor.representation = .canonicalPrimitive →
    ∀ block ∈ namedBlock validated tensor.keyId tensor.occurrence,
      block.semantic = .float ∧ block.bitWidth = 32

/-- The length of the recorded payload is the storage size of the exposed type,
except for primitives of another width. -/
theorem Bound.length_eq_storageSize_iff {tensor : TensorDescriptor} {target : Block}
    (h : tensor.Bound validated sources external target) :
    tensor.payload.length = tensor.consumerType.storageSize tensor.dimensions ↔
      (tensor.representation = .canonicalPrimitive → target.bitWidth = 32) := by
  by_cases hprimitive : tensor.representation = .canonicalPrimitive
  · obtain ⟨hwhole, elements, helements, hlength⟩ := Bound.primitive h hprimitive
    have hpos := logicalElements_pos h.dimensions_pos helements
    have hproduct := checkedProduct_eq (logicalElements_eq_ok_iff.1 helements)
    have hsize : tensor.consumerType.storageSize tensor.dimensions = elements * 4 := by
      rw [TensorDescriptor.consumerType, hprimitive, hproduct]
      show tensor.dimensions.prod / 1 * 4 = _
      rw [Nat.div_one]
    rw [hlength, hsize, Nat.mul_right_inj hpos.ne']
    constructor
    · intro hbytes _
      omega
    · intro hwidth
      rw [hwidth hprimitive]
  · exact iff_of_true (expectedPayloadBytes_eq (Bound.packed h hprimitive).2)
      fun hcontra => absurd hcontra hprimitive

/-- The two accessors of a payload give one length. -/
theorem Bound.range_length_eq {tensor : TensorDescriptor} {target : Block} {bytes : List UInt8}
    (hparse : parseV06 bytes = .ok validated)
    (h : tensor.Bound validated sources external target) {range : ByteRange}
    (hrange : range ∈ blockRange tensor) : range.length = tensor.payload.length := by
  by_cases hself : tensor.payload.sourceId = .self
  · obtain ⟨found, hfound, hoffset, hstop⟩ := Bound.blockRange_eq h hself
    rw [hfound, Option.mem_some_iff] at hrange
    subst hrange
    have hend := ((parseV06_eq_ok_iff.1 hparse).2.blockAt
      (List.mem_of_getElem? h.block_eq)).payloadEnd_eq
    have hlength := h.length_eq hself
    have hsum : found.offset + found.length = found.stop := rfl
    omega
  · have hnone : tensor.range = none := by
      have heq := h.range_eq
      rw [selfRange, if_neg hself] at heq
      exact (Except.ok.inj heq).symm
    rw [blockRange, hnone] at hrange
    cases hrange

/-- What the consumer exposes of a listed tensor fits together exactly when a
canonical primitive is one of 32-bit floats. -/
theorem consistent_iff_primitiveIsF32 {bytes : List UInt8}
    (hparse : parseV06 bytes = .ok validated)
    (h : parseWithSources validated bootstrap sources external = .ok directory)
    {tensor : TensorDescriptor} (hmem : tensor ∈ directory.tensors) :
    Consistent validated tensor ↔ PrimitiveIsF32 validated tensor := by
  obtain ⟨target, hbound⟩ := bound_of_parseWithSources h hmem
  have hnamed := Bound.namedBlock_eq hbound
  have hsize := Bound.length_eq_storageSize_iff hbound
  constructor
  · intro hconsistent hprimitive block hblock
    have hreads := hconsistent.reads block hblock
    rw [TensorDescriptor.consumerType, hprimitive] at hreads
    rw [hnamed, Option.mem_some_iff] at hblock
    subst hblock
    exact ⟨hreads, hsize.1 hconsistent.length_eq hprimitive⟩
  · intro hf32
    have hlength := hsize.2 fun hprimitive => (hf32 hprimitive target hnamed).2
    refine ⟨hlength, ?_, ?_⟩
    · intro range hrange
      rw [Bound.range_length_eq hparse hbound hrange, hlength]
    · intro block hblock
      -- Only the F32 type can disagree with its block; the packed ones were checked.
      by_cases hprimitive : tensor.representation = .canonicalPrimitive
      · rw [TensorDescriptor.consumerType, hprimitive]
        exact (hf32 hprimitive block hblock).1
      · rw [hnamed, Option.mem_some_iff] at hblock
        subst hblock
        have hopaque := (Bound.packed hbound hprimitive).1
        revert hprimitive
        rw [TensorDescriptor.consumerType, hopaque]
        cases tensor.representation with
        | canonicalPrimitive => exact fun hcontra => absurd rfl hcontra
        | _ => exact fun _ => rfl

/-- The equivalence at the float of the example artifact. -/
theorem consistent_iff_primitiveIsF32_example :
    Consistent exampleView exampleTensor ↔ PrimitiveIsF32 exampleView exampleTensor :=
  consistent_iff_primitiveIsF32 exampleView_eq plainTensors_eq (List.head_mem _)

end TensorDirectory

end VBuf.Ml
