import VBuf.Ml.Error

/-!
# Tensor representations

The storage contracts of the tensor directory: how many payload bytes a shape
takes in each representation, and whether a canonical block carries them.
-/

namespace VBuf.Ml

open VBuf.Lib VBuf.V06

/-- `TensorRepresentation`; the constructor order is the wire code. -/
inductive TensorRepresentation
  | canonicalPrimitive
  | bf16
  | ggmlQ8_0
  | ggmlQ4_0
  | ggmlQ2_K
  | ggmlIQ1_S
  | ggmlQ4_K
  | ggmlIQ4_NL
  | ggmlIQ4_XS
  | ggmlQ3_K
  | ggmlIQ2_XXS
  | ggmlIQ2_XS
  | ggmlIQ2_S
  | ggmlQ5_K
  | ggmlQ6_K
  | f8E4M3
  deriving DecidableEq, Repr

/-- `representation as u8`. -/
def TensorRepresentation.code : TensorRepresentation → Nat
  | .canonicalPrimitive => 0
  | .bf16 => 1
  | .ggmlQ8_0 => 2
  | .ggmlQ4_0 => 3
  | .ggmlQ2_K => 4
  | .ggmlIQ1_S => 5
  | .ggmlQ4_K => 6
  | .ggmlIQ4_NL => 7
  | .ggmlIQ4_XS => 8
  | .ggmlQ3_K => 9
  | .ggmlIQ2_XXS => 10
  | .ggmlIQ2_XS => 11
  | .ggmlIQ2_S => 12
  | .ggmlQ5_K => 13
  | .ggmlQ6_K => 14
  | .f8E4M3 => 15

/-- `representation_from_id`. -/
def representationFromId (id : Nat) : Except MlError TensorRepresentation :=
  match id with
  | 0 => .ok .canonicalPrimitive
  | 1 => .ok .bf16
  | 2 => .ok .ggmlQ8_0
  | 3 => .ok .ggmlQ4_0
  | 4 => .ok .ggmlQ2_K
  | 5 => .ok .ggmlIQ1_S
  | 6 => .ok .ggmlQ4_K
  | 7 => .ok .ggmlIQ4_NL
  | 8 => .ok .ggmlIQ4_XS
  | 9 => .ok .ggmlQ3_K
  | 10 => .ok .ggmlIQ2_XXS
  | 11 => .ok .ggmlIQ2_XS
  | 12 => .ok .ggmlIQ2_S
  | 13 => .ok .ggmlQ5_K
  | 14 => .ok .ggmlQ6_K
  | 15 => .ok .f8E4M3
  | _ => .error ⟨.unsupportedTensorRepresentation, "unsupported tensor representation"⟩

@[simp] theorem representationFromId_code (representation : TensorRepresentation) :
    representationFromId representation.code = .ok representation := by
  cases representation <;> rfl

theorem TensorRepresentation.code_lt (representation : TensorRepresentation) :
    representation.code < 256 := by
  cases representation <;> decide

/-- `a.checked_mul(b)`. -/
def checkedMul? (a b : Nat) : Option Nat := if a * b < u64Bound then some (a * b) else none

/-- The product of `try_fold(1u64, checked_mul)`. -/
def checkedProduct (dimensions : List Nat) : Option Nat := dimensions.foldlM checkedMul? 1

/-- `logical_elements`. -/
def logicalElements (dimensions : List Nat) : Except MlError Nat :=
  okOr (checkedProduct dimensions) ⟨.shapeOverflow, "tensor shape product overflows u64"⟩

/-- Elements and bytes of one quantization block; `none` for the formats
without blocks. -/
def TensorRepresentation.quantizedBlock : TensorRepresentation → Option (Nat × Nat)
  | .canonicalPrimitive | .bf16 | .f8E4M3 => none
  | .ggmlQ8_0 => some (32, 34)
  | .ggmlQ4_0 => some (32, 18)
  | .ggmlQ2_K => some (256, 84)
  | .ggmlIQ1_S => some (256, 50)
  | .ggmlQ4_K => some (256, 144)
  | .ggmlIQ4_NL => some (32, 18)
  | .ggmlIQ4_XS => some (256, 136)
  | .ggmlQ3_K => some (256, 110)
  | .ggmlIQ2_XXS => some (256, 66)
  | .ggmlIQ2_XS => some (256, 74)
  | .ggmlIQ2_S => some (256, 82)
  | .ggmlQ5_K => some (256, 176)
  | .ggmlQ6_K => some (256, 210)

/-- The block-quantized arm of `expected_payload_bytes`. -/
def quantizedPayloadBytes (blockElements blockBytes : Nat) (dimensions : List Nat) :
    Except MlError Nat := do
  let rowWidth ← okOr dimensions.head? ⟨.invalidQuantizedShape, "Q8_0 requires a row dimension"⟩
  rejectIf (rowWidth = 0 ∨ rowWidth % blockElements ≠ 0)
    ⟨.invalidQuantizedShape, "quantized row width is not divisible by its block width"⟩
  let rows ← okOr (checkedProduct dimensions.tail)
    ⟨.invalidQuantizedBlockCount, "Q8_0 row count overflows u64"⟩
  okOr ((checkedMul? rows (rowWidth / blockElements)).bind fun blocks =>
      checkedMul? blocks blockBytes)
    ⟨.representationArithmeticOverflow, "quantized payload size overflows u64"⟩

/-- `expected_payload_bytes`. -/
def expectedPayloadBytes (representation : TensorRepresentation) (dimensions : List Nat) :
    Except MlError Nat := do
  let elements ← logicalElements dimensions
  match representation with
  | .canonicalPrimitive =>
      .error ⟨.tensorRepresentationMismatch, "canonical primitive size depends on its descriptor"⟩
  | .bf16 =>
      okOr (checkedMul? elements 2)
        ⟨.representationArithmeticOverflow, "BF16 payload size overflows u64"⟩
  | .f8E4M3 => pure elements
  | packed =>
      match packed.quantizedBlock with
      | some (blockElements, blockBytes) => quantizedPayloadBytes blockElements blockBytes dimensions
      -- The three unblocked formats are matched above.
      | none => pure elements

/-- `validate_tensor_representation`. -/
def validateTensorRepresentation (representation : TensorRepresentation) (dimensions : List Nat)
    (block : Block) : Except MlError Unit := do
  let elements ← logicalElements dimensions
  match representation with
  | .canonicalPrimitive => do
      rejectIf (block.semantic = .opaqueBytes ∨ block.bitWidth % 8 ≠ 0 ∨ block.count ≠ elements)
        ⟨.tensorRepresentationMismatch, "canonical primitive does not match tensor shape"⟩
      let expectedBytes ← okOr (checkedMul? elements (block.bitWidth / 8))
        ⟨.representationArithmeticOverflow, "tensor payload size overflows u64"⟩
      rejectIf (block.payloadLen ≠ expectedBytes)
        ⟨.tensorPayloadSizeMismatch, "tensor payload length does not match representation"⟩
  | packed => do
      let mismatch : MlError :=
        ⟨.tensorRepresentationMismatch, "packed representation requires an opaque byte array"⟩
      rejectIf (block.semantic ≠ .opaqueBytes ∨ block.physical ≠ .array ∨ block.bitWidth ≠ 8)
        mismatch
      let expectedBytes ← expectedPayloadBytes packed dimensions
      rejectIf (block.count ≠ expectedBytes) mismatch
      rejectIf (block.payloadLen ≠ expectedBytes)
        ⟨.tensorPayloadSizeMismatch, "packed tensor payload length does not match representation"⟩

/-- `validate_external_tensor_representation`. -/
def validateExternalTensorRepresentation (representation : TensorRepresentation)
    (dimensions : List Nat) (block : Block) (payloadLen : Nat) : Except MlError Unit := do
  let elements ← logicalElements dimensions
  match representation with
  | .canonicalPrimitive => do
      rejectIf (block.semantic = .opaqueBytes ∨ block.bitWidth % 8 ≠ 0)
        ⟨.tensorRepresentationMismatch,
          "canonical external primitive does not match tensor geometry"⟩
      let expected ← okOr (checkedMul? elements (block.bitWidth / 8))
        ⟨.representationArithmeticOverflow, "external tensor payload size overflows u64"⟩
      rejectIf (payloadLen ≠ expected)
        ⟨.tensorPayloadSizeMismatch,
          "external canonical payload length does not match representation"⟩
  | packed => do
      rejectIf (block.semantic ≠ .opaqueBytes ∨ block.physical ≠ .array ∨ block.bitWidth ≠ 8)
        ⟨.tensorRepresentationMismatch,
          "packed external representation requires an opaque byte array"⟩
      let expected ← expectedPayloadBytes packed dimensions
      rejectIf (payloadLen ≠ expected)
        ⟨.tensorPayloadSizeMismatch,
          "external packed payload length does not match representation"⟩

theorem checkedMul?_eq_some_iff {a b r : Nat} :
    checkedMul? a b = some r ↔ a * b < u64Bound ∧ r = a * b := by
  unfold checkedMul?
  by_cases h : a * b < u64Bound <;> simp [h, eq_comm]

theorem logicalElements_eq_ok_iff {dimensions : List Nat} {elements : Nat} :
    logicalElements dimensions = .ok elements ↔ checkedProduct dimensions = some elements :=
  okOr_eq_ok_iff

private theorem foldlM_checkedMul_pos {dimensions : List Nat} {start product : Nat}
    (hstart : 0 < start) (hdims : 0 ∉ dimensions)
    (h : dimensions.foldlM checkedMul? start = some product) : 0 < product := by
  induction dimensions generalizing start with
  | nil =>
      cases h
      exact hstart
  | cons dimension rest ih =>
      rw [List.mem_cons, not_or] at hdims
      rw [List.foldlM_cons, Option.bind_eq_bind, Option.bind_eq_some_iff] at h
      obtain ⟨next, hnext, hrest⟩ := h
      obtain ⟨-, rfl⟩ := checkedMul?_eq_some_iff.1 hnext
      exact ih (Nat.mul_pos hstart (Nat.pos_of_ne_zero (Ne.symm hdims.1))) hdims.2 hrest

/-- A shape without a zero dimension has an element. -/
theorem logicalElements_pos {dimensions : List Nat} {elements : Nat} (hdims : 0 ∉ dimensions)
    (h : logicalElements dimensions = .ok elements) : 0 < elements :=
  foldlM_checkedMul_pos Nat.one_pos hdims (logicalElements_eq_ok_iff.1 h)

theorem foldlM_checkedMul_lt {dimensions : List Nat} {start product : Nat}
    (hstart : start < u64Bound) (h : dimensions.foldlM checkedMul? start = some product) :
    product < u64Bound := by
  induction dimensions generalizing start with
  | nil =>
      cases h
      exact hstart
  | cons dimension rest ih =>
      rw [List.foldlM_cons, Option.bind_eq_bind, Option.bind_eq_some_iff] at h
      obtain ⟨next, hnext, hrest⟩ := h
      obtain ⟨hlt, rfl⟩ := checkedMul?_eq_some_iff.1 hnext
      exact ih hlt hrest

end VBuf.Ml
