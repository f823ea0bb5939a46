import Mathlib.Algebra.BigOperators.Group.List.Basic
import VBuf.Convert.PlanAgreement
import VBuf.Ml.StorageSize

/-!
# The tensor rows of a manifest

The parser of the source file, the manifest builder and the converter each keep a table of
block formats and compute a payload size of their own.  `tensor_plans` compares the first
two, so that it lets a tensor through exactly when all three agree.
-/

namespace VBuf.Convert

open VBuf.Lib VBuf.V06 VBuf.Ml

/-! ### The parser -/

/-- `checked_mul` of the two scripts. -/
def pyMul (a b : Nat) : Except PyError Nat :=
  okOr (checkedMul? a b) (.valueError "u64 multiplication overflow")

/-- The product of a shape, dimension by dimension. -/
def pyProduct (shape : List Nat) : Except PyError Nat := shape.foldlM pyMul 1

/-- `TYPES`: the name, and the elements and the bytes of a block. -/
def ggmlTypes : Nat → Option (String × Nat × Nat)
  | 0 => some ("F32", 1, 4)
  | 1 => some ("F16", 1, 2)
  | 2 => some ("Q4_0", 32, 18)
  | 3 => some ("Q4_1", 32, 20)
  | 4 => some ("Q4_2", 32, 18)
  | 5 => some ("Q4_3", 32, 20)
  | 6 => some ("Q5_0", 32, 22)
  | 7 => some ("Q5_1", 32, 24)
  | 8 => some ("Q8_0", 32, 34)
  | 9 => some ("Q8_1", 32, 36)
  | 10 => some ("Q2_K", 256, 84)
  | 11 => some ("Q3_K", 256, 110)
  | 12 => some ("Q4_K", 256, 144)
  | 13 => some ("Q5_K", 256, 176)
  | 14 => some ("Q6_K", 256, 210)
  | 15 => some ("Q8_K", 256, 292)
  | 16 => some ("IQ2_XXS", 256, 66)
  | 17 => some ("IQ2_XS", 256, 74)
  | 18 => some ("IQ3_XXS", 256, 98)
  | 19 => some ("IQ1_S", 256, 50)
  | 20 => some ("IQ4_NL", 32, 18)
  | 21 => some ("IQ3_S", 256, 110)
  | 22 => some ("IQ2_S", 256, 82)
  | 23 => some ("IQ4_XS", 256, 136)
  | 24 => some ("I8", 1, 1)
  | 25 => some ("I16", 1, 2)
  | 26 => some ("I32", 1, 4)
  | 27 => some ("I64", 1, 8)
  | 28 => some ("F64", 1, 8)
  | 29 => some ("IQ1_M", 256, 56)
  | 30 => some ("BF16", 1, 2)
  | _ => none

/-- `tensor_size`: the elements and the payload bytes. -/
def tensorSize (shape : List Nat) (typeId : Nat) : Except PyError (Nat × Option Nat) := do
  let elements ← pyProduct shape
  match ggmlTypes typeId with
  | none => pure (elements, none)
  | some (_, block, bytesPerBlock) =>
      if block = 1 then do
        let size ← pyMul elements bytesPerBlock
        pure (elements, some size)
      else if elements % block ≠ 0 then pure (elements, none)
      else do
        let size ← pyMul (elements / block) bytesPerBlock
        pure (elements, some size)

/-- `Tensor`, with what the manifest reads of it. -/
structure GgufTensor where
  ordinal : Nat
  name : String
  shape : List Nat
  typeId : Nat
  typeName : String
  payloadSize : Option Nat
  absoluteStart : Nat
  layer : Option Nat
  role : String
  group : String
  roleDetail : String

/-- `Artifact`, with the text of its architecture. -/
structure GgufArtifact where
  architecture : String
  tensors : List GgufTensor

/-! ### The order of the rows -/

/-- The tuples that `layout_order` compares; the ranks of a role stand before its text. -/
structure LayoutKey where
  group : Nat
  layer : Int
  ranks : List Nat
  text : String
  ordinal : Nat
  deriving Ord

/-- `sorted`, which is stable. -/
def sortedBy {κ : Type} [Ord κ] (key : GgufTensor → κ) (tensors : List GgufTensor) :
    List GgufTensor :=
  tensors.insertionSort fun a b => (compare (key a) (key b)).isLE = true

section Order

-- `lower` is `str.lower`.
variable (lower : String → String)

/-- `token in text`. -/
def holdsText (text token : String) : Bool := decide (token.toList <:+: text.toList)

/-- The routed experts of a layer. -/
def routedTokens : List String := ["ffn_gate_exps", "ffn_up_exps", "ffn_down_exps"]

/-- The roles in their order. -/
def roleTokens (deepseek : Bool) : List String :=
  if deepseek then
    ["attn_norm", "attn_q", "attn_k", "attn_v", "attn_output", "ffn_norm", "ffn_gate_inp",
      "ffn_exp_probs_b", "ffn_gate_shexp", "ffn_up_shexp", "ffn_down_shexp"] ++ routedTokens ++
      ["ffn_gate", "ffn_up", "ffn_down"]
  else
    ["attn_norm", "attn_q", "attn_k", "attn_v", "attn_output", "ffn_norm", "ffn_gate", "ffn_up",
      "ffn_down"]

/-- `role_key`, without the ordinal. -/
def roleKey (tensor : GgufTensor) (deepseek : Bool) : List Nat × String :=
  let role := lower tensor.roleDetail
  let rank := (roleTokens deepseek).findIdx (holdsText role)
  if deepseek then ([if routedTokens.any (holdsText role) then 1 else 0, rank], role)
  else ([rank], role)

/-- The `key` of `layout_order`. -/
def layoutKey (deepseek roles behind : Bool) (tensor : GgufTensor) : LayoutKey :=
  let inner := if roles then roleKey lower tensor deepseek else ([], tensor.name)
  if tensor.group = "GlobalPre" then ⟨0, -1, inner.1, inner.2, tensor.ordinal⟩
  else if tensor.group = "Layer" then
    ⟨1, (tensor.layer.getD (2 ^ 60) : Nat), inner.1, inner.2, tensor.ordinal⟩
  else if tensor.group = "GlobalPost" then
    ⟨if behind then 3 else 2, 2 ^ 60, [], tensor.name, tensor.ordinal⟩
  else ⟨4, 2 ^ 60, [], tensor.name, tensor.ordinal⟩

/-- `layout_order`. -/
def layoutOrder (tensors : List GgufTensor) (name : String) : Except PyError (List GgufTensor) :=
  match name with
  | "GGUF_SOURCE_ORDER" =>
      .ok (sortedBy (fun tensor =>
        (⟨0, tensor.absoluteStart, [], "", tensor.ordinal⟩ : LayoutKey)) tensors)
  | "NAME_ORDER" => .ok (sortedBy GgufTensor.name tensors)
  | "LAYER_MAJOR" => .ok (sortedBy (layoutKey lower false false false) tensors)
  | "LAYER_MAJOR_ROLE_ORDER" => .ok (sortedBy (layoutKey lower false true false) tensors)
  | "DEEPSEEK_HOT_ROLE_ORDER" => .ok (sortedBy (layoutKey lower true true false) tensors)
  | "PREFIX_FRIENDLY" => .ok (sortedBy (layoutKey lower false true true) tensors)
  | unknown => .error (.valueError ("unknown layout " ++ unknown))

/-- `placement_for_artifact`. -/
def placementForArtifact (artifact : GgufArtifact) : String :=
  if "deepseek".toList <+: artifact.architecture.toList then "DEEPSEEK_HOT_ROLE_ORDER"
  else "LAYER_MAJOR_ROLE_ORDER"

end Order

/-! ### The manifest builder -/

/-- A branch of `expected_bytes` for rows of whole blocks. -/
def rowBytes (block bytesPerBlock : Nat) (label : String) (shape : List Nat) :
    Except PyError Nat := do
  rejectIf (shape = [] ∨ shape.headD 0 % block ≠ 0)
    (.valueError (label ++ " innermost row is not divisible by " ++ toString block))
  let rows ← pyProduct shape.tail
  let blocks ← pyMul rows (shape.headD 0 / block)
  pyMul blocks bytesPerBlock

/-- `expected_bytes`. -/
def expectedBytes (typeName : String) (shape : List Nat) : Except PyError Nat := do
  let elements ← pyProduct shape
  match typeName with
  | "F32" => pyMul elements 4
  | "BF16" => pyMul elements 2
  | "Q8_0" => rowBytes 32 34 "Q8_0" shape
  | "Q4_0" => rowBytes 32 18 "Q4_0" shape
  | "Q2_K" => rowBytes 256 84 "Q2_K" shape
  | "IQ1_S" => rowBytes 256 50 "IQ1_S" shape
  | "Q4_K" | "Q4_K_S" | "Q4_K_M" => rowBytes 256 144 "Q4_K" shape
  | "Q3_K" | "Q3_K_S" | "Q3_K_M" => rowBytes 256 110 "Q3_K" shape
  | "Q5_K" => rowBytes 256 176 "Q5_K" shape
  | "Q6_K" => rowBytes 256 210 "Q6_K" shape
  | "IQ2_XXS" => rowBytes 256 66 "IQ2_XXS" shape
  | "IQ2_XS" => rowBytes 256 74 "IQ2_XS" shape
  | "IQ2_S" => rowBytes 256 84 "IQ2_S" shape
  | "IQ4_NL" => rowBytes 32 18 "IQ4_NL" shape
  | "IQ4_XS" => rowBytes 256 136 "IQ4_XS" shape
  | other => .error (.valueError ("unsupported Step-17 type " ++ other))

/-- `SUPPORTED_TYPES`: the representation and the storage. -/
def supportedTypes : String → Option (String × String)
  | "F32" => some ("CanonicalPrimitive", "primitive")
  | "BF16" => some ("BF16", "opaque_bytes")
  | "Q8_0" => some ("GGML_Q8_0", "opaque_bytes")
  | "Q4_0" => some ("GGML_Q4_0", "opaque_bytes")
  | "Q2_K" | "Q2_K_S" | "Q2_K_M" => some ("GGML_Q2_K", "opaque_bytes")
  | "IQ1_S" => some ("GGML_IQ1_S", "opaque_bytes")
  | "Q4_K" | "Q4_K_S" | "Q4_K_M" => some ("GGML_Q4_K", "opaque_bytes")
  | "Q6_K" => some ("GGML_Q6_K", "opaque_bytes")
  | "IQ4_NL" => some ("GGML_IQ4_NL", "opaque_bytes")
  | "IQ4_XS" => some ("GGML_IQ4_XS", "opaque_bytes")
  | "Q3_K" | "Q3_K_S" | "Q3_K_M" => some ("GGML_Q3_K", "opaque_bytes")
  | "IQ2_XXS" => some ("GGML_IQ2_XXS", "opaque_bytes")
  | "IQ2_XS" => some ("GGML_IQ2_XS", "opaque_bytes")
  | "IQ2_S" => some ("GGML_IQ2_S", "opaque_bytes")
  | "Q5_K" => some ("GGML_Q5_K", "opaque_bytes")
  | _ => none

/-- A row of the manifest. -/
structure ManifestRow where
  sourceName : String
  sourceOrdinal : Nat
  sourceShape : List Nat
  sourceGgmlTypeId : Nat
  sourceGgmlType : String
  sourceOffset : Nat
  sourcePayloadBytes : Nat
  semanticRole : String
  layerGroup : String
  layer : Option Nat
  targetName : String
  targetRepresentation : String
  targetStorage : String
  targetKeyId : Int
  targetOccurrence : Nat
  targetOrder : Nat
  payloadAction : String

/-- A turn of the loop of `tensor_plans`. -/
def planTensor (targetOrder : Nat) (tensor : GgufTensor) : Except PyError ManifestRow := do
  let (representation, storage) ← okOr (supportedTypes tensor.typeName)
    (.valueError ("unsupported source representation: " ++ tensor.name ++ ": " ++ tensor.typeName))
  let expected ← expectedBytes tensor.typeName tensor.shape
  rejectIf (some expected ≠ tensor.payloadSize)
    (.valueError ("representation geometry mismatch: " ++ tensor.name))
  pure
    { sourceName := tensor.name
      sourceOrdinal := tensor.ordinal
      sourceShape := tensor.shape
      sourceGgmlTypeId := tensor.typeId
      sourceGgmlType := tensor.typeName
      sourceOffset := tensor.absoluteStart
      sourcePayloadBytes := expected
      semanticRole := tensor.role
      layerGroup := tensor.group
      layer := tensor.layer
      targetName := tensor.name
      targetRepresentation := representation
      targetStorage := storage
      targetKeyId := tensorKeyId
      targetOccurrence := targetOrder
      targetOrder
      payloadAction := "COPY_BYTES" }

/-- `tensor_plans`; an empty placement is none. -/
def tensorPlans (lower : String → String) (artifact : GgufArtifact) (placement : String) :
    Except PyError (List ManifestRow) := do
  let name := if placement = "" then placementForArtifact artifact else placement
  let ordered ← layoutOrder lower artifact.tensors name
  ordered.zipIdx.mapM fun item => planTensor item.2 item.1

/-! ### The converter -/

/-- The representation that the manifest names for a type. -/
def mappedRepresentation (typeName : String) : Option TensorRepresentation :=
  (supportedTypes typeName).bind fun entry => namedRepresentation entry.1

/-- The payload size of the converter; a canonical element has four bytes. -/
def convertedBytes (representation : TensorRepresentation) (shape : List Nat) :
    Except MlError Nat :=
  match representation with
  | .canonicalPrimitive => do
      let elements ← logicalElements shape
      okOr (checkedMul? elements 4)
        ⟨.representationArithmeticOverflow, "tensor payload size overflows u64"⟩
  | packed => expectedPayloadBytes packed shape

/-! ### What the three agree on -/

/-- A tensor as the parser reads it, of a type and a shape. -/
structure GgufTensor.Parsed (tensor : GgufTensor) (id : Nat) (dimensions : List Nat) : Prop where
  typeId : tensor.typeId = id
  typeName : (ggmlTypes id).map Prod.fst = some tensor.typeName
  shape : tensor.shape = dimensions
  size : ∃ elements, tensorSize dimensions id = .ok (elements, tensor.payloadSize)

/-- The parser reads a tensor of the type and the shape, and the manifest takes it wherever
it stands. -/
structure Accepted (typeId : Nat) (shape : List Nat) : Prop where
  parsed : ∃ size, tensorSize shape typeId = .ok size
  planned : ∀ tensor : GgufTensor, tensor.Parsed typeId shape →
    ∀ targetOrder, ∃ row, planTensor targetOrder tensor = .ok row

/-- The manifest takes a tensor exactly when the converter has a size for it, and then the
three sizes are one. -/
structure SizesAgree (typeId : Nat) (typeName : String) (representation : TensorRepresentation)
    (shape : List Nat) : Prop where
  accepted_iff : Accepted typeId shape ↔ ∃ size, convertedBytes representation shape = .ok size
  equal : ∀ size, convertedBytes representation shape = .ok size →
    tensorSize shape typeId = .ok (shape.prod, some size) ∧
      expectedBytes typeName shape = .ok size

/-! ### Products -/

section Sizes

variable {shape : List Nat} {size block bytesPerBlock : Nat} {label : String}

theorem pyMul_eq_ok_iff {a b : Nat} : pyMul a b = .ok size ↔ a * b < u64Bound ∧ size = a * b := by
  rw [pyMul, okOr_eq_ok_iff, checkedMul?_eq_some_iff]

theorem foldlM_pyMul (shape : List Nat) (start : Nat) :
    shape.foldlM pyMul start =
      okOr (shape.foldlM checkedMul? start) (.valueError "u64 multiplication overflow") := by
  induction shape generalizing start with
  | nil => rfl
  | cons dimension rest ih =>
      rw [List.foldlM_cons, List.foldlM_cons, pyMul]
      cases checkedMul? start dimension with
      | none => rfl
      | some product => exact ih product

theorem pyProduct_eq_ok_iff : pyProduct shape = .ok size ↔ checkedProduct shape = some size := by
  rw [pyProduct, foldlM_pyMul, okOr_eq_ok_iff, checkedProduct]

/-- The first of positive dimensions have no larger product than all of them. -/
theorem not_prefixOverflows (hnonzero : 0 ∉ shape) (hfits : shape.prod < u64Bound) :
    ¬ PrefixOverflows shape := by
  rintro ⟨count, hcount⟩
  have hrest : 0 < (shape.drop count).prod :=
    List.prod_pos_iff_forall_pos_nat.2 fun dimension hmem =>
      Nat.pos_of_ne_zero fun hzero => hnonzero (hzero ▸ List.mem_of_mem_drop hmem)
  have hle : (shape.take count).prod ≤ shape.prod := by
    rw [← List.prod_take_mul_prod_drop shape count]
    exact Nat.le_mul_of_pos_right _ hrest
  omega

/-! ### Rows of whole blocks -/

/-- The branch of `expected_bytes` and the one of `expected_payload_bytes` have one result. -/
theorem rowBytes_eq_ok_iff_quantized (hnonzero : 0 ∉ shape) :
    rowBytes block bytesPerBlock label shape = .ok size ↔
      quantizedPayloadBytes block bytesPerBlock shape = .ok size := by
  cases shape with
  | nil => simp [rowBytes, quantizedPayloadBytes, rejectIf, okOr, bind, Except.bind]
  | cons first rest =>
      have hfirst : first ≠ 0 := fun hzero => hnonzero (hzero ▸ List.mem_cons_self)
      simp only [rowBytes, quantizedPayloadBytes, bind_eq_ok_iff, rejectIf_eq_ok_iff,
        okOr_eq_ok_iff, pyProduct_eq_ok_iff, pyMul_eq_ok_iff, Option.bind_eq_some_iff,
        checkedMul?_eq_some_iff, List.headD_cons, List.head?_cons, List.tail_cons,
        Option.some.injEq, exists_eq_left', reduceCtorEq, false_or, hfirst]

/-- A size of rows of whole blocks is the one of the blocks of the whole shape. -/
theorem whole_of_rowBytes (hnonzero : 0 ∉ shape)
    (h : rowBytes block bytesPerBlock label shape = .ok size) :
    block ∣ shape.prod ∧ 0 < shape.prod / block ∧ size = shape.prod / block * bytesPerBlock ∧
      size < u64Bound := by
  have hsize := quantizedPayloadBytes_eq ((rowBytes_eq_ok_iff_quantized hnonzero).1 h)
  simp only [rowBytes, bind_eq_ok_iff, rejectIf_eq_ok_iff, pyMul_eq_ok_iff, not_or, not_not] at h
  obtain ⟨_, ⟨hne, hmod⟩, rows, -, blocks, ⟨-, rfl⟩, hfits, rfl⟩ := h
  obtain ⟨first, rest, rfl⟩ := List.exists_cons_of_ne_nil hne
  have hdvd : block ∣ first := Nat.dvd_of_mod_eq_zero hmod
  have hwhole : block ∣ (first :: rest).prod := Dvd.dvd.mul_right hdvd rest.prod
  have hpos : 0 < (first :: rest).prod :=
    List.prod_pos_iff_forall_pos_nat.2 fun dimension hmem =>
      Nat.pos_of_ne_zero fun hzero => hnonzero (hzero ▸ hmem)
  refine ⟨hwhole, Nat.div_pos (Nat.le_of_dvd hpos hwhole) ?_, hsize, hfits⟩
  exact Nat.pos_of_dvd_of_pos hwhole hpos

/-- The parser finds the size of whole blocks. -/
theorem tensorSize_eq_ok {typeId : Nat} {typeName : String}
    (htype : ggmlTypes typeId = some (typeName, block, bytesPerBlock))
    (hproduct : checkedProduct shape = some shape.prod) (hdvd : block ∣ shape.prod)
    (hfits : shape.prod / block * bytesPerBlock < u64Bound) :
    tensorSize shape typeId = .ok (shape.prod, some (shape.prod / block * bytesPerBlock)) := by
  have hsize := pyMul_eq_ok_iff.2 ⟨hfits, rfl⟩
  rw [tensorSize, pyProduct_eq_ok_iff.2 hproduct]
  simp only [bind, Except.bind, htype]
  by_cases hone : block = 1
  · subst hone
    rw [Nat.div_one] at hsize ⊢
    rw [if_pos rfl, hsize]
    rfl
  · rw [if_neg hone, if_neg (not_not.2 (Nat.mod_eq_zero_of_dvd hdvd)), hsize]
    rfl

theorem fst_of_tensorSize {typeId elements : Nat} {payload : Option Nat}
    (h : tensorSize shape typeId = .ok (elements, payload)) :
    checkedProduct shape = some elements := by
  obtain ⟨product, hproduct, h⟩ := bind_eq_ok_iff.1 h
  rw [pyProduct_eq_ok_iff] at hproduct
  split at h
  · cases h
    exact hproduct
  · split at h
    · obtain ⟨_, -, h⟩ := bind_eq_ok_iff.1 h
      cases h
      exact hproduct
    · split at h
      · cases h
        exact hproduct
      · obtain ⟨_, -, h⟩ := bind_eq_ok_iff.1 h
        cases h
        exact hproduct

/-! ### The tables -/

variable {typeId : Nat} {typeName : String} {representation : TensorRepresentation}

/-- The bytes of a block in `expected_bytes`: those of the parser, but for one type. -/
def plannedBytes (typeId bytesPerBlock : Nat) : Nat := if typeId = 22 then 84 else bytesPerBlock

/-- Each supported type is named after a representation of the converter. -/
theorem exists_mappedRepresentation (h : (supportedTypes typeName).isSome = true) :
    ∃ representation, mappedRepresentation typeName = some representation := by
  unfold mappedRepresentation supportedTypes at *
  split at h <;> first | exact ⟨_, rfl⟩ | cases h

/-- The three tables name one format for each type, but for the bytes of a block of one type. -/
theorem tables_agree (htype : ggmlTypes typeId = some (typeName, block, bytesPerBlock))
    (hmapped : mappedRepresentation typeName = some representation) :
    (typeId ≠ 22 ∧ block = 1 ∧
      (∀ shape, expectedBytes typeName shape = do
        let elements ← pyProduct shape
        pyMul elements bytesPerBlock) ∧
      ∀ shape, convertedBytes representation shape = do
        let elements ← logicalElements shape
        okOr (checkedMul? elements bytesPerBlock) ⟨.representationArithmeticOverflow,
          if typeId = 0 then "tensor payload size overflows u64"
          else "BF16 payload size overflows u64"⟩) ∨
    ((∃ label, ∀ shape, expectedBytes typeName shape = do
        let _ ← pyProduct shape
        rowBytes block (plannedBytes typeId bytesPerBlock) label shape) ∧
      (typeId = 22 → block = 256 ∧ bytesPerBlock = 82) ∧
      ∀ shape, convertedBytes representation shape = do
        let _ ← logicalElements shape
        quantizedPayloadBytes block bytesPerBlock shape) := by
  unfold ggmlTypes at htype
  split at htype <;> cases htype
  -- A type that the manifest does not support has no representation.
  all_goals first
    | exact absurd hmapped.symm (Option.some_ne_none _)
    | obtain rfl := Option.some.inj hmapped
  all_goals first
    | exact Or.inr ⟨⟨_, fun _ => rfl⟩, by decide, fun _ => rfl⟩
    | exact Or.inl ⟨by decide, rfl, fun _ => rfl, fun _ => rfl⟩

/-! ### What is accepted -/

/-- The builder computes the size of the tensor that the parser has found. -/
structure GgufTensor.Fits (tensor : GgufTensor) : Prop where
  supported : (supportedTypes tensor.typeName).isSome = true
  sized : ∃ size, expectedBytes tensor.typeName tensor.shape = .ok size ∧
    tensor.payloadSize = some size

/-- Whether a tensor gets a row does not depend on its place. -/
theorem planTensor_ok_iff {tensor : GgufTensor} {targetOrder : Nat} :
    (∃ row, planTensor targetOrder tensor = .ok row) ↔ tensor.Fits := by
  simp only [planTensor, bind_eq_ok_iff, okOr_eq_ok_iff, rejectIf_eq_ok_iff, not_not]
  constructor
  · rintro ⟨row, _, hentry, size, hsize, _, hpayload, -⟩
    exact ⟨Option.isSome_iff_exists.2 ⟨_, hentry⟩, size, hsize, hpayload.symm⟩
  · rintro ⟨hsupported, size, hsize, hpayload⟩
    obtain ⟨_, hentry⟩ := Option.isSome_iff_exists.1 hsupported
    exact ⟨_, _, hentry, size, hsize, (), hpayload.symm, rfl⟩

/-- A tensor is accepted when the parser and the manifest have one size for it. -/
theorem accepted_iff (htype : ggmlTypes typeId = some (typeName, block, bytesPerBlock))
    (hmapped : mappedRepresentation typeName = some representation) :
    Accepted typeId shape ↔
      ∃ size, tensorSize shape typeId = .ok (shape.prod, some size) ∧
        expectedBytes typeName shape = .ok size := by
  obtain ⟨entry, hentry, -⟩ := Option.bind_eq_some_iff.1 hmapped
  have hsupported : (supportedTypes typeName).isSome = true := Option.isSome_iff_exists.2 ⟨_, hentry⟩
  constructor
  · rintro ⟨⟨⟨elements, payload⟩, hparsed⟩, hplanned⟩
    obtain ⟨_, hrow⟩ := hplanned
      { ordinal := 0, name := "", shape, typeId, typeName, payloadSize := payload,
        absoluteStart := 0, layer := none, role := "", group := "", roleDetail := "" }
      ⟨rfl, by rw [htype]; rfl, rfl, elements, hparsed⟩ 0
    obtain ⟨-, size, hexpected, rfl⟩ := planTensor_ok_iff.1 ⟨_, hrow⟩
    rw [checkedProduct_eq (fst_of_tensorSize hparsed)] at hparsed
    exact ⟨size, hparsed, hexpected⟩
  · rintro ⟨size, hparsed, hexpected⟩
    refine ⟨⟨_, hparsed⟩, ?_⟩
    rintro tensor ⟨-, hname, hshape, elements, hsize⟩ targetOrder
    rw [hparsed, Except.ok.injEq, Prod.mk.injEq] at hsize
    rw [htype, Option.map_some, Option.some.injEq] at hname
    refine planTensor_ok_iff.2 ⟨?_, size, ?_, hsize.2.symm⟩
    · rw [← hname]
      exact hsupported
    · rw [← hname, hshape]
      exact hexpected

/-- Where the manifest and the converter have one size, the parser has it too. -/
theorem sizesAgree_of_iff (htype : ggmlTypes typeId = some (typeName, block, bytesPerBlock))
    (hmapped : mappedRepresentation typeName = some representation)
    (hboth : ∀ size, convertedBytes representation shape = .ok size ↔
      expectedBytes typeName shape = .ok size)
    (hparser : ∀ size, expectedBytes typeName shape = .ok size →
      tensorSize shape typeId = .ok (shape.prod, some size)) :
    SizesAgree typeId typeName representation shape := by
  constructor
  · rw [accepted_iff htype hmapped]
    constructor
    · rintro ⟨size, -, hexpected⟩
      exact ⟨size, (hboth size).2 hexpected⟩
    · rintro ⟨size, hconverted⟩
      have hexpected := (hboth size).1 hconverted
      exact ⟨size, hparser size hexpected, hexpected⟩
  · intro size hconverted
    have hexpected := (hboth size).1 hconverted
    exact ⟨hparser size hexpected, hexpected⟩

/-- The type whose block has two sizes is never accepted. -/
theorem not_accepted (htype : ggmlTypes 22 = some (typeName, 256, 82)) (hnonzero : 0 ∉ shape)
    (hmapped : mappedRepresentation typeName = some representation)
    (hexpects : ∀ shape, expectedBytes typeName shape = do
      let _ ← pyProduct shape
      rowBytes 256 84 label shape) : ¬ Accepted 22 shape := by
  rw [accepted_iff htype hmapped]
  rintro ⟨size, hparsed, hexpected⟩
  rw [hexpects, bind_eq_ok_iff] at hexpected
  obtain ⟨_, -, hrows⟩ := hexpected
  obtain ⟨hdvd, hblocks, hsize, hfits⟩ := whole_of_rowBytes hnonzero hrows
  have hproduct := fst_of_tensorSize hparsed
  have hfound := tensorSize_eq_ok htype hproduct hdvd (by omega)
  rw [hparsed, Except.ok.injEq, Prod.mk.injEq, Option.some.injEq] at hfound
  -- A block of 84 bytes in the manifest has 82 in the parser, and there is a block.
  omega

/-- The converter has a size for rows of whole blocks whose elements fit. -/
theorem quantized_ok_iff (hbytes : 0 < bytesPerBlock) (hle : bytesPerBlock ≤ block)
    (hnonzero : 0 ∉ shape) :
    (∃ size, (do
      let _ ← logicalElements shape
      quantizedPayloadBytes block bytesPerBlock shape) = .ok size) ↔
      shape ≠ [] ∧ block ∣ shape.headD 0 ∧ shape.prod < u64Bound := by
  simp only [bind_eq_ok_iff, logicalElements_eq_ok_iff]
  constructor
  · rintro ⟨size, elements, helements, h⟩
    have hfits := foldlM_checkedMul_lt (by decide) helements
    rw [checkedProduct_eq helements] at hfits
    simp only [quantizedPayloadBytes, bind_eq_ok_iff, okOr_eq_ok_iff, rejectIf_eq_ok_iff, not_or,
      not_not] at h
    obtain ⟨rowWidth, hhead, _, ⟨-, hmod⟩, -⟩ := h
    obtain ⟨rest, rfl⟩ := List.head?_eq_some_iff.1 hhead
    exact ⟨List.cons_ne_nil _ _, Nat.dvd_of_mod_eq_zero hmod, hfits⟩
  · rintro ⟨hne, hdvd, hfits⟩
    have hproducts := not_prefixOverflows hnonzero hfits
    obtain ⟨first, rest, rfl⟩ := List.exists_cons_of_ne_nil hne
    have hfirst : first ≠ 0 := fun hzero => hnonzero (hzero ▸ List.mem_cons_self)
    have hsmaller : (first :: rest).prod / block * bytesPerBlock ≤ (first :: rest).prod :=
      (Nat.mul_le_mul_left _ hle).trans (Nat.div_mul_le_self _ _)
    exact ⟨_, _, checkedProduct_complete hproducts,
      quantizedPayloadBytes_complete hbytes ⟨first, rfl, hfirst, hdvd⟩ hproducts (by omega)⟩

/-- A type without blocks has one size in all three. -/
theorem sizesAgree_of_elements {error : MlError}
    (htype : ggmlTypes typeId = some (typeName, 1, bytesPerBlock))
    (hmapped : mappedRepresentation typeName = some representation)
    (hexpects : ∀ shape, expectedBytes typeName shape = do
      let elements ← pyProduct shape
      pyMul elements bytesPerBlock)
    (hconverts : ∀ shape, convertedBytes representation shape = do
      let elements ← logicalElements shape
      okOr (checkedMul? elements bytesPerBlock) error) :
    SizesAgree typeId typeName representation shape := by
  refine sizesAgree_of_iff htype hmapped ?_ ?_
  · intro size
    rw [hexpects, hconverts, bind_eq_ok_iff, bind_eq_ok_iff]
    simp only [logicalElements_eq_ok_iff, pyProduct_eq_ok_iff, okOr_eq_ok_iff, pyMul]
  · intro size hsize
    rw [hexpects, bind_eq_ok_iff] at hsize
    obtain ⟨elements, helements, hsize⟩ := hsize
    obtain ⟨hfits, rfl⟩ := pyMul_eq_ok_iff.1 hsize
    rw [pyProduct_eq_ok_iff] at helements
    have hproduct := checkedProduct_eq helements
    subst hproduct
    have hparsed := tensorSize_eq_ok htype helements (Nat.one_dvd _) (by rwa [Nat.div_one])
    rwa [Nat.div_one] at hparsed

/-- A type of blocks has one size where the manifest has the block of the parser. -/
theorem sizesAgree_of_rows (htype : ggmlTypes typeId = some (typeName, block, bytesPerBlock))
    (hmapped : mappedRepresentation typeName = some representation) (hnonzero : 0 ∉ shape)
    (hexpects : ∀ shape, expectedBytes typeName shape = do
      let _ ← pyProduct shape
      rowBytes block bytesPerBlock label shape)
    (hconverts : ∀ shape, convertedBytes representation shape = do
      let _ ← logicalElements shape
      quantizedPayloadBytes block bytesPerBlock shape) :
    SizesAgree typeId typeName representation shape := by
  refine sizesAgree_of_iff htype hmapped ?_ ?_
  · intro size
    rw [hexpects, hconverts, bind_eq_ok_iff, bind_eq_ok_iff]
    simp only [logicalElements_eq_ok_iff, pyProduct_eq_ok_iff,
      rowBytes_eq_ok_iff_quantized hnonzero]
  · intro size hsize
    rw [hexpects, bind_eq_ok_iff] at hsize
    obtain ⟨elements, helements, hrows⟩ := hsize
    obtain ⟨hdvd, -, rfl, hfits⟩ := whole_of_rowBytes hnonzero hrows
    rw [pyProduct_eq_ok_iff] at helements
    have hproduct := checkedProduct_eq helements
    subst hproduct
    exact tensorSize_eq_ok htype helements hdvd hfits

/-- On the type that is never accepted the three agree where the converter has no size. -/
theorem sizesAgree_iff_undefined (htype : ggmlTypes 22 = some (typeName, 256, 82))
    (hmapped : mappedRepresentation typeName = some representation) (hnonzero : 0 ∉ shape)
    (hexpects : ∀ shape, expectedBytes typeName shape = do
      let _ ← pyProduct shape
      rowBytes 256 84 label shape)
    (hconverts : ∀ shape, convertedBytes representation shape = do
      let _ ← logicalElements shape
      quantizedPayloadBytes 256 82 shape) :
    SizesAgree 22 typeName representation shape ↔
      shape = [] ∨ ¬ 256 ∣ shape.headD 0 ∨ 2 ^ 64 ≤ shape.prod := by
  have hnever := not_accepted htype hnonzero hmapped hexpects
  have hdefined := @quantized_ok_iff shape 256 82 (by decide) (by decide) hnonzero
  rw [← hconverts] at hdefined
  constructor
  · intro hagree
    by_contra hnone
    rw [not_or, not_or, not_not, Nat.not_le] at hnone
    exact hnever (hagree.accepted_iff.2 (hdefined.2 hnone))
  · intro hnone
    have hundefined : ¬ ∃ size, convertedBytes representation shape = .ok size := by
      rw [hdefined]
      rintro ⟨hne, hdvd, hfits⟩
      rcases hnone with hnil | hmod | hlarge
      · exact hne hnil
      · exact hmod hdvd
      · exact Nat.not_lt.2 hlarge hfits
    exact ⟨iff_of_false hnever hundefined, fun size hsize => absurd ⟨size, hsize⟩ hundefined⟩

end Sizes

/-! ### The whole manifest -/

theorem sortedBy_perm {κ : Type} [Ord κ] (key : GgufTensor → κ) (tensors : List GgufTensor) :
    (sortedBy key tensors).Perm tensors := List.perm_insertionSort _ _

theorem layoutOrder_perm {lower : String → String} {tensors ordered : List GgufTensor}
    {name : String} (h : layoutOrder lower tensors name = .ok ordered) : ordered.Perm tensors := by
  unfold layoutOrder at h
  split at h <;> cases h
  all_goals exact sortedBy_perm _ _

/-- A manifest has its rows exactly when each of its tensors gets one. -/
theorem tensorPlans_ok_iff {lower : String → String} {artifact : GgufArtifact} {placement : String}
    {ordered : List GgufTensor}
    (hordered : layoutOrder lower artifact.tensors
      (if placement = "" then placementForArtifact artifact else placement) = .ok ordered) :
    (∃ rows, tensorPlans lower artifact placement = .ok rows) ↔
      ∀ tensor ∈ artifact.tensors, tensor.Fits := by
  have hperm := layoutOrder_perm hordered
  simp only [tensorPlans, hordered, bind, Except.bind]
  constructor
  · rintro ⟨rows, hrows⟩ tensor hmem
    obtain ⟨index, hindex⟩ := List.mem_iff_getElem?.1 (hperm.mem_iff.2 hmem)
    have hitem : (tensor, index) ∈ ordered.zipIdx := List.mem_zipIdx_iff_getElem?.2 hindex
    obtain ⟨row, -, hrow⟩ := exists_of_mem_left (mapM_eq_ok_iff.1 hrows) hitem
    exact planTensor_ok_iff.1 ⟨row, hrow⟩
  · intro hfits
    refine mapM_eq_ok_of_forall ?_
    intro item hitem
    have hmem : item.1 ∈ ordered := List.fst_mem_of_mem_zipIdx hitem
    exact planTensor_ok_iff.2 (hfits item.1 (hperm.mem_iff.1 hmem))

/-- The parser, the manifest and the converter agree on each supported type and each shape of
positive dimensions, except where the converter has a size for the type 22; and a manifest
takes all its tensors exactly when it takes each of them. -/
theorem tensorPlans_agree_iff {typeId block bytesPerBlock : Nat} {typeName : String}
    {shape : List Nat} (htype : ggmlTypes typeId = some (typeName, block, bytesPerBlock))
    (hsupported : (supportedTypes typeName).isSome = true) (hnonzero : 0 ∉ shape) :
    (∃ representation, mappedRepresentation typeName = some representation ∧
      (SizesAgree typeId typeName representation shape ↔
        typeId ≠ 22 ∨ shape = [] ∨ ¬ 256 ∣ shape.headD 0 ∨ 2 ^ 64 ≤ shape.prod)) ∧
    ∀ lower artifact placement ordered,
      layoutOrder lower artifact.tensors
        (if placement = "" then placementForArtifact artifact else placement) = .ok ordered →
      ((∃ rows, tensorPlans lower artifact placement = .ok rows) ↔
        ∀ tensor ∈ artifact.tensors, ∀ targetOrder, ∃ row,
      planTensor targetOrder tensor = .ok row) := by
  constructor
  · obtain ⟨representation, hmapped⟩ := exists_mappedRepresentation hsupported
    refine ⟨representation, hmapped, ?_⟩
    rcases tables_agree htype hmapped with
      ⟨hother, rfl, hexpects, hconverts⟩ | ⟨⟨label, hexpects⟩, hsame, hconverts⟩
    · exact iff_of_true (sizesAgree_of_elements htype hmapped hexpects hconverts) (Or.inl hother)
    · by_cases hspecial : typeId = 22
      · subst hspecial
        obtain ⟨rfl, rfl⟩ := hsame rfl
        rw [sizesAgree_iff_undefined htype hmapped hnonzero hexpects hconverts]
        exact (or_iff_right fun hne => hne rfl).symm
      · rw [plannedBytes, if_neg hspecial] at hexpects
        exact iff_of_true (sizesAgree_of_rows htype hmapped hnonzero hexpects hconverts)
          (Or.inl hspecial)
  · intro lower artifact placement ordered hordered
    rw [tensorPlans_ok_iff hordered]
    refine forall₂_congr fun tensor _ => ?_
    exact ⟨fun hfits _ => planTensor_ok_iff.2 hfits, fun hrow => planTensor_ok_iff.1 (hrow 0)⟩

/-! ### One block of each kind -/

theorem tensorPlans_agree_iff_q8Block :
    ∃ representation, mappedRepresentation "Q8_0" = some representation ∧
      SizesAgree 8 "Q8_0" representation [32] := by
  obtain ⟨representation, hmapped, hagree⟩ :=
    (@tensorPlans_agree_iff 8 32 34 "Q8_0" [32] rfl rfl (by decide)).1
  exact ⟨representation, hmapped, hagree.2 (Or.inl (by decide))⟩

/-- The parser and the converter give 82 bytes to a block of the type 22, the manifest 84. -/
theorem iq2S_sizes_differ :
    ggmlTypes 22 = some ("IQ2_S", 256, 82) ∧ mappedRepresentation "IQ2_S" = some .ggmlIQ2_S ∧
      tensorSize [256] 22 = .ok (256, some 82) ∧ expectedBytes "IQ2_S" [256] = .ok 84 ∧
      convertedBytes .ggmlIQ2_S [256] = .ok 82 ∧ ¬ SizesAgree 22 "IQ2_S" .ggmlIQ2_S [256] := by
  have hexpected : expectedBytes "IQ2_S" [256] = .ok 84 := rfl
  have hconverted : convertedBytes .ggmlIQ2_S [256] = .ok 82 := rfl
  refine ⟨rfl, rfl, rfl, hexpected, hconverted, ?_⟩
  intro hagree
  have hsame := (hagree.equal 82 hconverted).2
  rw [hexpected] at hsame
  cases hsame

end VBuf.Convert
