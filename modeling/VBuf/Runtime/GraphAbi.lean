import VBuf.Lib.Utf8
import VBuf.Runtime.LoweringExact

/-!
# The C interface of lowered graphs

A program and a region come in as descriptors with small integer codes, are lowered,
and go out as descriptors of the same codes.  A pointer is the memory behind it, or
none when it is null; reserved bytes that nothing reads are left out.
-/

namespace VBuf.Runtime.GraphAbi

open VBuf.Lib

/-! ### Descriptors -/

/-- The codes `VBUF_FFI_*` of failures. -/
inductive FfiError
  | invalidArgument
  | invalidUtf8
  | invalidGraph
  | unsupported
  | missingBinding
  | invalidAttributes
  | missingState
  deriving DecidableEq, Repr

/-- `VbufFfiBytes` of a caller, who keeps `len` bytes readable. -/
structure VbufFfiBytes where
  len : UInt64
  ptr : Option (List UInt8)
  readable : ∀ bytes ∈ ptr, bytes.length = len.toNat

/-- A pointer and a count of a caller, who keeps that many items readable. -/
structure FfiArray (α : Type) where
  count : UInt32
  ptr : Option (List α)
  readable : ∀ items ∈ ptr, items.length = count.toNat

structure VbufPortableBindingDesc where
  semantic : VbufFfiBytes
  tensorId : UInt32

structure VbufPortableInputDesc where
  kind : UInt8
  id : UInt32
  semantic : VbufFfiBytes

/-- `VbufPortableOperationDesc`; the first reserved byte is the activation. -/
structure VbufPortableOperationDesc (F : Type) where
  kind : UInt32
  id : VbufFfiBytes
  inputs : FfiArray VbufPortableInputDesc
  output : UInt32
  hasEpsilon : UInt8
  matmulWeightOperand : UInt8
  matmulTransposeWeight : UInt8
  topKOrder : UInt8
  topKTieBreak : UInt8
  reserved : UInt8
  epsilon : F
  hasTopK : UInt8
  topK : UInt32

structure VbufAttentionDesc (F : Type) where
  batchSize : UInt64
  queryHeadCount : UInt64
  kvHeadCount : UInt64
  headDim : UInt64
  queryLength : UInt64
  currentKvLength : UInt64
  scale : F
  maskKind : UInt8
  positionKind : UInt8
  stateId : UInt32

structure VbufPortableOperationDescV2 (F : Type) where
  base : VbufPortableOperationDesc F
  attention : VbufAttentionDesc F

structure VbufPortableProgramDesc where
  bindings : FfiArray VbufPortableBindingDesc

structure VbufPortableRegionDescV2 (F : Type) where
  input : UInt32
  output : UInt32
  operations : FfiArray (VbufPortableOperationDescV2 F)

/-- `VbufFfiBytes` of a text that the handle owns. -/
structure OwnedBytes where
  len : UInt64
  ptr : List UInt8
  deriving DecidableEq, Repr

structure VbufGraphTensorDesc where
  tensorId : UInt32
  semantic : OwnedBytes
  deriving DecidableEq, Repr

structure VbufGraphInputDesc where
  kind : UInt8
  id : UInt32
  deriving DecidableEq, Repr

structure VbufGraphOperationDesc (F : Type) where
  kind : UInt32
  id : OwnedBytes
  inputs : List VbufGraphInputDesc
  inputCount : UInt32
  output : UInt32
  hasEpsilon : UInt8
  matmulWeightOperand : UInt8
  matmulTransposeWeight : UInt8
  topKOrder : UInt8
  topKTieBreak : UInt8
  reserved : UInt8
  epsilon : F
  hasTopK : UInt8
  topK : UInt32

structure VbufGraphOperationDescV2 (F : Type) where
  base : VbufGraphOperationDesc F
  attention : VbufAttentionDesc F

/-- `VbufRuntimeGraphHandle`. -/
structure VbufRuntimeGraphHandle (F : Type) where
  graph : ExecutionGraph F
  inputs : List (List VbufGraphInputDesc)
  deriving DecidableEq

/-! ### Import -/

/-- `bytes`. -/
def VbufFfiBytes.bytes (value : VbufFfiBytes) : Except FfiError (List UInt8) :=
  if value.len = 0 then .ok [] else okOr value.ptr .invalidArgument

/-- `text`. -/
def VbufFfiBytes.text (value : VbufFfiBytes) : Except FfiError String := do
  let bytes ← value.bytes
  okOr (fromUtf8 bytes) .invalidUtf8

/-- The items of an array; without items the pointer is not looked at. -/
def FfiArray.items {α : Type} (array : FfiArray α) : Except FfiError (List α) :=
  if array.count = 0 then .ok [] else okOr array.ptr .invalidArgument

/-- `input`. -/
def input (value : VbufPortableInputDesc) : Except FfiError PortableInput :=
  match value.kind with
  | 0 => .ok (.value value.id)
  | 1 => do
      let semantic ← value.semantic.text
      .ok (.tensor semantic)
  | _ => .error .invalidGraph

/-- The kinds that `operation` knows. -/
def operationKind : UInt32 → Except FfiError PortableOperationKind
  | 1 => .ok .rmsNorm
  | 2 => .ok .matMul
  | 3 => .ok .activation
  | 4 => .ok .topK
  | 5 => .ok .indexedMatMul
  | 6 => .ok .attention
  | 7 => .ok .residualAdd
  | _ => .error .unsupported

def weightOperand : UInt8 → Except FfiError (Option MatMulWeightOperand)
  | 0 => .ok none
  | 1 => .ok (some .lhs)
  | 2 => .ok (some .rhs)
  | _ => .error .invalidGraph

def activationOf : UInt8 → Except FfiError (Option ActivationKind)
  | 0 => .ok none
  | 1 => .ok (some .silu)
  | _ => .error .invalidAttributes

def topKOrderOf : UInt8 → Except FfiError (Option TopKOrder)
  | 0 => .ok none
  | 1 => .ok (some .descending)
  | _ => .error .invalidGraph

def topKTieBreakOf : UInt8 → Except FfiError (Option TopKTieBreak)
  | 0 => .ok none
  | 1 => .ok (some .lowerIndex)
  | _ => .error .invalidGraph

def transposeOf : UInt8 → Except FfiError (Option Bool)
  | 0 => .ok none
  | 1 => .ok (some false)
  | 2 => .ok (some true)
  | _ => .error .invalidGraph

def maskOf : UInt8 → Except FfiError AttentionMaskKind
  | 0 => .ok .none
  | 1 => .ok .causal
  | _ => .error .invalidAttributes

/-- The one position kind. -/
def positionOf : UInt8 → Except FfiError Unit
  | 1 => .ok ()
  | _ => .error .invalidAttributes

section Import

variable {F : Type}

/-- `operation`. -/
def operation (value : VbufPortableOperationDesc F) : Except FfiError (PortableOperation F) := do
  let kind ← operationKind value.kind
  let descriptors ← value.inputs.items
  let inputs ← descriptors.mapM input
  let matmulWeightOperand ← weightOperand value.matmulWeightOperand
  let activation ← activationOf value.reserved
  let topKOrder ← topKOrderOf value.topKOrder
  let topKTieBreak ← topKTieBreakOf value.topKTieBreak
  let id ← value.id.text
  let matmulTransposeWeight ← transposeOf value.matmulTransposeWeight
  .ok
    { id
      kind
      inputs
      output := value.output
      attributes :=
        { epsilon := if value.hasEpsilon ≠ 0 then some value.epsilon else none
          activation
          topK := if value.hasTopK ≠ 0 then some value.topK else none
          matmulWeightOperand
          matmulTransposeWeight
          topKOrder
          topKTieBreak } }

/-- `attention`. -/
def attention (value : VbufAttentionDesc F) : Except FfiError (AttentionAttributes F) := do
  let mask ← maskOf value.maskKind
  positionOf value.positionKind
  .ok
    { batchSize := value.batchSize
      queryHeadCount := value.queryHeadCount
      kvHeadCount := value.kvHeadCount
      headDim := value.headDim
      queryLength := value.queryLength
      currentKvLength := value.currentKvLength
      scale := value.scale
      mask
      state := value.stateId }

/-- The attention attributes of `operation_v2`, which only the kind 6 has. -/
def attentionOf (value : VbufPortableOperationDescV2 F) :
    Except FfiError (Option (AttentionAttributes F)) :=
  if value.base.kind = 6 then (attention value.attention).map some else .ok none

/-- `operation_v2`. -/
def operationV2 (value : VbufPortableOperationDescV2 F) :
    Except FfiError (PortableOperation F) := do
  let operation ← operation value.base
  let attention ← attentionOf value
  .ok { operation with attributes := { operation.attributes with attention } }

def bindingOf (value : VbufPortableBindingDesc) : Except FfiError TensorBinding := do
  let semantic ← value.semantic.text
  .ok ⟨semantic, value.tensorId⟩

/-- The code of a lowering error. -/
def loweringCode : LoweringError → FfiError
  | .missingBinding _ => .missingBinding
  | .missingState _ => .missingState
  | .invalidAttribute _ => .invalidAttributes
  | .unsupportedOperation _ => .unsupported
  | .duplicateBinding _ => .invalidGraph

/-- The state of an attention operation. -/
def stateRefOf (operation : PortableOperation F) : Option StateRef :=
  operation.attributes.attention.map fun attention => ⟨attention.state, "kv", "request", "attention"⟩

def graphInput : InputRef → VbufGraphInputDesc
  | .value id => ⟨0, id⟩
  | .tensor id => ⟨1, id⟩

variable [Field F] [LinearOrder F] (math : ExactMath F)

/-- `lower_operations`. -/
def lowerOperations (program : VbufPortableProgramDesc) (input output : UInt32)
    (operations : List (PortableOperation F)) : Except FfiError (VbufRuntimeGraphHandle F) := do
  let descriptors ← program.bindings.items
  let bindings ← descriptors.mapM bindingOf
  let graph ← mapErr loweringCode
    (lowerRegion math ⟨bindings, operations.filterMap stateRefOf⟩
      ⟨"ffi.region", input, output, operations⟩)
  .ok ⟨graph, graph.operations.map fun operation => operation.inputs.map graphInput⟩

/-- `vbuf_runtime_graph_lower_v2`. -/
def graphLowerV2 (program : VbufPortableProgramDesc) (region : VbufPortableRegionDescV2 F) :
    Except FfiError (VbufRuntimeGraphHandle F) := do
  let descriptors ← region.operations.items
  let operations ← descriptors.mapM operationV2
  lowerOperations math program region.input region.output operations

end Import

/-! ### Export -/

section Export

variable {F : Type}

/-- `vbuf_runtime_graph_operation_count`. -/
def operationCount (handle : VbufRuntimeGraphHandle F) : UInt32 :=
  UInt32.ofNat handle.graph.operations.length

/-- The bytes of a string that the handle owns. -/
def ownedBytes (text : String) : OwnedBytes := ⟨UInt64.ofNat (utf8 text).length, utf8 text⟩

/-- `vbuf_runtime_graph_tensor_desc`. -/
def tensorDesc (handle : VbufRuntimeGraphHandle F) (index : UInt32) :
    Except FfiError VbufGraphTensorDesc := do
  let tensor ← okOr handle.graph.tensors[index.toNat]? .invalidArgument
  .ok ⟨tensor.id, ownedBytes tensor.name⟩

/-- The code of a kind, 0 for those that are not exported. -/
def kindCode : OperationKind → UInt32
  | .rmsNorm => 1
  | .matMul => 2
  | .activation => 3
  | .topKRouter => 4
  | .expertDispatch => 5
  | .attention => 6
  | .residualAdd => 7
  | _ => 0

def operandCode : Option MatMulWeightOperand → UInt8
  | some .lhs => 1
  | some .rhs => 2
  | none => 0

def transposeCode : Option Bool → UInt8
  | some false => 1
  | some true => 2
  | none => 0

/-- The code of an option whose only value has the code 1. -/
def presentCode {α : Type} (value : Option α) : UInt8 := if value.isSome then 1 else 0

def maskCode : AttentionMaskKind → UInt8
  | .none => 0
  | .causal => 1

variable [Zero F]

/-- `vbuf_runtime_graph_operation_desc`. -/
def operationDesc (handle : VbufRuntimeGraphHandle F) (index : UInt32) :
    Except FfiError (VbufGraphOperationDesc F) := do
  let operation ← okOr handle.graph.operations[index.toNat]? .invalidArgument
  rejectIf (kindCode operation.kind = 0) .unsupported
  let inputs := handle.inputs.getD index.toNat []
  .ok
    { kind := kindCode operation.kind
      id := ownedBytes operation.id
      inputs
      inputCount := UInt32.ofNat inputs.length
      output := operation.output
      hasEpsilon := presentCode operation.attributes.epsilon
      matmulWeightOperand := operandCode operation.attributes.matmulWeightOperand
      matmulTransposeWeight := transposeCode operation.attributes.matmulTransposeWeight
      topKOrder := presentCode operation.attributes.topKOrder
      topKTieBreak := presentCode operation.attributes.topKTieBreak
      reserved := presentCode operation.attributes.activation
      epsilon := operation.attributes.epsilon.getD 0
      hasTopK := presentCode operation.attributes.topK
      topK := operation.attributes.topK.getD 0 }

/-- The attention descriptor of an operation without attention. -/
def zeroAttention : VbufAttentionDesc F := ⟨0, 0, 0, 0, 0, 0, 0, 0, 0, 0⟩

def attentionDesc : Option (AttentionAttributes F) → VbufAttentionDesc F
  | none => zeroAttention
  | some attention =>
      { batchSize := attention.batchSize
        queryHeadCount := attention.queryHeadCount
        kvHeadCount := attention.kvHeadCount
        headDim := attention.headDim
        queryLength := attention.queryLength
        currentKvLength := attention.currentKvLength
        scale := attention.scale
        maskKind := maskCode attention.mask
        positionKind := 1
        stateId := attention.state }

/-- `vbuf_runtime_graph_operation_desc_v2`. -/
def operationDescV2 (handle : VbufRuntimeGraphHandle F) (index : UInt32) :
    Except FfiError (VbufGraphOperationDescV2 F) := do
  let base ← operationDesc handle index
  let operation ← okOr handle.graph.operations[index.toNat]? .invalidArgument
  .ok ⟨base, attentionDesc operation.attributes.attention⟩

end Export

/-! ### Codes -/

theorem kindCode_lowered {code : UInt32} {kind : PortableOperationKind}
    (h : operationKind code = .ok kind) : kindCode kind.lowered = code ∧ code ≠ 0 := by
  unfold operationKind at h
  split at h <;> cases h <;> exact ⟨rfl, by decide⟩

theorem operandCode_of_ok {code : UInt8} {value : Option MatMulWeightOperand}
    (h : weightOperand code = .ok value) : operandCode value = code := by
  unfold weightOperand at h
  split at h <;> cases h <;> rfl

theorem transposeCode_of_ok {code : UInt8} {value : Option Bool}
    (h : transposeOf code = .ok value) : transposeCode value = code := by
  unfold transposeOf at h
  split at h <;> cases h <;> rfl

theorem activationCode_of_ok {code : UInt8} {value : Option ActivationKind}
    (h : activationOf code = .ok value) : presentCode value = code := by
  unfold activationOf at h
  split at h <;> cases h <;> rfl

theorem orderCode_of_ok {code : UInt8} {value : Option TopKOrder}
    (h : topKOrderOf code = .ok value) : presentCode value = code := by
  unfold topKOrderOf at h
  split at h <;> cases h <;> rfl

theorem tieBreakCode_of_ok {code : UInt8} {value : Option TopKTieBreak}
    (h : topKTieBreakOf code = .ok value) : presentCode value = code := by
  unfold topKTieBreakOf at h
  split at h <;> cases h <;> rfl

theorem maskCode_of_ok {code : UInt8} {value : AttentionMaskKind}
    (h : maskOf code = .ok value) : maskCode value = code := by
  unfold maskOf at h
  split at h <;> cases h <;> rfl

theorem positionCode_of_ok {code : UInt8} (h : positionOf code = .ok ()) : code = 1 := by
  unfold positionOf at h
  split at h
  · rfl
  · cases h

/-- An attention descriptor goes out as it came in. -/
theorem attentionDesc_of_ok {F : Type} [Zero F] {value : VbufAttentionDesc F}
    {attributes : AttentionAttributes F} (h : attention value = .ok attributes) :
    attentionDesc (some attributes) = value := by
  obtain ⟨mask, hmask, h⟩ := bind_eq_ok_iff.1 h
  obtain ⟨_, hposition, h⟩ := bind_eq_ok_iff.1 h
  cases h
  rw [attentionDesc, maskCode_of_ok hmask, ← positionCode_of_ok hposition]

/-! ### Texts and arrays -/

/-- A text that is read is as long as its descriptor says. -/
theorem bytes_length {value : VbufFfiBytes} {bytes : List UInt8} (h : value.bytes = .ok bytes) :
    bytes.length = value.len.toNat := by
  unfold VbufFfiBytes.bytes at h
  split at h
  next hzero =>
    cases h
    rw [hzero]
    rfl
  next => exact value.readable bytes (okOr_eq_ok_iff.1 h)

theorem items_length {α : Type} {array : FfiArray α} {items : List α}
    (h : array.items = .ok items) : items.length = array.count.toNat := by
  unfold FfiArray.items at h
  split at h
  next hzero =>
    cases h
    rw [hzero]
    rfl
  next => exact array.readable items (okOr_eq_ok_iff.1 h)

/-- The exported text has the bytes and the length of the imported one. -/
theorem ownedBytes_of_text {value : VbufFfiBytes} {name : String} (h : value.text = .ok name) :
    value.bytes = .ok (ownedBytes name).ptr ∧ (ownedBytes name).len = value.len := by
  obtain ⟨bytes, hbytes, hname⟩ := bind_eq_ok_iff.1 h
  obtain rfl := fromUtf8_eq_some_iff.1 (okOr_eq_ok_iff.1 hname)
  refine ⟨hbytes, ?_⟩
  rw [ownedBytes, bytes_length hbytes, UInt64.ofNat_toNat]

/-! ### The round trip -/

section RoundTrip

variable {F : Type} [Field F] [LinearOrder F] {math : ExactMath F}

/-- An input goes out with its code and its value, or with the tensor that its semantic
name is bound to, which the handle lists under the name. -/
inductive ExportedInput (handle : VbufRuntimeGraphHandle F)
    (bindings : List VbufPortableBindingDesc) :
    VbufPortableInputDesc → VbufGraphInputDesc → Prop
  | value {source : VbufPortableInputDesc} (hkind : source.kind = 0) :
      ExportedInput handle bindings source ⟨source.kind, source.id⟩
  | tensor {source : VbufPortableInputDesc} {binding : VbufPortableBindingDesc} {index : UInt32}
      {semantic : OwnedBytes} (hkind : source.kind = 1) (hmem : binding ∈ bindings)
      (hbound : binding.semantic.bytes = source.semantic.bytes)
      (hsemantic : source.semantic.bytes = .ok semantic.ptr)
      (hlen : semantic.len = source.semantic.len)
      (hlisted : tensorDesc handle index = .ok ⟨binding.tensorId, semantic⟩) :
      ExportedInput handle bindings source ⟨source.kind, binding.tensorId⟩

/-- The exported descriptor is the imported one; the values of absent options are zero. -/
structure Exported (handle : VbufRuntimeGraphHandle F) (bindings : List VbufPortableBindingDesc)
    (source : VbufPortableOperationDescV2 F) (out : VbufGraphOperationDescV2 F) : Prop where
  kind : out.base.kind = source.base.kind
  id : source.base.id.bytes = .ok out.base.id.ptr
  idLen : out.base.id.len = source.base.id.len
  inputs : ∃ inputs, source.base.inputs.items = .ok inputs ∧
    List.Forall₂ (ExportedInput handle bindings) inputs out.base.inputs
  inputCount : out.base.inputCount = source.base.inputs.count
  output : out.base.output = source.base.output
  hasEpsilon : out.base.hasEpsilon = if source.base.hasEpsilon = 0 then 0 else 1
  epsilon : out.base.epsilon = if source.base.hasEpsilon = 0 then 0 else source.base.epsilon
  matmulWeightOperand : out.base.matmulWeightOperand = source.base.matmulWeightOperand
  matmulTransposeWeight : out.base.matmulTransposeWeight = source.base.matmulTransposeWeight
  activation : out.base.reserved = source.base.reserved
  hasTopK : out.base.hasTopK = if source.base.hasTopK = 0 then 0 else 1
  topK : out.base.topK = if source.base.hasTopK = 0 then 0 else source.base.topK
  topKOrder : out.base.topKOrder = source.base.topKOrder
  topKTieBreak : out.base.topKTieBreak = source.base.topKTieBreak
  attention : out.attention = if source.base.kind = 6 then source.attention else zeroAttention

omit [Field F] [LinearOrder F] in
/-- The tensors of a handle are those of the bindings, in their order. -/
theorem tensorDesc_of_binding {handle : VbufRuntimeGraphHandle F}
    {bindings : List TensorBinding}
    (htensors : handle.graph.tensors = bindings.map fun binding =>
      ⟨binding.tensor, binding.semantic, 0, 0⟩) (hcount : bindings.length < 2 ^ 32)
    {binding : TensorBinding} (hmem : binding ∈ bindings) :
    ∃ index, tensorDesc handle index = .ok ⟨binding.tensor, ownedBytes binding.semantic⟩ := by
  obtain ⟨i, hi, rfl⟩ := List.mem_iff_getElem.1 hmem
  refine ⟨UInt32.ofNat i, bind_eq_ok_iff.2 ⟨⟨_, _, 0, 0⟩, okOr_eq_ok_iff.2 ?_, rfl⟩⟩
  rw [UInt32.toNat_ofNat_of_lt' (Nat.lt_trans hi hcount), htensors, List.getElem?_map,
    List.getElem?_eq_getElem hi, Option.map_some]

omit [Field F] [LinearOrder F] in
theorem exportedInput {handle : VbufRuntimeGraphHandle F}
    {descriptors : List VbufPortableBindingDesc} {bindings : List TensorBinding}
    (hbindings : List.Forall₂ (fun descriptor binding => bindingOf descriptor = .ok binding)
      descriptors bindings)
    (htensors : handle.graph.tensors = bindings.map fun binding =>
      ⟨binding.tensor, binding.semantic, 0, 0⟩) (hcount : bindings.length < 2 ^ 32)
    {source : VbufPortableInputDesc} {portable : PortableInput} {ref : InputRef}
    (hinput : input source = .ok portable) (hlowers : InputLowers bindings portable ref) :
    ExportedInput handle descriptors source (graphInput ref) := by
  unfold input at hinput
  split at hinput
  next hkind =>
    cases hinput
    cases hlowers
    have hvalue := @ExportedInput.value F handle descriptors source hkind
    rwa [hkind] at hvalue
  next hkind =>
    obtain ⟨name, hname, hportable⟩ := bind_eq_ok_iff.1 hinput
    cases hportable
    cases hlowers with
    | tensor hmem hunique =>
        rename_i id
        obtain ⟨descriptor, hdescriptor, hbinding⟩ := exists_of_mem_right hbindings hmem
        obtain ⟨semantic, hsemantic, hbound⟩ := bind_eq_ok_iff.1 hbinding
        cases hbound
        obtain ⟨index, hindex⟩ := tensorDesc_of_binding htensors hcount hmem
        obtain ⟨hbytes, hlen⟩ := ownedBytes_of_text hname
        have htensor := ExportedInput.tensor hkind hdescriptor
          ((ownedBytes_of_text hsemantic).1.trans hbytes.symm) hbytes hlen hindex
        rwa [hkind] at htensor
  next => cases hinput

omit [LinearOrder F] in
/-- The export of an option with a flag. -/
theorem flag_export {α : Type} (flag : UInt8) (value zero : α) :
    presentCode (if flag ≠ 0 then some value else none) = (if flag = 0 then 0 else 1) ∧
      (if flag ≠ 0 then some value else none).getD zero = if flag = 0 then zero else value := by
  by_cases h : flag = 0
  · rw [if_neg (fun hne => hne h), if_pos h, if_pos h]
    exact ⟨rfl, rfl⟩
  · rw [if_pos h, if_neg h, if_neg h]
    exact ⟨rfl, rfl⟩

omit [LinearOrder F] in
/-- An imported operation that was lowered is exported as it was imported. -/
theorem exported_of_lowers {handle : VbufRuntimeGraphHandle F}
    {descriptors : List VbufPortableBindingDesc} {bindings : List TensorBinding}
    (hbindings : List.Forall₂ (fun descriptor binding => bindingOf descriptor = .ok binding)
      descriptors bindings)
    (htensors : handle.graph.tensors = bindings.map fun binding =>
      ⟨binding.tensor, binding.semantic, 0, 0⟩) (hcount : bindings.length < 2 ^ 32)
    {source : VbufPortableOperationDescV2 F} {portable : PortableOperation F}
    {lowered : Operation F} (hsource : operationV2 source = .ok portable)
    (hlowers : Lowers bindings portable lowered) {index : UInt32}
    (hget : handle.graph.operations[index.toNat]? = some lowered)
    (hinputs : handle.inputs.getD index.toNat [] = lowered.inputs.map graphInput) :
    ∃ out, operationDescV2 handle index = .ok out ∧ Exported handle descriptors source out := by
  obtain ⟨base, hbase, hsource⟩ := bind_eq_ok_iff.1 hsource
  obtain ⟨attributes, hattention, hportable⟩ := bind_eq_ok_iff.1 hsource
  obtain rfl := Except.ok.inj hportable
  -- The import reads its fields in this order, and each gives one code back.
  obtain ⟨kind, hkind, hbase⟩ := bind_eq_ok_iff.1 hbase
  obtain ⟨sources, hitems, hbase⟩ := bind_eq_ok_iff.1 hbase
  obtain ⟨inputs, hmapped, hbase⟩ := bind_eq_ok_iff.1 hbase
  obtain ⟨operand, hoperand, hbase⟩ := bind_eq_ok_iff.1 hbase
  obtain ⟨activation, hactivation, hbase⟩ := bind_eq_ok_iff.1 hbase
  obtain ⟨order, horder, hbase⟩ := bind_eq_ok_iff.1 hbase
  obtain ⟨tieBreak, htieBreak, hbase⟩ := bind_eq_ok_iff.1 hbase
  obtain ⟨id, hid, hbase⟩ := bind_eq_ok_iff.1 hbase
  obtain ⟨transpose, htranspose, hbase⟩ := bind_eq_ok_iff.1 hbase
  obtain rfl := Except.ok.inj hbase
  obtain ⟨lid, lkind, linputs, loutput, lattributes⟩ := lowered
  obtain ⟨hlid, hlkind, hrefs, hloutput, hlattributes⟩ := hlowers
  dsimp only at hlid hlkind hrefs hloutput hlattributes hinputs
  subst hlid hlkind hloutput hlattributes
  obtain ⟨hcode, hnonzero⟩ := kindCode_lowered hkind
  obtain ⟨hbytes, hlen⟩ := ownedBytes_of_text hid
  have hsupported : ¬ kindCode kind.lowered = 0 := hcode ▸ hnonzero
  -- both lists of inputs are as long as the imported one
  have hlength : linputs.length = source.base.inputs.count.toNat := by
    rw [← items_length hitems, (mapM_eq_ok_iff.1 hmapped).length_eq, hrefs.length_eq]
  have hexported : List.Forall₂ (ExportedInput handle descriptors) sources
      (linputs.map graphInput) := by
    refine List.forall₂_map_right_iff.2 (forall₂_of_common
      (List.Forall₂.flip (mapM_eq_ok_iff.1 hmapped)) hrefs ?_)
    intro _ _ _ _ hinput hlowersInput
    exact exportedInput hbindings htensors hcount hinput hlowersInput
  have hattributes : attentionDesc attributes =
      if source.base.kind = 6 then source.attention else zeroAttention := by
    unfold attentionOf at hattention
    split at hattention
    next hsix =>
      rw [if_pos hsix]
      cases hread : attention source.attention with
      | ok value =>
          rw [hread] at hattention
          obtain rfl := Except.ok.inj hattention
          exact attentionDesc_of_ok hread
      | error e =>
          rw [hread] at hattention
          cases hattention
    next hother =>
      obtain rfl := Except.ok.inj hattention
      rw [if_neg hother]
      rfl
  refine ⟨_, bind_eq_ok_iff.2 ⟨_, bind_eq_ok_iff.2 ⟨_, okOr_eq_ok_iff.2 hget, bind_eq_ok_iff.2
    ⟨(), rejectIf_eq_ok_iff.2 hsupported, rfl⟩⟩,
    bind_eq_ok_iff.2 ⟨_, okOr_eq_ok_iff.2 hget, rfl⟩⟩, ?_⟩
  exact
    { kind := hcode
      id := hbytes
      idLen := hlen
      inputs := ⟨sources, hitems, hinputs ▸ hexported⟩
      inputCount := by
        show UInt32.ofNat (handle.inputs.getD index.toNat []).length = _
        rw [hinputs, List.length_map, hlength, UInt32.ofNat_toNat]
      output := rfl
      hasEpsilon := (flag_export _ _ (0 : F)).1
      epsilon := (flag_export _ _ _).2
      matmulWeightOperand := operandCode_of_ok hoperand
      matmulTransposeWeight := transposeCode_of_ok htranspose
      activation := activationCode_of_ok hactivation
      hasTopK := (flag_export _ _ (0 : UInt32)).1
      topK := (flag_export _ _ _).2
      topKOrder := orderCode_of_ok horder
      topKTieBreak := tieBreakCode_of_ok htieBreak
      attention := hattributes }

/-- A lowered graph exports as many operations as were imported, every one of them
successfully and as it was imported. -/
theorem graphLowerV2_roundTrip {program : VbufPortableProgramDesc}
    {region : VbufPortableRegionDescV2 F} {handle : VbufRuntimeGraphHandle F}
    (h : graphLowerV2 math program region = .ok handle) :
    operationCount handle = region.operations.count ∧
      ∃ bindings sources, program.bindings.items = .ok bindings ∧
        region.operations.items = .ok sources ∧
        ∀ (i : Nat) (hi : i < sources.length), ∃ out,
          operationDescV2 handle (UInt32.ofNat i) = .ok out ∧
            Exported handle bindings sources[i] out := by
  obtain ⟨sources, hsources, h⟩ := bind_eq_ok_iff.1 h
  obtain ⟨operations, hoperations, h⟩ := bind_eq_ok_iff.1 h
  obtain ⟨descriptors, hdescriptors, h⟩ := bind_eq_ok_iff.1 h
  obtain ⟨bindings, hbindings, h⟩ := bind_eq_ok_iff.1 h
  obtain ⟨graph, hgraph, h⟩ := bind_eq_ok_iff.1 h
  obtain rfl := Except.ok.inj h
  rw [mapErr_eq_ok_iff] at hgraph
  obtain ⟨-, -, hlowers⟩ := lowers_of_lowerRegion hgraph
  have htensors : graph.tensors = bindings.map fun binding =>
      ⟨binding.tensor, binding.semantic, 0, 0⟩ := by
    obtain ⟨_, _, _, _, rfl⟩ := lowerRegion_eq_ok_iff.1 hgraph
    rfl
  have hread := mapM_eq_ok_iff.1 hoperations
  have hcount : sources.length = region.operations.count.toNat := items_length hsources
  -- A count of thirty-two bits bounds every index, so none of them wraps around.
  have hbound : bindings.length < 2 ^ 32 := by
    rw [← (mapM_eq_ok_iff.1 hbindings).length_eq, items_length hdescriptors]
    exact UInt32.toNat_lt _
  have hlength : graph.operations.length = sources.length := by
    rw [← hlowers.length_eq, ← hread.length_eq]
  refine ⟨?_, descriptors, sources, hdescriptors, hsources, fun i hi => ?_⟩
  · show UInt32.ofNat graph.operations.length = _
    rw [hlength, hcount, UInt32.ofNat_toNat]
  · have hindex : (UInt32.ofNat i).toNat = i :=
      UInt32.toNat_ofNat_of_lt' (Nat.lt_trans hi (hcount ▸ UInt32.toNat_lt _))
    have hi' : i < graph.operations.length := hlength ▸ hi
    have hportable : i < operations.length := hread.length_eq ▸ hi
    have hget : graph.operations[(UInt32.ofNat i).toNat]? = some graph.operations[i] := by
      rw [hindex, List.getElem?_eq_getElem hi']
    refine exported_of_lowers (mapM_eq_ok_iff.1 hbindings) htensors hbound
      (List.forall₂_iff_get.1 hread |>.2 i hi hportable)
      (List.forall₂_iff_get.1 hlowers |>.2 i hportable hi') hget ?_
    show (graph.operations.map fun operation => operation.inputs.map graphInput).getD _ [] = _
    rw [List.getD_eq_getElem?_getD, List.getElem?_map, hget]
    rfl

end RoundTrip

/-! ### Four operations -/

section Block

theorem letter_readable : ∀ bytes ∈ some [(98 : UInt8)], bytes.length = (1 : UInt64).toNat := by
  rintro _ ⟨⟩
  rfl

/-- The text of the letter b. -/
def letter : VbufFfiBytes := ⟨1, some [98], letter_readable⟩

/-- An array over the items of a list. -/
def arrayOf {α : Type} (items : List α) (h : items.length < 2 ^ 32) : FfiArray α where
  count := UInt32.ofNat items.length
  ptr := some items
  readable := by
    rintro _ ⟨⟩
    exact (UInt32.toNat_ofNat_of_lt' h).symm

/-- An operation of a kind over values and, when it has a weight, a bound tensor. -/
def plainDesc (kind : UInt32) (inputs : List VbufPortableInputDesc) (h : inputs.length < 2 ^ 32)
    (output : UInt32) : VbufPortableOperationDesc ℚ :=
  ⟨kind, letter, arrayOf inputs h, output, 0, 0, 0, 0, 0, 0, 0, 0, 0⟩

def normDesc : VbufPortableOperationDescV2 ℚ where
  base :=
    { plainDesc 1 [⟨0, 0, letter⟩, ⟨1, 0, letter⟩] (by decide) 1 with
      hasEpsilon := 1
      epsilon := 1 / 1000 }
  attention := zeroAttention

def projectionDesc : VbufPortableOperationDescV2 ℚ where
  base :=
    { plainDesc 2 [⟨0, 1, letter⟩, ⟨1, 0, letter⟩] (by decide) 2 with
      matmulWeightOperand := 2
      matmulTransposeWeight := 2 }
  attention := zeroAttention

def attentionOperationDesc : VbufPortableOperationDescV2 ℚ where
  base := plainDesc 6 [⟨0, 2, letter⟩, ⟨0, 2, letter⟩, ⟨0, 2, letter⟩] (by decide) 3
  attention := ⟨1, 2, 1, 4, 1, 1, 1 / 2, 1, 1, 9⟩

def additionDesc : VbufPortableOperationDescV2 ℚ where
  base := plainDesc 7 [⟨0, 0, letter⟩, ⟨0, 3, letter⟩] (by decide) 4
  attention := zeroAttention

def blockProgram : VbufPortableProgramDesc := ⟨arrayOf [⟨letter, 7⟩] (by decide)⟩

/-- A norm, a projection, an attention and a residual addition. -/
def blockOperations : List (VbufPortableOperationDescV2 ℚ) :=
  [normDesc, projectionDesc, attentionOperationDesc, additionDesc]

def blockRegion : VbufPortableRegionDescV2 ℚ := ⟨0, 4, arrayOf blockOperations (by decide)⟩

theorem graphLowerV2_block :
    ∃ handle, graphLowerV2 SequenceGeometry.exampleMath blockProgram blockRegion = .ok handle := by
  have hlowered : (graphLowerV2 SequenceGeometry.exampleMath blockProgram
      blockRegion).toOption.isSome = true := by
    decide +kernel
  cases hresult : graphLowerV2 SequenceGeometry.exampleMath blockProgram blockRegion with
  | ok handle => exact ⟨handle, rfl⟩
  | error e =>
      rw [hresult] at hlowered
      cases hlowered

/-- Every one of the four operations is exported with its attributes. -/
theorem graphLowerV2_roundTrip_block :
    ∃ handle, graphLowerV2 SequenceGeometry.exampleMath blockProgram blockRegion = .ok handle ∧
      operationCount handle = 4 ∧
      ∀ (i : Nat) (hi : i < blockOperations.length), ∃ out,
        operationDescV2 handle (UInt32.ofNat i) = .ok out ∧
          Exported handle [⟨letter, 7⟩] blockOperations[i] out := by
  obtain ⟨handle, hhandle⟩ := graphLowerV2_block
  obtain ⟨hcount, _, _, hbindings, hsources, hexported⟩ := graphLowerV2_roundTrip hhandle
  cases (rfl : blockProgram.bindings.items = .ok [⟨letter, 7⟩]).symm.trans hbindings
  cases (rfl : blockRegion.operations.items = .ok blockOperations).symm.trans hsources
  exact ⟨handle, hhandle, hcount, hexported⟩

end Block

end VBuf.Runtime.GraphAbi
