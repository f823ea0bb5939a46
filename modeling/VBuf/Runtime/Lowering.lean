import VBuf.Lib.AssocTotal
import VBuf.Runtime.Generic

/-!
# Lowering of a region

The execution graph and `lower_region`: the bindings of a program name the tensors
of a region's operations, and each operation is checked for its attributes.
-/

namespace VBuf.Runtime

open VBuf.Lib

/-! ### The graph -/

inductive InputRef
  | tensor (id : UInt32)
  | value (id : UInt32)
  deriving DecidableEq, Repr

inductive OperationKind
  | rmsNorm
  | matMul
  | quantizedMatMul
  | activation
  | attention
  | ssmScan
  | topKRouter
  | expertDispatch
  | residualAdd
  | biasAdd
  | rotary
  | reshapeHeads
  | elementwiseMul
  | zeroLike
  | weightedAdd
  | stateRead
  | stateWrite
  deriving DecidableEq, Repr

inductive ActivationKind
  | silu
  | sigmoid
  deriving DecidableEq, Repr

structure RotaryAttributes (F : Type) where
  headCount : UInt64
  headDim : UInt64
  rotaryDim : UInt64
  theta : F
  positionStart : UInt64
  deriving DecidableEq, Repr

structure HeadReshapeAttributes where
  headCount : UInt64
  headDim : UInt64
  flatten : Bool
  deriving DecidableEq, Repr

inductive MatMulWeightOperand
  | lhs
  | rhs
  deriving DecidableEq, Repr

inductive TopKOrder
  | descending
  deriving DecidableEq, Repr

inductive TopKTieBreak
  | lowerIndex
  deriving DecidableEq, Repr

/-- `OperationAttributes`; `expert_dispatch` is the expert id. -/
structure OperationAttributes (F : Type) where
  epsilon : Option F := none
  activation : Option ActivationKind := none
  attention : Option (AttentionAttributes F) := none
  rotary : Option (RotaryAttributes F) := none
  headReshape : Option HeadReshapeAttributes := none
  weightedAdd : Option F := none
  expertDispatch : Option UInt32 := none
  topK : Option UInt32 := none
  matmulWeightOperand : Option MatMulWeightOperand := none
  matmulTransposeWeight : Option Bool := none
  topKOrder : Option TopKOrder := none
  topKTieBreak : Option TopKTieBreak := none
  deriving DecidableEq, Repr

structure PersistentTensor where
  id : UInt32
  name : String
  bytes : UInt64
  sourceOffset : UInt64
  deriving DecidableEq, Repr

structure Operation (F : Type) where
  id : String
  kind : OperationKind
  inputs : List InputRef
  output : UInt32
  attributes : OperationAttributes F
  deriving DecidableEq, Repr

structure ExecutionGraph (F : Type) where
  input : UInt32
  output : UInt32
  tensors : List PersistentTensor
  operations : List (Operation F)
  deriving DecidableEq, Repr

/-! ### Regions -/

structure TensorBinding where
  semantic : String
  tensor : UInt32
  deriving DecidableEq, Repr

structure StateRef where
  id : UInt32
  kind : String
  lifetime : String
  scope : String
  deriving DecidableEq, Repr

inductive PortableInput
  | value (id : UInt32)
  | tensor (semantic : String)
  deriving DecidableEq, Repr

inductive PortableOperationKind
  | rmsNorm
  | matMul
  | activation
  | topK
  | indexedMatMul
  | attention
  | stateRead
  | stateWrite
  | residualAdd
  | biasAdd
  | rotary
  | reshapeHeads
  | elementwiseMul
  | zeroLike
  | weightedAdd
  deriving DecidableEq, Repr

/-- The kind of the lowered operation. -/
def PortableOperationKind.lowered : PortableOperationKind → OperationKind
  | rmsNorm => .rmsNorm
  | matMul => .matMul
  | activation => .activation
  | topK => .topKRouter
  | indexedMatMul => .expertDispatch
  | attention => .attention
  | stateRead => .stateRead
  | stateWrite => .stateWrite
  | residualAdd => .residualAdd
  | biasAdd => .biasAdd
  | rotary => .rotary
  | reshapeHeads => .reshapeHeads
  | elementwiseMul => .elementwiseMul
  | zeroLike => .zeroLike
  | weightedAdd => .weightedAdd

structure PortableOperation (F : Type) where
  id : String
  kind : PortableOperationKind
  inputs : List PortableInput
  output : UInt32
  attributes : OperationAttributes F
  deriving DecidableEq, Repr

structure PortableRegion (F : Type) where
  id : String
  input : UInt32
  output : UInt32
  operations : List (PortableOperation F)
  deriving DecidableEq, Repr

structure PortableProgram where
  tensorBindings : List TensorBinding
  stateRefs : List StateRef
  deriving DecidableEq, Repr

inductive LoweringError
  | duplicateBinding (semantic : String)
  | missingBinding (semantic : String)
  | missingState (id : UInt32)
  | unsupportedOperation (kind : PortableOperationKind)
  | invalidAttribute (detail : String)
  deriving DecidableEq, Repr

/-! ### `lower_region` -/

/-- The tensors by their semantic keys. -/
def bindTensors : List TensorBinding → AssocMap String UInt32 →
    Except LoweringError (AssocMap String UInt32)
  | [], bindings => .ok bindings
  | binding :: rest, bindings =>
      if (bindings.lookup binding.semantic).isSome then
        .error (.duplicateBinding binding.semantic)
      else bindTensors rest (bindings.insert binding.semantic binding.tensor)

def lowerInput (bindings : AssocMap String UInt32) : PortableInput →
    Except LoweringError InputRef
  | .value id => .ok (.value id)
  | .tensor semantic =>
      match bindings.lookup semantic with
      | some tensor => .ok (.tensor tensor)
      | none => .error (.missingBinding semantic)

section Lowering

variable {F : Type} [Field F] [LinearOrder F] (math : ExactMath F)

/-- The checks of rotary geometry. -/
def checkRotary (operation : PortableOperation F) : Except LoweringError Unit :=
  match operation.attributes.rotary with
  | none => .error (.invalidAttribute "Rotary requires geometry and theta")
  | some rotary =>
      rejectIf (operation.inputs.length ≠ 1 ∨ rotary.headCount = 0 ∨ rotary.headDim = 0 ∨
          rotary.rotaryDim = 0 ∨ rotary.rotaryDim > rotary.headDim ∨ rotary.rotaryDim % 2 ≠ 0 ∨
          math.isFinite rotary.theta = false ∨ rotary.theta ≤ 0)
        (.invalidAttribute "Rotary geometry or theta is invalid")

def checkHeadReshape (operation : PortableOperation F) : Except LoweringError Unit :=
  match operation.attributes.headReshape with
  | none => .error (.invalidAttribute "Head reshape requires geometry")
  | some shape =>
      rejectIf (operation.inputs.length ≠ 1 ∨ shape.headCount = 0 ∨ shape.headDim = 0)
        (.invalidAttribute "Head reshape geometry is invalid")

def checkWeightedAdd (operation : PortableOperation F) : Except LoweringError Unit :=
  rejectIf (operation.inputs.length ≠ 2 ∨
      (operation.attributes.weightedAdd.map math.isFinite).getD false = false)
    (.invalidAttribute "WeightedAdd requires two inputs and a finite weight")

/-- The checks of attention; there is one position kind, and every mask is supported. -/
def checkAttentionAttributes (program : PortableProgram) (operation : PortableOperation F) :
    Except LoweringError Unit :=
  match operation.attributes.attention with
  | none => .error (.invalidAttribute "Attention requires geometry and state attributes")
  | some attention => do
      rejectIf (operation.inputs.length ≠ 3)
        (.invalidAttribute "Attention requires Q, K, and V inputs")
      rejectIf (attention.batchSize = 0 ∨ attention.queryHeadCount = 0 ∨
          attention.kvHeadCount = 0 ∨ attention.headDim = 0 ∨ attention.queryLength = 0 ∨
          attention.queryHeadCount % attention.kvHeadCount ≠ 0 ∨
          attention.currentKvLength < attention.queryLength ∨
          math.isFinite attention.scale = false ∨ attention.scale ≤ 0)
        (.invalidAttribute "Attention geometry or scale is invalid")
      rejectIf (program.stateRefs.any (fun state => state.id == attention.state) = false)
        (.missingState attention.state)

/-- The checks of an operation; each applies to its own kind. -/
def checkOperation (program : PortableProgram) (operation : PortableOperation F) :
    Except LoweringError Unit :=
  match operation.kind with
  | .rmsNorm =>
      rejectIf (operation.attributes.epsilon.isNone)
        (.invalidAttribute "RmsNorm requires epsilon")
  | .activation =>
      rejectIf (operation.attributes.activation.isNone)
        (.invalidAttribute "Activation requires an activation kind")
  | .rotary => checkRotary math operation
  | .reshapeHeads => checkHeadReshape operation
  | .weightedAdd => checkWeightedAdd math operation
  | .indexedMatMul =>
      rejectIf (operation.inputs.length ≠ 4 ∨ operation.attributes.expertDispatch.isNone)
        (.invalidAttribute
          "IndexedMatMul requires activation, three weights, and expert identity")
  | .zeroLike =>
      rejectIf (operation.inputs.length ≠ 1)
        (.invalidAttribute "Elementwise operation has an invalid input count")
  | .biasAdd | .elementwiseMul =>
      rejectIf (operation.inputs.length ≠ 2)
        (.invalidAttribute "Elementwise operation has an invalid input count")
  | .attention => checkAttentionAttributes math program operation
  | .topK =>
      rejectIf (operation.attributes.topK.isNone ∨ operation.attributes.topKOrder.isNone ∨
          operation.attributes.topKTieBreak.isNone)
        (.invalidAttribute "TopK requires top_k")
  | .matMul =>
      rejectIf (operation.attributes.matmulWeightOperand.isNone ∨
          operation.attributes.matmulTransposeWeight.isNone)
        (.invalidAttribute "MatMul requires weight operand and orientation")
  | .stateRead | .stateWrite | .residualAdd => .ok ()

/-- A turn of the loop of `lower_region`. -/
def lowerOperation (program : PortableProgram) (bindings : AssocMap String UInt32)
    (operation : PortableOperation F) : Except LoweringError (Operation F) := do
  checkOperation math program operation
  let inputs ← operation.inputs.mapM (lowerInput bindings)
  .ok
    { id := operation.id
      kind := operation.kind.lowered
      inputs
      output := operation.output
      attributes := operation.attributes }

/-- `lower_region`. -/
def lowerRegion (program : PortableProgram) (region : PortableRegion F) :
    Except LoweringError (ExecutionGraph F) := do
  let bindings ← bindTensors program.tensorBindings ∅
  let operations ← region.operations.mapM (lowerOperation math program bindings)
  .ok
    { input := region.input
      output := region.output
      tensors := program.tensorBindings.map (fun binding => ⟨binding.tensor, binding.semantic, 0, 0⟩)
      operations }

/-! ### What a lowered operation has -/

variable {math}

end Lowering

end VBuf.Runtime
