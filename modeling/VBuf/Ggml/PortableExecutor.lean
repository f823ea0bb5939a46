import VBuf.Ggml.Materializer
import VBuf.Ggml.PortableAttention
import VBuf.Lib.AssocTotal

/-!
# The portable graph executor

`execute_portable_graph_with_state` over the operations that the runtime exports.
The resolver and the backend can answer each operation differently, so they take
the index of the operation; the attention report is left out.
-/

namespace VBuf.Ggml

open VBuf.Lib VBuf.Runtime

/-- `VbufGraphInputDesc`: a value (0) or a tensor (1). -/
structure VbufGraphInputDesc where
  kind : UInt32
  id : UInt32
  deriving DecidableEq, Repr

/-- `VbufGraphOperationDescV2`; `activation` is the first reserved byte. -/
structure VbufGraphOperationDescV2 (F : Type) where
  kind : UInt32
  inputs : List VbufGraphInputDesc
  output : UInt32
  hasEpsilon : UInt8
  matmulWeightOperand : UInt8
  matmulTransposeWeight : UInt8
  activation : UInt8
  topKOrder : UInt8
  topKTieBreak : UInt8
  epsilon : F
  hasTopK : UInt8
  topK : UInt32
  attention : VbufAttentionDesc F
  deriving DecidableEq, Repr

/-- An exported graph; an operation that the ABI does not know has no descriptor. -/
structure VbufRuntimeGraphHandle (F : Type) where
  input : UInt32
  output : UInt32
  operations : List (Option (VbufGraphOperationDescV2 F))

structure TopKSelection (F : Type) where
  ids : List UInt32
  scores : List F
  deriving DecidableEq, Repr

/-- The operations that go to the backend. -/
inductive BackendOp (F : Type)
  | rmsNorm (epsilon : F)
  | mulMat
  deriving DecidableEq, Repr

/-- The resolver, by operation and operand, the backend, by operation, and how the
bytes of a payload are read as numbers. -/
structure PortableEnvironment (F : Type) where
  resolver : Nat → Nat → UInt32 → Except String PersistentTensorRef
  backend : Nat → BackendOp F → PortableActivation F → PersistentTensorRef →
    Except String (PortableActivation F)
  floats : List UInt8 → List F

/-- The values, the state and the result of an execution. -/
structure PortableExecution (F : Type) where
  values : AssocMap UInt32 (PortableActivation F)
  state : Option (VbufPortableExecutionState F)
  normalized : List F := []
  logits : List F := []
  attentionOutput : List F := []
  selection : TopKSelection F := ⟨[], []⟩
  selectionRequired : Bool := false

/-- The execution before the first operation: the input is the only value. -/
def VbufRuntimeGraphHandle.start {F : Type} (graph : VbufRuntimeGraphHandle F)
    (input : PortableActivation F) (state : Option (VbufPortableExecutionState F)) :
    PortableExecution F where
  values := (∅ : AssocMap UInt32 (PortableActivation F)).insert graph.input input
  state

section Operations

variable {F : Type}

def findValue (operation : VbufGraphOperationDescV2 F) : Except String UInt32 :=
  match operation.inputs.find? (fun input => input.kind == 0) with
  | some input => .ok input.id
  | none => .error "operation value reference is missing"

def findTensor (operation : VbufGraphOperationDescV2 F) : Except String UInt32 :=
  match operation.inputs.find? (fun input => input.kind == 1) with
  | some input => .ok input.id
  | none => .error "operation tensor binding is missing"

def findValues (operation : VbufGraphOperationDescV2 F) : List UInt32 :=
  (operation.inputs.filter (fun input => input.kind == 0)).map VbufGraphInputDesc.id

/-- `run_backend_op`. -/
def runBackendOp (env : PortableEnvironment F) (index : Nat)
    (operation : VbufGraphOperationDescV2 F) (input : PortableActivation F)
    (tensor : PersistentTensorRef) : Except String (PortableActivation F) :=
  if tensor.view.payload = [] ∨ tensor.view.payloadLen = 0 then
    .error "resolved tensor payload is not ready"
  else if operation.kind = 1 then
    if operation.hasEpsilon = 0 then .error "RmsNorm epsilon is missing"
    else env.backend index (.rmsNorm operation.epsilon) input tensor
  else if operation.kind = 2 ∨ operation.kind = 5 then
    if operation.matmulWeightOperand = 0 ∨ operation.matmulTransposeWeight ≠ 1 then
      .error "MatMul semantics are incomplete for this backend"
    else env.backend index .mulMat input tensor
  else .error "unsupported backend operation"

/-- `activation_from_tensor`. -/
def activationFromTensor (env : PortableEnvironment F) (tensor : PersistentTensorRef) :
    Except String (PortableActivation F) :=
  if tensor.view.representation ≠ 0 ∨ tensor.view.dimensions.length ≠ 4 ∨
      tensor.view.payload = [] then
    .error "attention tensor input must be a rank-4 f32 payload"
  else
    match countOr "attention tensor input payload length is invalid" tensor.view.dimensions
        (fun elements => elements ≤ maxFloats ∧ tensor.view.payloadLen.toNat = elements * 4) with
    | .error error => .error error
    | .ok () => .ok ⟨env.floats (tensor.view.payload.take tensor.view.payloadLen.toNat),
        tensor.view.dimensions⟩

/-- An operand of an attention operation. -/
def attentionOperand (env : PortableEnvironment F) (index : Nat)
    (values : AssocMap UInt32 (PortableActivation F)) (operand : Nat × VbufGraphInputDesc) :
    Except String (PortableActivation F) :=
  if operand.2.kind = 0 then
    match values.lookup operand.2.id with
    | some value => .ok value
    | none => .error "attention value operand is unavailable"
  else if operand.2.kind = 1 then
    match env.resolver index operand.1 operand.2.id with
    | .ok tensor => activationFromTensor env tensor
    | .error error => .error error
  else .error "attention input reference kind is unsupported"

def attentionOperands (env : PortableEnvironment F) (index : Nat)
    (operation : VbufGraphOperationDescV2 F) (values : AssocMap UInt32 (PortableActivation F)) :
    Except String (List (PortableActivation F)) :=
  if operation.inputs.length ≠ 3 then .error "attention requires Q, K, and V operands"
  else (operation.inputs.mapIdx (fun i input => (i, input))).mapM
    (attentionOperand env index values)

variable [Field F] [LinearOrder F] (math : ExactMath F)

/-- `run_activation`. -/
def runActivation (operation : VbufGraphOperationDescV2 F) (input : PortableActivation F) :
    Except String (PortableActivation F) :=
  if operation.activation ≠ 1 then .error "activation kind is unsupported"
  else .ok ⟨input.values.map (fun value => value / (1 + math.exp (-value))), input.dimensions⟩

/-- `run_residual`. -/
def runResidual (lhs rhs : PortableActivation F) : Except String (PortableActivation F) :=
  if lhs.values.length ≠ rhs.values.length ∨ lhs.dimensions ≠ rhs.dimensions then
    .error "residual operands have incompatible geometry"
  else .ok ⟨List.zipWith (· + ·) lhs.values rhs.values, lhs.dimensions⟩

/-- `deterministic_top_k`: descending scores, and the lower index of equal ones. -/
def deterministicTopK (scores : List F) (expertCount k : UInt32) :
    Except String (TopKSelection F) :=
  if scores.length ≠ expertCount.toNat then .error "score-count and expert-count mismatch"
  else if k = 0 ∨ k > expertCount then .error "top-k is outside the expert-count bounds"
  else if scores.all math.isFinite = false then .error "non-finite router score"
  else
    let score := fun id => scores.getD id 0
    let before := fun lhs rhs =>
      if score lhs ≠ score rhs then decide (score lhs > score rhs) else decide (lhs ≤ rhs)
    let ids := ((List.range scores.length).mergeSort before).take k.toNat
    .ok ⟨ids.map UInt32.ofNat, ids.map score⟩

/-- An operation other than attention, on its first value. -/
def valueOperation (env : PortableEnvironment F) (graphOutput : UInt32) (index : Nat)
    (operation : VbufGraphOperationDescV2 F) (value : PortableActivation F)
    (s : PortableExecution F) : Except String (PortableExecution F) :=
  if operation.kind = 1 ∨ operation.kind = 2 ∨ operation.kind = 5 then do
    let tensorId ← findTensor operation
    let resolved ← env.resolver index 0 tensorId
    let output ← runBackendOp env index operation value resolved
    let s := { s with values := s.values.insert operation.output output }
    .ok (if operation.kind = 1 then { s with normalized := output.values }
      else { s with logits := output.values })
  else if operation.kind = 3 then do
    let output ← runActivation math operation value
    .ok { s with values := s.values.insert operation.output output }
  else if operation.kind = 7 then
    match findValues operation with
    | [lhsId, rhsId] =>
        match s.values.lookup lhsId, s.values.lookup rhsId with
        | some lhs, some rhs => do
            let output ← runResidual lhs rhs
            .ok { s with values := s.values.insert operation.output output }
        | _, _ => .error "residual value is unavailable"
    | _ => .error "residual requires two value operands"
  else if operation.kind = 4 then
    if operation.inputs.length ≠ 1 ∨ operation.topKOrder ≠ 1 ∨ operation.topKTieBreak ≠ 1 ∨
        operation.hasTopK = 0 ∨ operation.output ≠ graphOutput then
      .error "portable TopK semantics are incomplete"
    else do
      let selection ← deterministicTopK math value.values (UInt32.ofNat value.values.length)
        operation.topK
      .ok { s with selection, selectionRequired := true }
  else .error "portable operation kind is unsupported"

/-- An attention operation: what `run_attention` does to the state stays. -/
def attentionOperation (env : PortableEnvironment F) (index : Nat)
    (operation : VbufGraphOperationDescV2 F) (s : PortableExecution F) :
    Except String Unit × PortableExecution F :=
  match attentionOperands env index operation s.values with
  | .error error => (.error error, s)
  | .ok inputs =>
      match runAttention math operation.attention inputs s.state with
      | (.error error, state) => (.error error, { s with state })
      | (.ok output, state) =>
          (.ok (), { s with
            state
            attentionOutput := output.values
            values := s.values.insert operation.output output })

/-- One turn of the loop over the operations. -/
def executeOperation (env : PortableEnvironment F) (graphOutput : UInt32) (index : Nat)
    (operation : Option (VbufGraphOperationDescV2 F)) (s : PortableExecution F) :
    Except String Unit × PortableExecution F :=
  match operation with
  | none => (.error "portable operation descriptor is invalid", s)
  | some operation =>
      if operation.kind = 6 then attentionOperation math env index operation s
      else
        match findValue operation with
        | .error error => (.error error, s)
        | .ok valueId =>
            match s.values.lookup valueId with
            | none => (.error "portable value is unavailable", s)
            | some value =>
                match valueOperation math env graphOutput index operation value s with
                | .error error => (.error error, s)
                | .ok s => (.ok (), s)

/-- The operations from `index` on. -/
def executeOperations (env : PortableEnvironment F) (graphOutput : UInt32) :
    Nat → List (Option (VbufGraphOperationDescV2 F)) → PortableExecution F →
    Except String Unit × PortableExecution F
  | _, [], s =>
      if s.selectionRequired = true ∧ s.selection.ids = [] then
        (.error "portable TopK produced no selection", s)
      else (.ok (), s)
  | index, operation :: rest, s =>
      match executeOperation math env graphOutput index operation s with
      | (.error error, s) => (.error error, s)
      | (.ok (), s) => executeOperations env graphOutput (index + 1) rest s

/-- `execute_portable_graph_with_state`. -/
def executePortableGraphWithState (env : PortableEnvironment F) (graph : VbufRuntimeGraphHandle F)
    (input : PortableActivation F) (state : Option (VbufPortableExecutionState F)) :
    Except String Unit × PortableExecution F :=
  executeOperations math env graph.output 0 graph.operations (graph.start input state)

/-- `execute_portable_graph`. -/
def executePortableGraph (env : PortableEnvironment F) (graph : VbufRuntimeGraphHandle F)
    (input : PortableActivation F) : Except String Unit × PortableExecution F :=
  executePortableGraphWithState math env graph input none

end Operations

end VBuf.Ggml
