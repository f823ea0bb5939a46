import VBuf.Runtime.Lowering

/-!
# The generic executor

`execute_generic_graph` over exact numbers.  Rotary positions, routing and expert
dispatch are parameters.  What ends the program, a division by a zero width or a
result that no vector can hold, is an error here.
-/

namespace VBuf.Runtime

open VBuf.Lib

structure GenericTopKSelection (F : Type) where
  ids : List UInt32
  weights : List F
  tokenCount : UInt64
  topK : UInt32
  deriving DecidableEq, Repr

/-- The operations of the executor that are not embedded. -/
structure GenericKernels (F : Type) where
  rotary : GenericTensor F → RotaryAttributes F → Except String (GenericTensor F)
  topK : GenericTensor F → GenericTensor F → UInt32 → Except String (GenericTopKSelection F)
  expertDispatch : GenericTensor F → GenericTensor F → GenericTensor F → GenericTensor F → UInt32 →
    GenericTopKSelection F → Except String (GenericTensor F)

/-- The values, the selection of a router and the state of an execution. -/
structure GenericRun (F : Type) where
  values : AssocMap UInt32 (GenericTensor F)
  selection : Option (GenericTopKSelection F)
  state : GenericExecutionState F

structure GenericExecutionResult (F : Type) where
  values : AssocMap UInt32 (GenericTensor F)
  selection : Option (GenericTopKSelection F)

section Operands

variable {F : Type}

def inputValue (values : AssocMap UInt32 (GenericTensor F)) : InputRef →
    Except String (GenericTensor F)
  | .value id => okOr (values.lookup id) ("generic value " ++ toString id ++ " is unavailable")
  | .tensor _ => .error "generic operation expected a value input"

/-- The closure `value` of the loop. -/
def valueInput (operation : Operation F) (values : AssocMap UInt32 (GenericTensor F))
    (index : Nat) : Except String (GenericTensor F) := do
  let input ← okOr operation.inputs[index]? "operation input is missing"
  inputValue values input

def tensorInput (operation : Operation F) (index : Nat)
    (provider : UInt32 → Except String (GenericTensor F)) : Except String (GenericTensor F) :=
  match operation.inputs[index]? with
  | some (.tensor id) => provider id
  | _ => .error "generic operation expected a tensor input"

def checkedLastDimension (tensor : GenericTensor F) : Except String UInt64 :=
  okOr tensor.dimensions.getLast? "generic tensor has no dimensions"

def reshapeHeads (input : GenericTensor F) (attrs : HeadReshapeAttributes) :
    Except String (GenericTensor F) := do
  rejectIf (input.dimensions.length ≠ if attrs.flatten then 4 else 3)
    "generic head reshape rank is invalid"
  rejectIf (2 ^ 64 ≤ attrs.headCount.toNat * attrs.headDim.toNat) "head reshape overflows"
  let expected := attrs.headCount * attrs.headDim
  let dimension := fun i => input.dimensions.getD i 0
  if attrs.flatten then
    if dimension 2 ≠ attrs.headCount ∨ dimension 3 ≠ attrs.headDim then
      .error "generic head flatten geometry is invalid"
    else .ok ⟨[dimension 0, dimension 1, expected], input.values⟩
  else
    if dimension 2 ≠ expected then .error "generic head reshape geometry is invalid"
    else .ok ⟨[dimension 0, dimension 1, attrs.headCount, attrs.headDim], input.values⟩

end Operands

section Kernels

variable {F : Type} [Field F] [LinearOrder F] (math : ExactMath F)

/-- The product of a row of the input and a row of the weight. -/
def rowDot (input weight : List F) (width row out : Nat) : F :=
  (List.range width).foldl (fun sum column =>
    sum + input.getD (row * width + column) 0 * weight.getD (out * width + column) 0) 0

/-- `matmul`. -/
def matmul (input weight : GenericTensor F) : Except String (GenericTensor F) := do
  let inputWidth ← checkedLastDimension input
  rejectIf (weight.dimensions.length ≠ 2 ∨ weight.dimensions[1]? ≠ some inputWidth)
    "generic matmul geometry is invalid"
  let _ ← input.elements
  let _ ← weight.elements
  let outputWidth := weight.dimensions.headD 0
  let rows := input.values.length / inputWidth.toNat
  rejectIf (2 ^ 63 ≤ 4 * (rows * outputWidth.toNat)) "capacity overflow"
  .ok
    { dimensions := input.dimensions.dropLast ++ [outputWidth]
      values := (List.range (rows * outputWidth.toNat)).map fun index =>
        rowDot input.values weight.values inputWidth.toNat (index / outputWidth.toNat)
          (index % outputWidth.toNat) }

/-- The scale of a row. -/
def rowScale (input : List F) (epsilon : F) (width row : Nat) : F :=
  let mean := (List.range width).foldl (fun sum column =>
    sum + input.getD (row * width + column) 0 * input.getD (row * width + column) 0) 0 / width
  (math.sqrt (mean + epsilon))⁻¹

/-- `rms_norm`; values behind the last whole row stay zero. -/
def rmsNorm (input weight : GenericTensor F) (epsilon : F) : Except String (GenericTensor F) := do
  let width ← checkedLastDimension input
  rejectIf (weight.dimensions ≠ [width] ∨ weight.values.length ≠ width.toNat ∨
      math.isFinite epsilon = false) "generic RMSNorm geometry is invalid"
  rejectIf (width = 0) "attempt to divide by zero"
  let rows := input.values.length / width.toNat
  .ok
    { dimensions := input.dimensions
      values := ((List.range rows).flatMap fun row => (List.range width.toNat).map fun column =>
          input.values.getD (row * width.toNat + column) 0 *
            rowScale math input.values epsilon width.toNat row * weight.values.getD column 0) ++
        List.replicate (input.values.length - rows * width.toNat) 0 }

/-- `bias_add`. -/
def biasAdd (input bias : GenericTensor F) : Except String (GenericTensor F) := do
  let width ← checkedLastDimension input
  rejectIf (bias.dimensions ≠ [width] ∨ bias.values.length ≠ width.toNat)
    "generic bias geometry is invalid"
  rejectIf (width = 0) "chunk size must be non-zero"
  let whole := input.values.length / width.toNat * width.toNat
  .ok
    { dimensions := input.dimensions
      values := input.values.mapIdx fun index value =>
        if index < whole then value + bias.values.getD (index % width.toNat) 0 else value }

/-- An activation of a number. -/
def activate (kind : ActivationKind) (x : F) : F :=
  match kind with
  | .silu => x / (1 + math.exp (-x))
  | .sigmoid => 1 / (1 + math.exp (-x))

/-- Two values of one geometry, combined number by number. -/
def elementwise (message : String) (f : F → F → F) (left right : GenericTensor F) :
    Except String (GenericTensor F) :=
  if left.dimensions ≠ right.dimensions ∨ left.values.length ≠ right.values.length then
    .error message
  else .ok ⟨left.dimensions, List.zipWith f left.values right.values⟩

end Kernels

section Executor

variable {F : Type} [Field F] [LinearOrder F] (math : ExactMath F) (kernels : GenericKernels F)
  (provider : UInt32 → Except String (GenericTensor F))
  (selection : Option (GenericTopKSelection F))

/-- The operations that read values and tensors only. -/
def operationOutput (operation : Operation F) (values : AssocMap UInt32 (GenericTensor F)) :
    Except String (GenericTensor F) :=
  let value := valueInput operation values
  let tensor := fun index => tensorInput operation index provider
  match operation.kind with
  | .rmsNorm => do
      let input ← value 0
      let weight ← tensor 1
      let epsilon ← okOr operation.attributes.epsilon "RMSNorm epsilon missing"
      rmsNorm math input weight epsilon
  | .matMul | .quantizedMatMul => do
      let input ← value 0
      let weight ← tensor 1
      matmul input weight
  | .biasAdd => do
      let input ← value 0
      let bias ← tensor 1
      biasAdd input bias
  | .activation => do
      let input ← value 0
      let kind ← okOr operation.attributes.activation "activation kind missing"
      .ok ⟨input.dimensions, input.values.map (activate math kind)⟩
  | .reshapeHeads => do
      let attrs ← okOr operation.attributes.headReshape "head reshape attributes missing"
      let input ← value 0
      reshapeHeads input attrs
  | .rotary => do
      let input ← value 0
      let attrs ← okOr operation.attributes.rotary "rotary attributes missing"
      kernels.rotary input attrs
  | .residualAdd => do
      let left ← value 0
      let right ← value 1
      elementwise "elementwise geometry is invalid" (· + ·) left right
  | .elementwiseMul => do
      let left ← value 0
      let right ← value 1
      elementwise "elementwise geometry is invalid" (· * ·) left right
  | .zeroLike => do
      let input ← value 0
      .ok ⟨input.dimensions, List.replicate input.values.length 0⟩
  | .weightedAdd => do
      let left ← value 0
      let right ← value 1
      if left.dimensions ≠ right.dimensions ∨ left.values.length ≠ right.values.length then
        .error "weighted add geometry is invalid"
      else do
        let weight ← okOr operation.attributes.weightedAdd "weighted add weight missing"
        elementwise "weighted add geometry is invalid" (fun a b => a + weight * b) left right
  | .expertDispatch => do
      let selection ← okOr selection "expert dispatch selection is missing"
      let input ← value 0
      let gate ← tensor 1
      let up ← tensor 2
      let down ← tensor 3
      let expertId ← okOr operation.attributes.expertDispatch "expert dispatch identity is missing"
      kernels.expertDispatch input gate up down expertId selection
  | .ssmScan => .error "generic operation SsmScan is unsupported"
  | .stateRead => .error "generic operation StateRead is unsupported"
  | .stateWrite => .error "generic operation StateWrite is unsupported"
  | .attention | .topKRouter => .error "the operation has a state"

/-- A turn of the loop of `execute_generic_graph`. -/
def executeGenericOperation (run : GenericRun F) (operation : Operation F) :
    Except String (GenericRun F) :=
  match operation.kind with
  | .attention => do
      let query ← valueInput operation run.values 0
      let key ← valueInput operation run.values 1
      let value ← valueInput operation run.values 2
      let attrs ← okOr operation.attributes.attention "attention attributes missing"
      match attention math query key value attrs run.state with
      | (.error error, _) => .error error
      | (.ok output, state) =>
          .ok { run with state, values := run.values.insert operation.output output }
  | .topKRouter => do
      let scores ← valueInput operation run.values 0
      let corrected ← valueInput operation run.values 1
      let topK ← okOr operation.attributes.topK "top-k missing"
      let selected ← kernels.topK scores corrected topK
      .ok { run with
        selection := some selected
        values := run.values.insert operation.output scores }
  | _ => do
      let output ← operationOutput math kernels provider selection operation run.values
      .ok { run with values := run.values.insert operation.output output }

/-- `execute_generic_graph`: the result, and the state, which an error leaves as it was. -/
def executeGenericGraph (graph : ExecutionGraph F) (input : GenericTensor F)
    (state : GenericExecutionState F) :
    Except String (GenericExecutionResult F) × GenericExecutionState F :=
  let start : GenericRun F :=
    { values := (∅ : AssocMap UInt32 (GenericTensor F)).insert graph.input input
      selection := none
      state }
  match graph.operations.foldlM (executeGenericOperation math kernels provider selection) start with
  | .error error => (.error error, state)
  | .ok run => (.ok ⟨run.values, run.selection⟩, run.state)

end Executor

end VBuf.Runtime
