import VBuf.Runtime.ExpertDispatch

/-!
# The graph of the selected experts

`build_expert_graph` of the block runner: the post-attention norm, one dispatch
and one accumulation for each selected expert, the shared expert and the two
residual sums.  A missing catalog entry and an overflowing value id, which end
the program, are errors here.
-/

namespace VBuf.Runtime

open VBuf.Lib

/-- `LayerCatalog`, as far as the expert graph reads it. -/
structure LayerCatalog where
  layer : UInt32
  postNorm : UInt32
  sharedGate : UInt32
  sharedUp : UInt32
  sharedDown : UInt32
  expertEntries : UInt32 × UInt16 → Option (UInt32 × UInt32)

namespace LayerCatalog

/-- `catalog.expert_entries[&(expert, role)].0`. -/
def entry (catalog : LayerCatalog) (expert : UInt32) (role : UInt16) : Except String UInt32 :=
  okOr ((catalog.expertEntries (expert, role)).map Prod.fst) "no entry found for key"

end LayerCatalog

/-- `ValueId(base + index as u32)`. -/
def valueId (base index : Nat) : Except String UInt32 := do
  rejectIf (2 ^ 32 ≤ base + index % 2 ^ 32) "attempt to add with overflow"
  pure (UInt32.ofNat (base + index % 2 ^ 32))

/-- The semantic key of a tensor of an expert. -/
def expertKey (expert : UInt32) (part : String) : String :=
  "block.expert." ++ toString expert.toNat ++ "." ++ part

section Build

variable {F : Type} [Field F]

/-- An operation without attributes. -/
def plainOperation (id : String) (kind : PortableOperationKind) (inputs : List PortableInput)
    (output : UInt32) : PortableOperation F :=
  { id, kind, inputs, output, attributes := {} }

/-- `matmul`. -/
def matmulOperation (id : String) (input : UInt32) (weight : String) (output : UInt32) :
    PortableOperation F where
  id
  kind := .matMul
  inputs := [.value input, .tensor weight]
  output
  attributes := { matmulWeightOperand := some .rhs, matmulTransposeWeight := some false }

/-- `activation`. -/
def activationOperation (id : String) (input output : UInt32) (kind : ActivationKind) :
    PortableOperation F where
  id
  kind := .activation
  inputs := [.value input]
  output
  attributes := { activation := some kind }

/-- `1e-5`. -/
def normEpsilon : F := 1 / ((10 ^ 5 : Nat) : F)

/-- The post-attention norm. -/
def normOperation : PortableOperation F where
  id := "post_attention_norm"
  kind := .rmsNorm
  inputs := [.value 16, .tensor "block.post_attention_norm.weight"]
  output := 17
  attributes := { epsilon := some normEpsilon }

/-- The dispatch of an expert. -/
def dispatchOperation (expert output : UInt32) : PortableOperation F where
  id := "expert_dispatch_" ++ toString expert.toNat
  kind := .indexedMatMul
  inputs := [.value 17, .tensor (expertKey expert "gate"), .tensor (expertKey expert "up"),
    .tensor (expertKey expert "down")]
  output
  attributes := { expertDispatch := some expert }

/-- The accumulation of an expert. -/
def accumulateOperation (expert accumulator output next : UInt32) : PortableOperation F :=
  plainOperation ("expert_accumulate_" ++ toString expert.toNat) .residualAdd
    [.value accumulator, .value output] next

/-- The loop over the selected experts, with the index and the accumulator; the
last accumulator stands beside the operations. -/
def expertOperations : List UInt32 → Nat → UInt32 →
    Except String (List (PortableOperation F) × UInt32)
  | [], _, accumulator => .ok ([], accumulator)
  | expert :: rest, index, accumulator => do
      let output ← valueId 1000 index
      let next ← valueId 2000 index
      let (operations, last) ← expertOperations rest (index + 1) next
      pure (dispatchOperation expert output ::
        accumulateOperation expert accumulator output next :: operations, last)

/-- The bindings of an expert. -/
def expertBindings (catalog : LayerCatalog) (expert : UInt32) :
    Except String (List TensorBinding) := do
  let gate ← catalog.entry expert 1
  let up ← catalog.entry expert 2
  let down ← catalog.entry expert 3
  pure [⟨expertKey expert "gate", gate⟩, ⟨expertKey expert "up", up⟩,
    ⟨expertKey expert "down", down⟩]

/-- The operations behind the experts. -/
def sharedOperations (accumulator : UInt32) : List (PortableOperation F) :=
  [matmulOperation "shared_gate" 17 "block.shared.gate" 300,
    activationOperation "shared_silu" 300 301 .silu,
    matmulOperation "shared_up" 17 "block.shared.up" 302,
    plainOperation "shared_multiply" .elementwiseMul [.value 301, .value 302] 303,
    matmulOperation "shared_down" 303 "block.shared.down" 304,
    plainOperation "moe_combine" .residualAdd [.value accumulator, .value 304] 305,
    plainOperation "final_block_residual" .residualAdd [.value 16, .value 305] 306]

/-- `build_expert_graph`. -/
def buildExpertGraph (catalog : LayerCatalog) (selected : List UInt32) :
    Except String (PortableProgram × PortableRegion F) := do
  let experts ← selected.mapM (expertBindings catalog)
  let (operations, accumulator) ← expertOperations selected 0 18
  pure
    ({ tensorBindings :=
        [⟨"block.post_attention_norm.weight", catalog.postNorm⟩,
          ⟨"block.shared.gate", catalog.sharedGate⟩, ⟨"block.shared.up", catalog.sharedUp⟩,
          ⟨"block.shared.down", catalog.sharedDown⟩] ++ experts.flatten
       stateRefs := [] },
      { id := "portable-layer-" ++ toString catalog.layer.toNat ++ "-moe"
        input := 16
        output := 306
        operations := normOperation :: plainOperation "routed_zero" .zeroLike [.value 17] 18 ::
          (operations ++ sharedOperations accumulator) })

end Build

end VBuf.Runtime
