import VBuf.Ggml.LocalMaterializer
import VBuf.Ggml.SharedResidency
import VBuf.Ggml.SliceRef

/-!
# The generation session

`VbufGenerationSession::run` generates tokens position by position.  Each
position asks for slices of the artifact: an embedding row, the attention and
feed-forward tensors of every block, and the output tensors.  The arithmetic on
activations is a parameter.  The reference control of the qualification mode,
which asks for the same slices again, the timing and the printing are left out.
-/

namespace VBuf.Ggml

open VBuf.Lib

/-! ### Metadata -/

/-- A directory entry of the artifact, with its physical range. -/
structure DirectoryTensor where
  name : String
  representation : UInt8
  dimensions : List UInt64
  payload : List UInt8
  offset : UInt64
  length : UInt64
  deriving DecidableEq, Repr

/-- `Meta`: `id` is the position in the directory. -/
structure Meta where
  name : String
  view : TensorView
  id : UInt64
  offset : UInt64
  deriving DecidableEq, Repr

/-- `load_metadata`. -/
def loadMetadata (directory : List DirectoryTensor) : List Meta :=
  directory.mapIdx fun i tensor =>
    { name := tensor.name
      view := ⟨tensor.representation, tensor.dimensions, tensor.payload, tensor.length⟩
      id := UInt64.ofNat i
      offset := tensor.offset }

def lookup (tensors : List Meta) (name : String) : Except String Meta :=
  match tensors.find? (fun tensor => tensor.name == name) with
  | some tensor => .ok tensor
  | none => .error ("missing tensor: " ++ name)

structure LayerPlan where
  metadata : List Meta
  blockId : UInt32
  namespaceBase : UInt32
  deriving DecidableEq, Repr

/-- The tensor of a block under the name of block 1. -/
def blockAlias (blockName : String) (base : UInt32) (original : Meta) : Option Meta :=
  if blockName.toList.isPrefixOf original.name.toList then
    some { original with
      name := "blk.1." ++ String.ofList (original.name.toList.drop blockName.length)
      id := original.id + base.toUInt64 }
  else none

/-- `make_plan`. -/
def makePlan (all : List Meta) (blockId base : UInt32) : Except String LayerPlan :=
  match all.filterMap (blockAlias ("blk." ++ toString blockId.toNat ++ ".") base) with
  | [] => .error "block has no tensors"
  | metadata => .ok { metadata, blockId, namespaceBase := base }

/-- The members of the session that say which slices there are. -/
structure VbufGenerationSession where
  metadata : List Meta
  plans : List LayerPlan
  deriving DecidableEq, Repr

/-- The constructor. -/
def VbufGenerationSession.create (directory : List DirectoryTensor) (blockCount : UInt32) :
    Except String VbufGenerationSession := do
  if blockCount = 0 then .error "block count must be positive"
  else
    let metadata := loadMetadata directory
    let plans ← (List.range blockCount.toNat).mapM fun block =>
      makePlan metadata (UInt32.ofNat block) (namespaceBase (UInt32.ofNat block))
    .ok { metadata, plans }

/-! ### Slices -/

/-- `full_ref` and `persistent_ref`. -/
def fullRef (tensor : Meta) : PersistentTensorRef := ⟨tensor.id, tensor.name, tensor.view, tensor.offset⟩

/-- `ExpertTensor`. -/
structure ExpertTensor where
  name : String
  id : UInt64
  representation : UInt8
  dimensions : List UInt64
  payload : List UInt8
  offset : UInt64
  sliceOffset : UInt64 := 0
  bytes : UInt64
  deriving DecidableEq, Repr

/-- `ExpertTensor::ref`. -/
def ExpertTensor.ref (tensor : ExpertTensor) : PersistentTensorRef where
  tensorId := tensor.id
  name := tensor.name
  view := ⟨tensor.representation, tensor.dimensions, tensor.payload.drop tensor.sliceOffset.toNat,
    tensor.bytes⟩
  sourceOffset := tensor.offset + tensor.sliceOffset

def embeddingRow (full : Meta) (token : UInt32) : Except String ExpertTensor :=
  match full.view.dimensions with
  | [width, rows] =>
      if width ≠ 2048 ∨ token.toUInt64 ≥ rows then .error "unexpected embedding geometry"
      else
        let rowBytes := full.view.payloadLen / rows
        .ok
          { name := full.name
            id := full.id + 1000000 + token.toUInt64
            representation := full.view.representation
            dimensions := [width, 1]
            payload := full.view.payload
            offset := full.offset
            sliceOffset := rowBytes * token.toUInt64
            bytes := rowBytes }
  | _ => .error "unexpected embedding geometry"

def makeExpert (full : Meta) (expert : UInt32) : Except String ExpertTensor :=
  match full.view.dimensions with
  | [width, height, experts] =>
      if experts ≠ 64 ∨ full.view.payloadLen % experts ≠ 0 then
        .error "unexpected expert tensor geometry"
      else
        .ok
          { name := full.name
            id := full.id
            representation := full.view.representation
            dimensions := [width, height]
            payload := full.view.payload
            offset := full.offset
            sliceOffset := full.view.payloadLen / experts * expert.toUInt64
            bytes := full.view.payloadLen / experts }
  | _ => .error "unexpected expert tensor geometry"

/-- `dense_tensor` and `shared_tensor`; `kind` begins the message. -/
def rankTwoTensor (kind : String) (full : Meta) : Except String ExpertTensor :=
  match full.view.dimensions with
  | [width, height] =>
      .ok
        { name := full.name
          id := full.id
          representation := full.view.representation
          dimensions := [width, height]
          payload := full.view.payload
          offset := full.offset
          bytes := full.view.payloadLen }
  | _ => .error (kind ++ " tensor is not rank two")

def denseTensor (full : Meta) : Except String ExpertTensor := rankTwoTensor "dense" full

def sharedTensor (full : Meta) : Except String ExpertTensor := rankTwoTensor "shared" full

/-- `AttentionTensors`, in the order of their use. -/
inductive AttentionTensor
  | norm
  | q
  | kvA
  | kvANorm
  | kvB
  | output
  deriving DecidableEq, Repr

def AttentionTensor.all : List AttentionTensor := [norm, q, kvA, kvANorm, kvB, output]

def AttentionTensor.name : AttentionTensor → String
  | norm => "blk.1.attn_norm.weight"
  | q => "blk.1.attn_q.weight"
  | kvA => "blk.1.attn_kv_a_mqa.weight"
  | kvANorm => "blk.1.attn_kv_a_norm.weight"
  | kvB => "blk.1.attn_kv_b.weight"
  | output => "blk.1.attn_output.weight"

/-- The persistent tensors of an expert graph, by their number in it. -/
inductive ExpertPart
  | gate
  | up
  | down
  deriving DecidableEq, Repr

def ExpertPart.all : List ExpertPart := [gate, up, down]

def ExpertPart.number : ExpertPart → UInt32
  | gate => 0
  | up => 1
  | down => 2

def ExpertPart.name (suffix : String) : ExpertPart → String
  | gate => "blk.1.ffn_gate" ++ suffix ++ ".weight"
  | up => "blk.1.ffn_up" ++ suffix ++ ".weight"
  | down => "blk.1.ffn_down" ++ suffix ++ ".weight"

/-- What the session asks for. -/
inductive SliceRequest
  | embeddingRow (token : UInt32)
  | attention (block : UInt32) (tensor : AttentionTensor)
  | ffnNorm (block : UInt32)
  | router (block : UInt32)
  | denseExpert (block : UInt32) (part : ExpertPart)
  | sharedExpert (block : UInt32) (part : ExpertPart)
  | routedExpert (block expert : UInt32) (part : ExpertPart)
  | outputNorm (position : UInt32)
  | outputHead (position : UInt32)
  deriving DecidableEq, Repr

namespace VbufGenerationSession

variable (session : VbufGenerationSession)

/-- A block that is looped over. -/
def planAt (block : UInt32) : Except String LayerPlan :=
  match session.plans.find? (fun plan => plan.blockId == block) with
  | some plan => .ok plan
  | none => .error "block is not prepared"

def lookupBlock (block : UInt32) (name : String) : Except String Meta := do
  let plan ← session.planAt block
  lookup plan.metadata name

/-- The number and the tensor of a slice. -/
def resolve : SliceRequest → Except String (SliceNumber × PersistentTensorRef)
  | .embeddingRow token => do
      let full ← lookup session.metadata "token_embd.weight"
      let row ← Ggml.embeddingRow full token
      .ok (.embedding token, row.ref)
  | .attention block tensor => do
      let full ← session.lookupBlock block tensor.name
      .ok (.attention full.id, fullRef full)
  | .ffnNorm block => do
      let full ← session.lookupBlock block "blk.1.ffn_norm.weight"
      .ok (.feedForward block 500, fullRef full)
  | .router block => do
      let full ← session.lookupBlock block "blk.1.ffn_gate_inp.weight"
      .ok (.feedForward block 501, fullRef full)
  | .denseExpert block part => do
      let full ← session.lookupBlock block (part.name "")
      let tensor ← denseTensor full
      .ok (.feedForward block (700 + part.number), tensor.ref)
  | .sharedExpert block part => do
      let full ← session.lookupBlock block (part.name "_shexp")
      let tensor ← sharedTensor full
      .ok (.feedForward block (600 + part.number), tensor.ref)
  | .routedExpert block expert part => do
      let full ← session.lookupBlock block (part.name "_exps")
      let tensor ← makeExpert full expert
      .ok (.feedForward block (expert * 3 + part.number), tensor.ref)
  | .outputNorm position => do
      let full ← lookup session.metadata "output_norm.weight"
      .ok (.outputNorm position, fullRef full)
  | .outputHead position => do
      let full ← lookup session.metadata "output.weight"
      .ok (.outputHead position, fullRef full)

/-- The slice itself: its bytes in the artifact, and its geometry. -/
def slice (artifact : UInt64 → UInt64 → List UInt8) (request : SliceRequest) :
    Option MaterializedTensor :=
  match session.resolve request with
  | .ok (_, tensor) => MaterializedTensor.assignView tensor.view
      (artifact tensor.sourceOffset tensor.view.payloadLen)
  | .error _ => none

end VbufGenerationSession

/-! ### Generation -/

/-- A client of the materializer: it asks for slices and emits tokens. -/
inductive Client (α : Type)
  | done (result : α)
  | fail (error : String)
  | fetch (request : SliceRequest) (next : MaterializedTensor → Client α)
  | emit (token : UInt32) (next : Client α)

namespace Client

variable {α γ : Type}

def bind : Client α → (α → Client γ) → Client γ
  | done result, next => next result
  | fail error, _ => fail error
  | fetch request rest, next => fetch request (fun tensor => bind (rest tensor) next)
  | emit token rest, next => emit token (bind rest next)

instance : Monad Client where
  pure := done
  bind := bind

def fetchSlice (request : SliceRequest) : Client MaterializedTensor := fetch request done

def fetchSlices (requests : List SliceRequest) : Client (List MaterializedTensor) :=
  requests.mapM fetchSlice

/-- A computation that ends the generation when it fails. -/
def compute : Option α → Client α
  | some result => done result
  | none => fail "autoregressive transformer failure"

/-- The tokens of a client whose slices are the right ones. -/
def tokens (content : SliceRequest → Option MaterializedTensor) : Client α → List UInt32
  | done _ => []
  | fail _ => []
  | fetch request next =>
      match content request with
      | some tensor => tokens content (next tensor)
      | none => []
  | emit token next => token :: tokens content next

/-- The slices that such a client asks for. -/
def requests (content : SliceRequest → Option MaterializedTensor) : Client α → List SliceRequest
  | done _ => []
  | fail _ => []
  | fetch request next =>
      request :: match content request with
        | some tensor => requests content (next tensor)
        | none => []
  | emit _ next => requests content next

end Client

/-- The arithmetic of a position, on activations `A` and the attention state `S`
of a block.  A computation can fail. -/
structure Kernels (A S : Type) where
  initialState : S
  embedding : MaterializedTensor → Option A
  attention : UInt32 → List MaterializedTensor → A → S → Option (A × S)
  denseLayer : MaterializedTensor → List MaterializedTensor → A → A → Option A
  route : MaterializedTensor → MaterializedTensor → A → Option (List UInt32)
  moeLayer : MaterializedTensor → MaterializedTensor → List MaterializedTensor →
    List MaterializedTensor → A → Option A
  greedy : MaterializedTensor → MaterializedTensor → A → Option UInt32

/-- `VbufGenerationConfig`, as far as it decides the tokens. -/
structure VbufGenerationConfig where
  blockCount : UInt32
  maxNewTokens : UInt32
  promptTokens : List UInt32
  stopToken : Option UInt32 := none
  deriving DecidableEq, Repr

section Generation

variable {A S : Type} (kernels : Kernels A S)

/-- `run_embedding`. -/
def runEmbedding (token : UInt32) : Client A := do
  let row ← Client.fetchSlice (.embeddingRow token)
  Client.compute (kernels.embedding row)

/-- `run_dense_layer`, on the attention output and the block input it is added to. -/
def runDenseLayer (block : UInt32) (attended input : A) : Client A := do
  let norm ← Client.fetchSlice (.ffnNorm block)
  let experts ← Client.fetchSlices (ExpertPart.all.map (.denseExpert block))
  Client.compute (kernels.denseLayer norm experts attended input)

/-- `run_layer`: the router selects the experts that are asked for. -/
def runLayer (block : UInt32) (input : A) : Client A := do
  let norm ← Client.fetchSlice (.ffnNorm block)
  let router ← Client.fetchSlice (.router block)
  let selected ← Client.compute (kernels.route norm router input)
  let routed ← Client.fetchSlices
    (selected.flatMap (fun expert => ExpertPart.all.map (.routedExpert block expert)))
  let shared ← Client.fetchSlices (ExpertPart.all.map (.sharedExpert block))
  Client.compute (kernels.moeLayer norm router routed shared input)

/-- One block of `run_sequence`; block 0 is dense. -/
def runBlock (position block : UInt32) (input : A) (state : S) : Client (A × S) := do
  let weights ← Client.fetchSlices (AttentionTensor.all.map (.attention block))
  let (attended, state) ← Client.compute (kernels.attention position weights input state)
  let output ← if block = 0 then runDenseLayer kernels block attended input
    else runLayer kernels block attended
  return (output, state)

/-- `run_sequence`, over the blocks and their states. -/
def runSequence (position : UInt32) : List (UInt32 × S) → A → Client (A × List (UInt32 × S))
  | [], input => return (input, [])
  | (block, state) :: rest, input => do
      let (output, state) ← runBlock kernels position block input state
      let (output, states) ← runSequence position rest output
      return (output, (block, state) :: states)

/-- `run_output_head` and `greedy`. -/
def runOutputHead (position : UInt32) (hidden : A) : Client UInt32 := do
  let norm ← Client.fetchSlice (.outputNorm position)
  let head ← Client.fetchSlice (.outputHead position)
  Client.compute (kernels.greedy norm head hidden)

/-- The loop of `run` over the positions that are left; `emitted` tokens are out. -/
def generateFrom (config : VbufGenerationConfig) :
    Nat → Nat → UInt32 → List (UInt32 × S) → Nat → Client Unit
  | 0, _, _, _, _ => return ()
  | steps + 1, position, inputToken, states, emitted => do
      let input ← runEmbedding kernels inputToken
      let (output, states) ← runSequence kernels (UInt32.ofNat position) states input
      match config.promptTokens[position + 1]? with
      | some promptToken => generateFrom config steps (position + 1) promptToken states emitted
      | none =>
          let token ← runOutputHead kernels (UInt32.ofNat position) output
          if config.stopToken = some token then return ()
          else
            Client.emit token
              (if emitted + 1 = config.maxNewTokens.toNat then return ()
              else generateFrom config steps (position + 1) token states (emitted + 1))

/-- `VbufGenerationSession::run`. -/
def VbufGenerationSession.generate (session : VbufGenerationSession)
    (config : VbufGenerationConfig) : Client Unit :=
  match config.promptTokens with
  | [] => .fail "prompt tokenization produced no tokens"
  | first :: _ =>
      if config.blockCount = 0 ∨ config.maxNewTokens = 0 then
        .fail "generation bounds must be positive"
      else if config.blockCount.toNat ≠ session.plans.length then
        .fail "generation block count differs from prepared session"
      else
        let totalPositions := config.promptTokens.length + config.maxNewTokens.toNat
        if totalPositions > 4096 then .fail "generation request exceeds bounded position limit"
        else
          generateFrom kernels config totalPositions 0 first
            (session.plans.map (fun plan => (plan.blockId, kernels.initialState))) 0

end Generation

end VBuf.Ggml
