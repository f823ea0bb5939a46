import VBuf.Ggml.PortableExecutor

/-!
# The layers of the model

The attention of a token, the dense block and the mixture of experts of one row,
as the layer tools compute them in normal inference mode.  A graph of the backend
is a function of a row; traces, timing and the reference control are left out.
-/

namespace VBuf.Ggml.Prefill

open VBuf.Runtime

/-- An operation of the backend on the rows of an activation, with the width of the
rows it gives. -/
structure RowOp (F : Type) (width : Nat) where
  apply : List F → List F
  length_apply : ∀ row, (apply row).length = width

structure Activation (F : Type) where
  values : List F
  dimensions : List Nat
  deriving DecidableEq, Repr

/-- `Activation{ values, { 2048, 1 } }`. -/
def Activation.row {F : Type} (values : List F) : Activation F := ⟨values, [2048, 1]⟩

/-! ### Attention -/

/-- `RuntimeStateSlot`. -/
structure RuntimeStateSlot (F : Type) where
  width : UInt32
  maxPositions : UInt32
  values : List (List F)
  deriving DecidableEq, Repr

def RuntimeStateSlot.append {F : Type} (slot : RuntimeStateSlot F) (value : List F) :
    Except String (RuntimeStateSlot F) :=
  if value.length ≠ slot.width.toNat then .error "state value width mismatch"
  else if slot.values.length ≥ slot.maxPositions.toNat then
    .error "state position capacity exceeded"
  else .ok { slot with values := slot.values ++ [value] }

/-- The key and the value state of a layer. -/
structure LayerState (F : Type) where
  k : RuntimeStateSlot F
  v : RuntimeStateSlot F
  deriving DecidableEq, Repr

/-- `AttentionTensors`, as the operations they are used in. -/
structure AttentionTensors (F : Type) where
  norm : RowOp F 2048
  q : RowOp F 3072
  kvA : RowOp F 576
  kvANorm : RowOp F 512
  kvB : RowOp F 4096
  output : RowOp F 2048

/-- The functions of the rotary embedding. -/
structure RopeMath (F : Type) where
  pow : F → F → F
  cos : F → F
  sin : F → F

section Attention

variable {F : Type} [Field F] [LinearOrder F] (math : ExactMath F) (rope : RopeMath F)

/-- `rope_neox`, with its default base. -/
def ropeNeox (input : List F) (position dimension : Nat) : List F :=
  let half := dimension / 2
  (List.range half).foldl (fun output (i : Nat) =>
    let frequency := rope.pow 10000 (-2 * (i : F) / (dimension : F))
    let angle := (position : F) * frequency
    let c := rope.cos angle
    let s := rope.sin angle
    let a := input.getD i 0
    let b := input.getD (i + half) 0
    (output.set i (a * c - b * s)).set (i + half) (a * s + b * c)) input

/-- `attention_context`: 16 heads, each of 128 and 64 query components. -/
def attentionContext (qNope qPe : List F) (kState vState : List (List F)) (scale : F) : List F :=
  (List.range 16).flatMap fun head =>
    let q := (qNope.drop (head * 128)).take 128 ++ (qPe.drop (head * 64)).take 64
    let scores := kState.map fun key =>
      (List.range q.length).foldl (fun score i => score + q.getD i 0 * key.getD (head * 192 + i) 0) 0 *
        scale
    (List.range 128).map fun i =>
      weighted math scores (fun position => (vState.getD position []).getD (head * 128 + i) 0)

/-- `compute_token`: the output, which is empty when the states do not take the token. -/
def computeToken (tensors : AttentionTensors F) (input : List F) (position : Nat)
    (state : LayerState F) : List F × LayerState F :=
  let normalized := tensors.norm.apply input
  let q := tensors.q.apply normalized
  let kvA := tensors.kvA.apply normalized
  let kvRope := kvA.drop 512
  let kvB := tensors.kvB.apply (tensors.kvANorm.apply (kvA.take 512))
  let qNope := (List.range 16).flatMap fun head => (q.drop (head * 192)).take 128
  let qPe := (List.range 16).flatMap fun head =>
    ropeNeox rope ((q.drop (head * 192 + 128)).take 64) position 64
  let keyRope := ropeNeox rope kvRope position 64
  let k := (List.range 16).flatMap fun head =>
    (List.range 128).map (fun i => kvB.getD (head * 256 + i) 0) ++ keyRope
  let v := (List.range 16).flatMap fun head =>
    (List.range 128).map (fun i => kvB.getD (head * 256 + 128 + i) 0)
  if position ≠ state.k.values.length ∨ position ≠ state.v.values.length then ([], state)
  else
    match state.k.append k with
    | .error _ => ([], state)
    | .ok kState =>
        match state.v.append v with
        | .error _ => ([], { state with k := kState })
        | .ok vState =>
            let context := attentionContext math qNope qPe kState.values vState.values
              (1 / math.sqrt 192)
            (tensors.output.apply context, ⟨kState, vState⟩)

end Attention

/-! ### Feed-forward -/

/-- The plan of a layer: its block and the operations of its tensors.  An expert is
its gate, up and down matrices around the gated activation. -/
structure LayerPlan (F : Type) where
  blockId : UInt32
  attention : AttentionTensors F
  ffnNorm : RowOp F 2048
  dense : RowOp F 2048
  router : RowOp F 64
  expert : UInt32 → RowOp F 2048
  shared : RowOp F 2048

/-- `LayerRun`, without its traces. -/
structure LayerRun (F : Type) where
  ok : Bool := true
  failureDetail : String := ""
  finalOutput : List F := []

section FeedForward

variable {F : Type} [Field F] [LinearOrder F] (math : ExactMath F)

/-- The first value or weight that `weighted_merge` refuses. -/
def mergeFault (width : Nat) (merged : List F × F) : Option String :=
  if merged.1.length ≠ width then some "merge value shapes differ"
  else if math.isFinite merged.2 = false then some "merge weight is non-finite"
  else none

/-- `weighted_merge`. -/
def weightedMerge (values : List (List F)) (weights : List F) : Except String (List F) :=
  match values with
  | [] => .error "merge requires at least one value"
  | first :: _ =>
      if values.length ≠ weights.length then .error "merge value and weight counts differ"
      else if first.length = 0 then .error "merge values must be non-empty"
      else
        match (values.zip weights).findSome? (mergeFault math first.length) with
        | some error => .error error
        | none =>
            .ok ((values.zip weights).foldl
              (fun output merged =>
                List.zipWith (fun o value => o + merged.2 * value) output merged.1)
              (List.replicate first.length 0))

/-- `normalized_selected_weights`. -/
def normalizedSelectedWeights (logits : List F) (selection : TopKSelection F) : List F :=
  let top := maximum logits
  let probabilities := logits.map (fun logit => math.exp (logit - top))
  let total := probabilities.foldl (· + ·) 0
  let probability := fun id : UInt32 => probabilities.getD id.toNat 0 / total
  let selectedTotal := selection.ids.foldl (fun sum id => sum + probability id) 0
  selection.ids.map (fun id => probability id / selectedTotal)

/-- `run_dense_layer`. -/
def runDenseLayer (plan : LayerPlan F) (input : Activation F) : LayerRun F :=
  let actual := plan.dense.apply (plan.ffnNorm.apply input.values)
  match weightedMerge math [actual, input.values] [1, 1] with
  | .ok output => { finalOutput := output }
  | .error error => { ok := false, failureDetail := "dense FFN residual merge failed: " ++ error }

/-- `run_layer`: a failed merge leaves its output empty and fails those after it. -/
def runLayer (plan : LayerPlan F) (input : Activation F) : Except String (LayerRun F) :=
  let normalized := plan.ffnNorm.apply input.values
  let logits := plan.router.apply normalized
  match deterministicTopK math logits 64 6 with
  | .error error => .error error
  | .ok selection =>
      let weights := normalizedSelectedWeights math logits selection
      let routed := weightedMerge math
        (selection.ids.map (fun id => (plan.expert id).apply normalized)) weights
      let shared := plan.shared.apply normalized
      let final := do
        let composed ← weightedMerge math [routed.toOption.getD [], shared] [1, 1]
        weightedMerge math [composed, input.values] [1, 1]
      match routed, final with
      | .ok _, .ok output => .ok { finalOutput := output }
      | .error error, _ =>
          .ok { ok := false, failureDetail := "routed expert merge failed: " ++ error }
      | .ok _, .error error =>
          .ok { ok := false, failureDetail := "MoE residual composition failed: " ++ error }

end FeedForward

/-! ### A row through the layers -/

/-- `SequenceRun`, without its traces. -/
structure SequenceRun (F : Type) where
  ok : Bool := true
  failureDetail : String := ""
  completedBlocks : Nat := 0
  output : Activation F := ⟨[], []⟩

section Sequence

variable {F : Type} [Field F] [LinearOrder F] (math : ExactMath F) (rope : RopeMath F)

/-- The loop of `run_sequence`, for the plans that are left and their states. -/
def runSequenceFrom (position : Nat) : List (LayerPlan F) → Activation F → List (LayerState F) →
    SequenceRun F → Except String (SequenceRun F × List (LayerState F))
  | [], actual, states, run => .ok ({ run with output := actual }, states)
  | _ :: _, _, [], _ => .error "layer state is missing"
  | plan :: plans, actual, state :: states, run =>
      let (attention, state) := computeToken math rope plan.attention actual.values position state
      if attention = [] then
        .ok ({ run with ok := false, failureDetail := "attention output is empty" }, state :: states)
      else
        let withResidual := (List.range 2048).map fun i =>
          attention.getD i 0 + actual.values.getD i 0
        let ffn := if plan.blockId = 0 then
            .ok (runDenseLayer math plan (Activation.row withResidual))
          else runLayer math plan (Activation.row attention)
        match ffn with
        | .error error => .error error
        | .ok ffn =>
            if ffn.ok = false then
              .ok ({ run with ok := false, failureDetail := ffn.failureDetail }, state :: states)
            else
              match runSequenceFrom position plans (Activation.row ffn.finalOutput) states
                  { run with completedBlocks := run.completedBlocks + 1 } with
              | .error error => .error error
              | .ok (run, states) => .ok (run, state :: states)

/-- `run_sequence`. -/
def runSequence (plans : List (LayerPlan F)) (input : Activation F) (position : Nat)
    (states : List (LayerState F)) : Except String (SequenceRun F × List (LayerState F)) :=
  runSequenceFrom math rope position plans input states {}

end Sequence

end VBuf.Ggml.Prefill
