import VBuf.Ggml.MoeLayer

/-!
# Batched prefill

All rows of a prompt go through a layer at once.  In a mixture of experts the rows
are grouped by the experts they select, and the results scattered back.
-/

namespace VBuf.Ggml.Prefill

open VBuf.Lib VBuf.Runtime

variable {F : Type}

/-- `batch_rows`. -/
def batchRows (rows : List (Activation F)) : Except String (Activation F) :=
  match rows with
  | [] => .ok ⟨[], []⟩
  | first :: _ =>
      match first.dimensions with
      | [] => .error "vector index is out of range"
      | width :: _ =>
          if ∀ row ∈ rows, row.dimensions.take 2 = [width, 1] ∧ row.values.length = width then
            .ok ⟨rows.flatMap Activation.values, [width, rows.length]⟩
          else .error "batched activation row geometry mismatch"

/-- The values of a row. -/
def rowSlice (values : List F) (width row : Nat) : List F := (values.drop (row * width)).take width

/-- `batch_row`. -/
def batchRow (batch : Activation F) (row : Nat) : Except String (Activation F) :=
  match batch.dimensions with
  | width :: rows :: _ =>
      if row ≥ rows then .error "batched activation row out of range"
      else .ok ⟨rowSlice batch.values width row, [width, 1]⟩
  | _ => .error "batched activation row out of range"

/-- An operation on each row of a batch. -/
def RowOp.applyBatch {width : Nat} (op : RowOp F width) (input : Activation F) : List F :=
  match input.dimensions with
  | columns :: rows :: _ =>
      (List.range rows).flatMap fun row => op.apply (rowSlice input.values columns row)
  | _ => []

/-- The loop that writes `width` values from `base` on. -/
def writeRow (out : List F) (base width : Nat) (f : Nat → F) : List F :=
  (List.range width).foldl (fun out i => out.set (base + i) (f i)) out

variable [Field F] [LinearOrder F] (math : ExactMath F) (rope : RopeMath F)

/-- `run_dense_layer_batch`. -/
def runDenseLayerBatch (plan : LayerPlan F) (inputs : List (Activation F)) :
    Except String (List (Activation F)) :=
  if inputs = [] then .ok []
  else do
    let input ← batchRows inputs
    let normalized : Activation F := ⟨plan.ffnNorm.applyBatch input, [2048, inputs.length]⟩
    let ffn : Activation F := ⟨plan.dense.applyBatch normalized, [2048, inputs.length]⟩
    (List.range inputs.length).mapM fun row => do
      let output ← batchRow ffn row
      let residual := (inputs.getD row ⟨[], []⟩).values
      .ok { output with
        values := (List.range 2048).map fun i => output.values.getD i 0 + residual.getD i 0 }

/-- The selection of a row and the weights of the experts it selects. -/
structure RowRoute (F : Type) where
  selection : TopKSelection F
  weights : List F

/-- The experts of a row, from the logits of all rows. -/
def routeRow (logits : List F) (row : Nat) : Except String (RowRoute F) := do
  let rowLogits := (List.range 64).map fun expert => logits.getD (expert + 64 * row) 0
  let selection ← deterministicTopK math rowLogits 64 6
  .ok ⟨selection, normalizedSelectedWeights math rowLogits selection⟩

/-- `rows_by_expert[expert]`: the rows that select it, as often as they do. -/
def rowsByExpert (routes : List (RowRoute F)) (expert : Nat) : List Nat :=
  (List.range routes.length).flatMap fun row =>
    match routes[row]? with
    | some route => (route.selection.ids.filter (fun id => id.toNat = expert)).map (fun _ => row)
    | none => []

/-- `routed_by_expert[expert]`: the rows of an expert are gathered and its results
scattered back; the other rows stay zero. -/
def routedByExpert (plan : LayerPlan F) (normalized : Activation F) (count expert : Nat)
    (grouped : List Nat) : Except String (List F) :=
  let zeros := List.replicate (count * 2048) 0
  if grouped = [] then .ok zeros
  else do
    let expertInputs ← grouped.mapM (batchRow normalized)
    let expertBatch ← batchRows expertInputs
    let values := (plan.expert (UInt32.ofNat expert)).applyBatch expertBatch
    .ok ((List.range grouped.length).foldl (fun out group =>
      writeRow out (grouped.getD group 0 * 2048) 2048 (fun i => values.getD (group * 2048 + i) 0))
      zeros)

/-- The weighted results of the experts of a row. -/
def mergeRow (routed : List (List F)) (route : RowRoute F) (row : Nat) : Except String (List F) :=
  mapErr (fun error => "batched routed merge failed: " ++ error)
    (weightedMerge math
      (route.selection.ids.map fun expert => rowSlice (routed.getD expert.toNat []) 2048 row)
      route.weights)

/-- `run_moe_layer_batch`. -/
def runMoeLayerBatch (plan : LayerPlan F) (inputs : List (Activation F)) :
    Except String (List (Activation F)) :=
  if inputs = [] then .ok []
  else do
    let input ← batchRows inputs
    let normalized : Activation F := ⟨plan.ffnNorm.applyBatch input, [2048, inputs.length]⟩
    let logits := plan.router.applyBatch normalized
    rejectIf (logits.length ≠ 64 * inputs.length) "batched MoE router shape mismatch"
    let routes ← (List.range inputs.length).mapM (routeRow math logits)
    let routedExperts ← (List.range 64).mapM fun expert =>
      routedByExpert plan normalized inputs.length expert (rowsByExpert routes expert)
    let merged ← (List.range inputs.length).mapM fun row =>
      mergeRow math routedExperts (routes.getD row ⟨⟨[], []⟩, []⟩) row
    let routed := (List.range inputs.length).foldl (fun out row =>
      let values := merged.getD row []
      writeRow out (row * 2048) values.length (fun i => values.getD i 0))
      (List.replicate (inputs.length * 2048) 0)
    let shared := plan.shared.applyBatch normalized
    .ok ((List.range inputs.length).map fun row =>
      Activation.row ((List.range 2048).map fun i =>
        routed.getD (row * 2048 + i) 0 + shared.getD (row * 2048 + i) 0 +
          (inputs.getD row ⟨[], []⟩).values.getD i 0))

/-- The attention of all rows of a layer; the first layer adds its input. -/
def attentionRows (plan : LayerPlan F) (layer : Nat) : Nat → List (Activation F) → LayerState F →
    Except String (List (Activation F) × LayerState F)
  | _, [], state => .ok ([], state)
  | position, current :: rest, state =>
      let (attention, state) := computeToken math rope plan.attention current.values position state
      if attention = [] then .error "batched attention failed"
      else
        let ffnInput := if layer = 0 then
            (List.range attention.length).map fun i =>
              attention.getD i 0 + current.values.getD i 0
          else attention
        match attentionRows plan layer (position + 1) rest state with
        | .error error => .error error
        | .ok (outputs, state) => .ok (Activation.row ffnInput :: outputs, state)

/-- The loop of `run_sequence_batched`, for the plans that are left and their states. -/
def runSequenceBatchedFrom : Nat → List (LayerPlan F) → List (Activation F) →
    List (LayerState F) → Except String (List (Activation F) × List (LayerState F))
  | _, [], current, states => .ok (current, states)
  | _, _ :: _, _, [] => .error "layer state is missing"
  | layer, plan :: plans, current, state :: states => do
      let (attention, state) ← attentionRows math rope plan layer 0 current state
      let current ← (if layer = 0 then runDenseLayerBatch plan attention
        else runMoeLayerBatch math plan attention)
      let (outputs, states) ← runSequenceBatchedFrom (layer + 1) plans current states
      .ok (outputs, state :: states)

/-- `run_sequence_batched`. -/
def runSequenceBatched (plans : List (LayerPlan F)) (inputs : List (Activation F))
    (states : List (LayerState F)) : Except String (List (Activation F) × List (LayerState F)) :=
  runSequenceBatchedFrom math rope 0 plans inputs states

end VBuf.Ggml.Prefill
