import Mathlib.Tactic.Ring
import VBuf.Lib.Outcome
import VBuf.Runtime.AttentionSpec
import VBuf.Runtime.ExpertDispatch

/-!
# The kernels with their checks

The operators of the generic executor once more, as the machine runs them: every index,
quotient, sum and product is checked, and what fails a check ends the program.  The cosine
and the sine of a rotary angle are a parameter.
-/

namespace VBuf.Runtime.Checked

open VBuf.Lib VBuf.Lib.Outcome

section Kernels

variable {F : Type} [Field F] [LinearOrder F] (math : ExactMath F)

/-! ### Matrices and rows -/

/-- The innermost loop of `matmul`. -/
def rowSum (input weight : List F) (width row out : Nat) : Outcome F :=
  (List.range width).foldlM (fun sum column => do
    let left ← mulAdd row width column
    let x ← read input left
    let right ← mulAdd out width column
    let y ← read weight right
    .ok (sum + x * y)) 0

/-- `matmul`. -/
def matmul (input weight : GenericTensor F) : Outcome (GenericTensor F) := do
  let inputWidth ← ofExcept (checkedLastDimension input)
  ofExcept (rejectIf (weight.dimensions.length ≠ 2 ∨ weight.dimensions[1]? ≠ some inputWidth)
    "generic matmul geometry is invalid")
  let _ ← ofExcept input.elements
  let _ ← ofExcept weight.elements
  let width := inputWidth.toNat
  let outputWidth := (weight.dimensions.headD 0).toNat
  let rows ← divide input.values.length width
  let count ← checked (rows * outputWidth)
  allocate count
  let values ← (List.range rows).foldlM (fun output row =>
    (List.range outputWidth).foldlM (fun output out => do
      let sum ← rowSum input.values weight.values width row out
      let index ← mulAdd row outputWidth out
      write output index sum) output) (List.replicate count 0)
  .ok ⟨input.dimensions.dropLast ++ [weight.dimensions.headD 0], values⟩

/-- A row of `rms_norm`. -/
def normRow (input weight : List F) (epsilon : F) (width : Nat) (output : List F) (row : Nat) :
    Outcome (List F) := do
  let start ← checked (row * width)
  let _ ← checked (start + width)
  let chunk ← slice input start width
  let mean := chunk.foldl (fun sum value => sum + value * value) 0 / (width : F)
  let scale := (math.sqrt (mean + epsilon))⁻¹
  (List.range width).foldlM (fun output column => do
    let index ← checked (start + column)
    let value ← read input index
    let factor ← read weight column
    write output index (value * scale * factor)) output

/-- `rms_norm`. -/
def rmsNorm (input weight : GenericTensor F) (epsilon : F) : Outcome (GenericTensor F) := do
  let width ← ofExcept (checkedLastDimension input)
  ofExcept (rejectIf (weight.dimensions ≠ [width] ∨ weight.values.length ≠ width.toNat ∨
      math.isFinite epsilon = false) "generic RMSNorm geometry is invalid")
  let rows ← divide input.values.length width.toNat
  let values ← (List.range rows).foldlM
    (normRow math input.values weight.values epsilon width.toNat)
    (List.replicate input.values.length 0)
  .ok ⟨input.dimensions, values⟩

/-- `bias_add`; `chunks_exact_mut` does not take a width of zero. -/
def biasAdd (input bias : GenericTensor F) : Outcome (GenericTensor F) := do
  let width ← ofExcept (checkedLastDimension input)
  ofExcept (rejectIf (bias.dimensions ≠ [width] ∨ bias.values.length ≠ width.toNat)
    "generic bias geometry is invalid")
  let chunks ← divide input.values.length width.toNat
  let values ← (List.range chunks).foldlM (fun output row =>
    (List.range width.toNat).foldlM (fun output column => do
      let value ← read output (row * width.toNat + column)
      let addend ← read bias.values column
      write output (row * width.toNat + column) (value + addend)) output) input.values
  .ok ⟨input.dimensions, values⟩

/-! ### Rotary positions -/

/-- A pair of `rotary`. -/
def rotatePair (angle : RotaryAttributes F → Nat → Nat → F × F) (attrs : RotaryAttributes F)
    (input : List F) (base position : Nat) (output : List F) (index : Nat) :
    Outcome (List F) := do
  let half := attrs.rotaryDim.toNat / 2
  let place ← checked (attrs.positionStart.toNat + position)
  let leftIndex ← checked (base + index)
  let left ← read input leftIndex
  let middle ← checked (base + half)
  let rightIndex ← checked (middle + index)
  let right ← read input rightIndex
  -- the cosine and the sine
  let turn := angle attrs place index
  let output ← write output leftIndex (left * turn.1 - right * turn.2)
  write output rightIndex (right * turn.1 + left * turn.2)

/-- `rotary`. -/
def rotary (angle : RotaryAttributes F → Nat → Nat → F × F) (input : GenericTensor F)
    (attrs : RotaryAttributes F) : Outcome (GenericTensor F) := do
  ofExcept (rejectIf (input.dimensions.length ≠ 4 ∨ input.dimensions.getD 2 0 ≠ attrs.headCount ∨
      input.dimensions.getD 3 0 ≠ attrs.headDim ∨ attrs.rotaryDim % 2 ≠ 0)
    "generic rotary geometry is invalid")
  let batches := (input.dimensions.getD 0 0).toNat
  let sequence := (input.dimensions.getD 1 0).toNat
  let heads := attrs.headCount.toNat
  let values ← (List.range batches).foldlM (fun output batch =>
    (List.range sequence).foldlM (fun output position =>
      (List.range heads).foldlM (fun output head => do
        let row ← flatIndex batch [(sequence, position), (heads, head)]
        let base ← checked (row * attrs.headDim.toNat)
        (List.range (attrs.rotaryDim.toNat / 2)).foldlM
          (rotatePair angle attrs input.values base position) output) output) output) input.values
  .ok ⟨input.dimensions, values⟩

/-! ### Attention -/

/-- The checks of `attention`, before it computes anything. -/
def attentionChecks (query key value : GenericTensor F) (attrs : AttentionAttributes F)
    (state : GenericExecutionState F) : Outcome Unit := do
  ofExcept state.validatePayload
  let expectedQuery := [attrs.batchSize, attrs.queryLength, attrs.queryHeadCount, attrs.headDim]
  let expectedKv := [attrs.batchSize, attrs.queryLength, attrs.kvHeadCount, attrs.headDim]
  ofExcept (rejectIf (query.dimensions ≠ expectedQuery ∨ key.dimensions ≠ expectedKv ∨
      value.dimensions ≠ expectedKv ∨ state.bindingId ≠ attrs.state)
    "generic attention geometry or state is invalid")
  let total ← checked (state.length.toNat + attrs.queryLength.toNat)
  ofExcept (rejectIf (attrs.currentKvLength.toNat ≠ total ∨
      attrs.queryLength.toNat > state.capacity.toNat - state.length.toNat)
    "generic attention geometry or state is invalid")
  let remainder ← remainder attrs.queryHeadCount.toNat attrs.kvHeadCount.toNat
  ofExcept (rejectIf (remainder ≠ 0) "generic attention geometry or state is invalid")
  let _ ← ofExcept query.elements
  let _ ← ofExcept key.elements
  let _ ← ofExcept value.elements
  ofExcept (rejectIf (state.length ≠ 0 ∧ (state.batchSize ≠ attrs.batchSize ∨
      state.kvHeadCount ≠ attrs.kvHeadCount ∨ state.headDim ≠ attrs.headDim))
    "generic attention state geometry changed")

/-- The sizes of the loops of `attention`. -/
structure AttentionSizes where
  oldLength : Nat
  queryLength : Nat
  queryHeads : Nat
  kvHeads : Nat
  dimension : Nat
  group : Nat

namespace AttentionSizes

variable (sizes : AttentionSizes)

/-- A stored or a current component; both indices are computed. -/
def component (stored current : List F) (batch kvHead position component : Nat) : Outcome F := do
  let currentIndex ← flatIndex batch [(sizes.queryLength, position - sizes.oldLength),
    (sizes.kvHeads, kvHead), (sizes.dimension, component)]
  let stateIndex ← flatIndex batch [(sizes.oldLength, position), (sizes.kvHeads, kvHead),
    (sizes.dimension, component)]
  if position < sizes.oldLength then read stored stateIndex else read current currentIndex

/-- The product of a query head and a key head. -/
def dot (query stored current : List F) (batch queryPosition queryHead kvHead position : Nat) :
    Outcome F :=
  (List.range sizes.dimension).foldlM (fun dot component => do
    let index ← flatIndex batch [(sizes.queryLength, queryPosition),
      (sizes.queryHeads, queryHead), (sizes.dimension, component)]
    let k ← sizes.component stored current batch kvHead position component
    let q ← read query index
    .ok (dot + q * k)) 0

/-- A component of the output of a query head. -/
def mix (stored current weights : List F) (total : F) (batch kvHead length component : Nat) :
    Outcome F :=
  (List.range length).foldlM (fun sum position => do
    let v ← sizes.component stored current batch kvHead position component
    let weight ← read weights position
    .ok (sum + weight / total * v)) 0

/-- The last position that a query sees. -/
def last (attrs : AttentionAttributes F) (queryPosition : Nat) : Outcome Nat :=
  if attrs.mask = .causal then checked (sizes.oldLength + queryPosition)
  else subtract attrs.currentKvLength.toNat 1

/-- A query head of `attention`. -/
def head (query key value : List F) (attrs : AttentionAttributes F) (storedKey storedValue : List F)
    (batch queryPosition : Nat) (output : List F) (queryHead : Nat) : Outcome (List F) := do
  let kvHead ← divide queryHead sizes.group
  let last ← sizes.last attrs queryPosition
  let length ← checked (last + 1)
  allocate length
  let scores ← (List.range length).foldlM (fun scores position => do
    let dot ← sizes.dot query storedKey key batch queryPosition queryHead kvHead position
    write scores position (dot * attrs.scale)) (List.replicate length 0)
  let weights := scores.map fun score => math.exp (score - maximum scores)
  let total := weights.foldl (· + ·) 0
  (List.range sizes.dimension).foldlM (fun output component => do
    let sum ← sizes.mix storedValue value weights total batch kvHead length component
    let index ← flatIndex batch [(sizes.queryLength, queryPosition),
      (sizes.queryHeads, queryHead), (sizes.dimension, component)]
    write output index sum) output

end AttentionSizes

/-- `attention`: the output, and the state with the keys and values appended. -/
def attention (query key value : GenericTensor F) (attrs : AttentionAttributes F)
    (state : GenericExecutionState F) :
    Outcome (GenericTensor F × GenericExecutionState F) := do
  attentionChecks query key value attrs state
  allocate (state.key.length + key.values.length)
  allocate (state.value.length + value.values.length)
  let group ← divide attrs.queryHeadCount.toNat attrs.kvHeadCount.toNat
  let sizes : AttentionSizes :=
    { oldLength := state.length.toNat
      queryLength := attrs.queryLength.toNat
      queryHeads := attrs.queryHeadCount.toNat
      kvHeads := attrs.kvHeadCount.toNat
      dimension := attrs.headDim.toNat
      group }
  let values ← (List.range attrs.batchSize.toNat).foldlM (fun output batch =>
    (List.range sizes.queryLength).foldlM (fun output queryPosition =>
      (List.range sizes.queryHeads).foldlM
        (sizes.head math query.values key.values value.values attrs state.key state.value batch
          queryPosition) output) output) (List.replicate query.values.length 0)
  let length ← checked (state.length.toNat + attrs.queryLength.toNat)
  .ok (⟨[attrs.batchSize, attrs.queryLength, attrs.queryHeadCount, attrs.headDim], values⟩,
    { state with
      batchSize := attrs.batchSize
      kvHeadCount := attrs.kvHeadCount
      headDim := attrs.headDim
      length := UInt64.ofNat length
      key := state.key ++ key.values
      value := state.value ++ value.values })

/-! ### Routing -/

/-- A token of `top_k`. -/
def selectToken (scores corrected : List F) (expertCount count : Nat) (token : Nat) :
    Outcome (List UInt32 × List F) := do
  let start ← checked (token * expertCount)
  -- A candidate has sixteen bytes.
  allocate (4 * expertCount)
  let candidates ← (List.range expertCount).mapM fun index => do
    let place ← checked (start + index)
    let score ← read corrected place
    .ok (score, index)
  let selected ← slice (candidates.insertionSort CandidateBefore) 0 count
  let chosen ← selected.mapM fun candidate => do
    let place ← checked (start + candidate.2)
    read scores place
  .ok (selected.map (fun candidate => UInt32.ofNat candidate.2),
    chosen.map fun score => score / (chosen.sum + 1 / ((10 ^ 20 : Nat) : F)))

/-- `top_k`. -/
def topK (scores corrected : GenericTensor F) (count : UInt32) :
    Outcome (GenericTopKSelection F) := do
  let last ← ofExcept (okOr scores.dimensions.getLast? "router score rank is invalid")
  let expertCount := last.toNat
  ofExcept (rejectIf (scores.dimensions ≠ corrected.dimensions ∨ expertCount = 0 ∨
    expertCount < count.toNat) "router score geometry is invalid")
  let tokenCount ← divide scores.values.length expertCount
  let capacity ← checked (tokenCount * count.toNat)
  allocate capacity
  let tokens ← (List.range tokenCount).mapM
    (selectToken scores.values corrected.values expertCount count.toNat)
  .ok
    { ids := tokens.flatMap Prod.fst
      weights := tokens.flatMap Prod.snd
      tokenCount := UInt64.ofNat tokenCount
      topK := count }

/-! ### Experts -/

/-- The two sums of a channel. -/
def channelSums (input gate up : List F) (inputOffset hidden channel : Nat) : Outcome (F × F) :=
  (List.range hidden).foldlM (fun sums column => do
    let place ← checked (inputOffset + column)
    let x ← read input place
    let cell ← mulAdd channel hidden column
    let g ← read gate cell
    let u ← read up cell
    .ok (sums.1 + x * g, sums.2 + x * u)) (0, 0)

/-- A rank of a token that chose the expert. -/
def dispatchRank (input gate up down weights : List F) (hidden intermediate token : Nat)
    (selectionIndex : Nat) (output : List F) : Outcome (List F) := do
  let inputOffset ← checked (token * hidden)
  allocate intermediate
  let activated ← (List.range intermediate).foldlM (fun activated channel => do
    let sums ← channelSums input gate up inputOffset hidden channel
    write activated channel (sums.1 / (1 + math.exp (-sums.1)) * sums.2))
    (List.replicate intermediate 0)
  let weight ← read weights selectionIndex
  (List.range hidden).foldlM (fun output column => do
    let sum ← (List.range intermediate).foldlM (fun sum channel => do
      let a ← read activated channel
      let cell ← mulAdd column intermediate channel
      let d ← read down cell
      .ok (sum + a * d)) 0
    let place ← checked (inputOffset + column)
    let value ← read output place
    write output place (value + weight * sum)) output

/-- `expert_dispatch`. -/
def expertDispatch (input gate up down : GenericTensor F) (expertId : UInt32)
    (selection : GenericTopKSelection F) : Outcome (GenericTensor F) := do
  ofExcept (rejectIf (input.dimensions.length ≠ 3 ∨ gate.dimensions.length ≠ 2 ∨
      up.dimensions ≠ gate.dimensions ∨ down.dimensions.length ≠ 2 ∨
      gate.dimensions.getD 1 0 ≠ input.dimensions.getD 2 0 ∨
      down.dimensions.getD 0 0 ≠ input.dimensions.getD 2 0 ∨
      down.dimensions.getD 1 0 ≠ gate.dimensions.getD 0 0)
    "generic expert dispatch geometry is invalid")
  let tokenCount ← checked ((input.dimensions.getD 0 0).toNat * (input.dimensions.getD 1 0).toNat)
  ofExcept (rejectIf (selection.tokenCount.toNat ≠ tokenCount)
    "generic expert selection token count is invalid")
  let hidden := (input.dimensions.getD 2 0).toNat
  let intermediate := (gate.dimensions.getD 0 0).toNat
  let topK := selection.topK.toNat
  let values ← (List.range tokenCount).foldlM (fun output token =>
    (List.range topK).foldlM (fun output rank => do
      let selectionIndex ← mulAdd token topK rank
      let id ← read selection.ids selectionIndex
      if id ≠ expertId then .ok output
      else
        dispatchRank math input.values gate.values up.values down.values selection.weights hidden
          intermediate token selectionIndex output) output) (List.replicate input.values.length 0)
  .ok ⟨input.dimensions, values⟩

end Kernels

end VBuf.Runtime.Checked
