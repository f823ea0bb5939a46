import VBuf.Runtime.AttentionSpec

/-!
# Attention of the portable graph adapter

`run_attention` over the same exact numbers as the generic executor.  The two
scratch vectors are written up to the last allowed position before they are
read, so they are lists of that length.  The report is left out.
-/

namespace VBuf.Ggml

open VBuf.Lib VBuf.Runtime

structure PortableActivation (F : Type) where
  values : List F
  dimensions : List UInt64
  deriving DecidableEq, Repr

structure VbufPortableExecutionState (F : Type) where
  bindingId : UInt32
  capacity : UInt64
  length : UInt64
  batchSize : UInt64
  kvHeadCount : UInt64
  headDim : UInt64
  key : List F
  value : List F
  deriving DecidableEq, Repr

structure VbufAttentionDesc (F : Type) where
  batchSize : UInt64
  queryHeadCount : UInt64
  kvHeadCount : UInt64
  headDim : UInt64
  queryLength : UInt64
  currentKvLength : UInt64
  scale : F
  maskKind : UInt8
  positionKind : UInt8
  stateId : UInt32
  deriving DecidableEq, Repr

/-- `attention` of the FFI: the attributes of a descriptor. -/
def VbufAttentionDesc.attributes {F : Type} (desc : VbufAttentionDesc F) :
    Option (AttentionAttributes F) :=
  let withMask := fun mask : AttentionMaskKind =>
    if desc.positionKind = 1 then
      some ⟨desc.batchSize, desc.queryHeadCount, desc.kvHeadCount, desc.headDim, desc.queryLength,
        desc.currentKvLength, desc.scale, mask, desc.stateId⟩
    else none
  if desc.maskKind = 0 then withMask .none
  else if desc.maskKind = 1 then withMask .causal
  else none

/-- `checked_elements`; each caller puts its own message over the error. -/
def checkedElements (dimensions : List UInt64) : Except String Nat :=
  shapeProduct "attention shape product overflows" "attention shape product overflows" dimensions 1

/-- `std::numeric_limits<size_t>::max() / sizeof(float)`. -/
def maxFloats : Nat := (2 ^ 64 - 1) / 4

/-- A count of elements, or the message of the caller. -/
def countOr (message : String) (dimensions : List UInt64) (accepted : Nat → Bool) :
    Except String Unit :=
  match checkedElements dimensions with
  | .error _ => .error message
  | .ok elements => rejectIf (accepted elements = false) message

section Attention

variable {F : Type} [Field F] [LinearOrder F] (math : ExactMath F)

/-- The checks before the loops, on the three inputs. -/
def checkAttention (desc : VbufAttentionDesc F) (query key value : PortableActivation F)
    (state : VbufPortableExecutionState F) : Except String Unit := do
  rejectIf (query.dimensions ≠
      [desc.batchSize, desc.queryLength, desc.queryHeadCount, desc.headDim] ∨
      key.dimensions ≠ [desc.batchSize, desc.queryLength, desc.kvHeadCount, desc.headDim] ∨
      value.dimensions ≠ [desc.batchSize, desc.queryLength, desc.kvHeadCount, desc.headDim])
    "attention tensor dimensions are invalid"
  countOr "Q payload length is invalid" query.dimensions (fun elements => elements = query.values.length)
  countOr "K/V payload length is invalid" key.dimensions
    (fun elements => elements = key.values.length ∧ value.values.length = key.values.length)
  rejectIf (state.length ≠ 0 ∧ (state.batchSize ≠ desc.batchSize ∨
      state.kvHeadCount ≠ desc.kvHeadCount ∨ state.headDim ≠ desc.headDim))
    "attention state geometry does not match operation"
  if state.length ≠ 0 then
    countOr "attention state payload length is invalid"
      [desc.batchSize, state.length, desc.kvHeadCount, desc.headDim]
      (fun elements => elements = state.key.length ∧ elements = state.value.length)
  else .ok ()
  countOr "attention score allocation overflows host size"
    [desc.batchSize, desc.queryLength, desc.queryHeadCount, desc.currentKvLength]
    (fun elements => elements ≤ maxFloats)
  countOr "attention state allocation overflows host size"
    [desc.batchSize, desc.currentKvLength, desc.kvHeadCount, desc.headDim] (fun _ => true)

/-- The checks of the descriptor against the state. -/
def checkDescriptor (desc : VbufAttentionDesc F) (state : VbufPortableExecutionState F) :
    Except String Unit := do
  rejectIf (desc.maskKind ≠ 0 ∧ desc.maskKind ≠ 1) "attention mask semantics are unsupported"
  rejectIf (desc.positionKind ≠ 1) "attention position semantics are unsupported"
  rejectIf (desc.batchSize = 0 ∨ desc.queryHeadCount = 0 ∨ desc.kvHeadCount = 0 ∨
      desc.headDim = 0 ∨ desc.queryLength = 0 ∨ desc.queryHeadCount % desc.kvHeadCount ≠ 0 ∨
      math.isFinite desc.scale = false ∨ desc.scale ≤ 0)
    "attention geometry or scale is invalid"
  rejectIf (state.bindingId ≠ desc.stateId) "attention state binding does not match execution state"
  rejectIf (state.length > state.capacity ∨ desc.queryLength > state.capacity - state.length)
    "attention state capacity is exceeded"
  rejectIf (desc.currentKvLength ≠ state.length + desc.queryLength)
    "attention state length is inconsistent"

/-- The dot product of a query and a key. -/
def finiteDot (dimension : Nat) (q k : Nat → F) : Except String F :=
  (List.range dimension).foldlM (fun dot component =>
    if math.isFinite (q component) = false ∨ math.isFinite (k component) = false then
      .error "attention input contains a non-finite value"
    else .ok (dot + q component * k component)) 0

/-- The body of the loop over query heads, up to the probabilities. -/
def probabilities (lastAllowed dimension : Nat) (scale : F) (q : Nat → F) (k : Nat → Nat → F) :
    Except String (List F) := do
  let scores ← (List.range (lastAllowed + 1)).mapM fun keyPosition => do
    let dot ← finiteDot math dimension q (k keyPosition)
    .ok (dot * scale)
  let exponentials := scores.map (fun score => math.exp (score - maximum scores))
  let total := exponentials.foldl (· + ·) 0
  rejectIf (math.isFinite total = false ∨ total ≤ 0) "attention softmax normalization failed"
  .ok (exponentials.map (· / total))

/-- The values, weighted by the probabilities. -/
def accumulate (probabilities : List F) (v : Nat → F) : Except String F :=
  (List.range probabilities.length).foldlM (fun accumulated keyPosition =>
    if math.isFinite (v keyPosition) = false then
      .error "attention input contains a non-finite value"
    else .ok (accumulated + probabilities.getD keyPosition 0 * v keyPosition)) 0

/-- A key or a value: from the state, with the geometry of the state, or from the
operand. -/
def storedOrCurrent (stored current : List F) (state : VbufPortableExecutionState F)
    (queryLength kvHeads dimension batch kvHead position component : Nat) : F :=
  if position < state.length.toNat then
    stored.getD (index4 state.length.toNat state.kvHeadCount.toNat state.headDim.toNat batch position
      kvHead component) 0
  else
    current.getD (index4 queryLength kvHeads dimension batch (position - state.length.toNat) kvHead
      component) 0

/-- The loops of `run_attention`. -/
def attentionLoops (desc : VbufAttentionDesc F) (query key value : PortableActivation F)
    (state : VbufPortableExecutionState F) : Except String (List F) :=
  let queryLength := desc.queryLength.toNat
  let queryHeads := desc.queryHeadCount.toNat
  let kvHeads := desc.kvHeadCount.toNat
  let dimension := desc.headDim.toNat
  let group := queryHeads / kvHeads
  (List.range desc.batchSize.toNat).foldlM (fun output batch =>
    (List.range queryLength).foldlM (fun output queryPosition =>
      let lastAllowed := if desc.maskKind = 1 then state.length.toNat + queryPosition
        else desc.currentKvLength.toNat - 1
      (List.range queryHeads).foldlM (fun output queryHead => do
        let kvHead := queryHead / group
        let probabilities ← probabilities math lastAllowed dimension desc.scale
          (fun component => query.values.getD
            (index4 queryLength queryHeads dimension batch queryPosition queryHead component) 0)
          (storedOrCurrent state.key key.values state queryLength kvHeads dimension batch kvHead)
        (List.range dimension).foldlM (fun output component => do
          let accumulated ← accumulate math probabilities (fun keyPosition => storedOrCurrent
            state.value value.values state queryLength kvHeads dimension batch kvHead keyPosition
            component)
          .ok (output.set
            (index4 queryLength queryHeads dimension batch queryPosition queryHead component)
            accumulated)) output) output) output) (List.replicate query.values.length 0)

/-- The state after the commit. -/
def committed (desc : VbufAttentionDesc F) (key value : PortableActivation F)
    (state : VbufPortableExecutionState F) : VbufPortableExecutionState F :=
  { state with
    batchSize := desc.batchSize
    kvHeadCount := desc.kvHeadCount
    headDim := desc.headDim
    length := state.length + desc.queryLength
    key := (if state.length = 0 then [] else state.key) ++ key.values
    value := (if state.length = 0 then [] else state.value) ++ value.values }

/-- Everything of `run_attention` that comes before its commit. -/
def attentionResult (desc : VbufAttentionDesc F) (inputs : List (PortableActivation F))
    (state : VbufPortableExecutionState F) :
    Except String (PortableActivation F × VbufPortableExecutionState F) := do
  checkDescriptor math desc state
  match inputs with
  | [query, key, value] =>
      checkAttention desc query key value state
      let values ← attentionLoops math desc query key value state
      .ok ({ values, dimensions := query.dimensions }, committed desc key value state)
  | _ => .error "attention requires Q, K, and V operands"

/-- `run_attention`, on a state that may be missing. -/
def runAttention (desc : VbufAttentionDesc F) (inputs : List (PortableActivation F))
    (state : Option (VbufPortableExecutionState F)) :
    Except String (PortableActivation F) × Option (VbufPortableExecutionState F) :=
  match state with
  | none => (.error "attention execution state is missing", none)
  | some state =>
      match attentionResult math desc inputs state with
      | .error error => (.error error, some state)
      | .ok (output, after) => (.ok output, some after)

end Attention

end VBuf.Ggml
