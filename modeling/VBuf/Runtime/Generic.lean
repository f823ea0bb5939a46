import Mathlib.Algebra.Order.Field.Basic
import VBuf.Lib.Result
import VBuf.Lib.RowMajor

/-!
# Tensors and attention of the generic executor

`GenericTensor`, `GenericExecutionState` and `attention`, over a field of exact
numbers with an exponential that is a parameter.  A zero head count, which ends
the program, is an error here.
-/

namespace VBuf.Runtime

open VBuf.Lib

/-- The functions on numbers that arithmetic does not give. -/
structure ExactMath (F : Type) [Field F] [LinearOrder F] where
  exp : F → F
  sqrt : F → F
  isFinite : F → Bool
  exp_pos : ∀ x, 0 < exp x

structure GenericTensor (F : Type) where
  dimensions : List UInt64
  values : List F
  deriving DecidableEq, Repr

theorem toNat_pos_of_ne {n : UInt64} (h : n ≠ 0) : 0 < n.toNat :=
  Nat.pos_of_ne_zero fun hzero => h (UInt64.toNat_inj.1 hzero)

/-- The product of a shape, unless a dimension is zero or the product overflows. -/
def shapeProduct (zero overflow : String) : List UInt64 → Nat → Except String Nat
  | [], elements => .ok elements
  | dimension :: rest, elements =>
      if dimension = 0 then .error zero
      else if elements * dimension.toNat < 2 ^ 64 then
        shapeProduct zero overflow rest (elements * dimension.toNat)
      else .error overflow

/-- `GenericTensor::elements`, on a host with 64-bit sizes. -/
def GenericTensor.elements {F : Type} (tensor : GenericTensor F) : Except String Nat :=
  match shapeProduct "generic tensor has a zero dimension" "generic tensor shape product overflows"
      tensor.dimensions 1 with
  | .error error => .error error
  | .ok elements =>
      if elements ≠ tensor.values.length then
        .error "generic tensor payload length does not match shape"
      else .ok elements

inductive AttentionMaskKind
  | none
  | causal
  deriving DecidableEq, Repr

/-- `AttentionAttributes`; there is one position kind. -/
structure AttentionAttributes (F : Type) where
  batchSize : UInt64
  queryHeadCount : UInt64
  kvHeadCount : UInt64
  headDim : UInt64
  queryLength : UInt64
  currentKvLength : UInt64
  scale : F
  mask : AttentionMaskKind
  state : UInt32
  deriving DecidableEq, Repr

/-- `GenericExecutionState`, without its two report fields. -/
structure GenericExecutionState (F : Type) where
  bindingId : UInt32
  capacity : UInt64
  length : UInt64
  batchSize : UInt64
  kvHeadCount : UInt64
  headDim : UInt64
  key : List F
  value : List F
  deriving DecidableEq, Repr

namespace GenericExecutionState

variable {F : Type}

/-- `GenericExecutionState::new`. -/
def new (bindingId : UInt32) (capacity : UInt64) : Except String (GenericExecutionState F) :=
  if capacity = 0 then .error "generic execution state capacity is zero"
  else .ok ⟨bindingId, capacity, 0, 0, 0, 0, [], []⟩

def validatePayload (state : GenericExecutionState F) : Except String Unit :=
  if state.length > state.capacity then .error "generic attention state exceeds capacity"
  else if state.length = 0 then
    if state.batchSize ≠ 0 ∨ state.kvHeadCount ≠ 0 ∨ state.headDim ≠ 0 ∨ state.key ≠ [] ∨
        state.value ≠ [] then
      .error "empty generic attention state has a payload"
    else .ok ()
  else if state.batchSize = 0 ∨ state.kvHeadCount = 0 ∨ state.headDim = 0 then
    .error "generic attention state geometry is empty"
  else
    match shapeProduct "generic attention state geometry is empty"
        "generic attention state geometry overflows"
        [state.batchSize, state.length, state.kvHeadCount, state.headDim] 1 with
    | .error error => .error error
    | .ok elements =>
        if state.key.length ≠ elements ∨ state.value.length ≠ elements then
          .error "generic attention state payload geometry is invalid"
        else .ok ()

end GenericExecutionState

section Attention

variable {F : Type} [Field F] [LinearOrder F]

/-- `fold(NEG_INFINITY, max)` of scores; there is always one. -/
def maximum : List F → F
  | [] => 0
  | score :: rest => rest.foldl max score

/-- The checks of `attention`, before it computes anything. -/
def attentionChecks (query key value : GenericTensor F) (attrs : AttentionAttributes F)
    (state : GenericExecutionState F) : Except String Unit := do
  state.validatePayload
  let expectedQuery := [attrs.batchSize, attrs.queryLength, attrs.queryHeadCount, attrs.headDim]
  let expectedKv := [attrs.batchSize, attrs.queryLength, attrs.kvHeadCount, attrs.headDim]
  rejectIf (query.dimensions ≠ expectedQuery ∨ key.dimensions ≠ expectedKv ∨
      value.dimensions ≠ expectedKv ∨ state.bindingId ≠ attrs.state ∨
      attrs.currentKvLength ≠ state.length + attrs.queryLength ∨
      attrs.queryLength.toNat > state.capacity.toNat - state.length.toNat ∨
      attrs.queryHeadCount % attrs.kvHeadCount ≠ 0)
    "generic attention geometry or state is invalid"
  let _ ← query.elements
  let _ ← key.elements
  let _ ← value.elements
  rejectIf (state.length ≠ 0 ∧ (state.batchSize ≠ attrs.batchSize ∨
      state.kvHeadCount ≠ attrs.kvHeadCount ∨ state.headDim ≠ attrs.headDim))
    "generic attention state geometry changed"

/-- A stored or a current key or value; `position` counts from the first stored one. -/
def keyOrValue (stored current : List F) (oldLength queryLength kvHeads dimension : Nat)
    (batch kvHead position component : Nat) : F :=
  let currentPosition := position - oldLength
  if position < oldLength then
    stored.getD (((batch * oldLength + position) * kvHeads + kvHead) * dimension + component) 0
  else
    current.getD
      (((batch * queryLength + currentPosition) * kvHeads + kvHead) * dimension + component) 0

/-- The scores of a query head, before the exponential. -/
def scores (last dimension : Nat) (scale : F) (q : Nat → F) (k : Nat → Nat → F) : List F :=
  (List.range (last + 1)).map fun keyPosition =>
    (List.range dimension).foldl (fun dot component => dot + q component * k keyPosition component) 0 *
      scale

/-- A component of a query head: the values weighted by the exponentials of the scores. -/
def weighted (math : ExactMath F) (scores : List F) (v : Nat → F) : F :=
  let top := maximum scores
  let weights := scores.map (fun score => math.exp (score - top))
  let total := weights.foldl (· + ·) 0
  (List.range scores.length).foldl
    (fun sum keyPosition => sum + weights.getD keyPosition 0 / total * v keyPosition) 0

/-- The output of `attention`. -/
def attentionOutput (math : ExactMath F) (query key value : GenericTensor F)
    (attrs : AttentionAttributes F) (state : GenericExecutionState F) : List F :=
  let oldLength := state.length.toNat
  let visible := attrs.currentKvLength.toNat
  let qHeads := attrs.queryHeadCount.toNat
  let kvHeads := attrs.kvHeadCount.toNat
  let dimension := attrs.headDim.toNat
  let queryLength := attrs.queryLength.toNat
  let group := qHeads / kvHeads
  (List.range attrs.batchSize.toNat).foldl (fun output batch =>
    (List.range queryLength).foldl (fun output queryPosition =>
      (List.range qHeads).foldl (fun output queryHead =>
        let kvHead := queryHead / group
        let last := if attrs.mask = .causal then oldLength + queryPosition else visible - 1
        let scores := scores last dimension attrs.scale
          (fun component => query.values.getD
            (((batch * queryLength + queryPosition) * qHeads + queryHead) * dimension + component) 0)
          (keyOrValue state.key key.values oldLength queryLength kvHeads dimension batch kvHead)
        (List.range dimension).foldl (fun output component =>
          output.set
            (((batch * queryLength + queryPosition) * qHeads + queryHead) * dimension + component)
            (weighted math scores (fun keyPosition => keyOrValue state.value value.values oldLength
              queryLength kvHeads dimension batch kvHead keyPosition component)))
          output) output) output) (List.replicate query.values.length 0)

/-- `attention`: the output, and the state with the keys and values appended. -/
def attention (math : ExactMath F) (query key value : GenericTensor F)
    (attrs : AttentionAttributes F) (state : GenericExecutionState F) :
    Except String (GenericTensor F) × GenericExecutionState F :=
  match attentionChecks query key value attrs state with
  | .error error => (.error error, state)
  | .ok () =>
      (.ok
        { dimensions := [attrs.batchSize, attrs.queryLength, attrs.queryHeadCount, attrs.headDim]
          values := attentionOutput math query key value attrs state },
        { state with
          batchSize := attrs.batchSize
          kvHeadCount := attrs.kvHeadCount
          headDim := attrs.headDim
          length := state.length + attrs.queryLength
          key := state.key ++ key.values
          value := state.value ++ value.values })

end Attention

end VBuf.Runtime
