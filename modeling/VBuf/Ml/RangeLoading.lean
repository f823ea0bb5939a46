import Mathlib.Data.List.Sort
import VBuf.Lib.Slice
import VBuf.Ml.Source

/-!
# Partial loading over ranges

`ReadPlan.build` sorts the selected payloads, merges neighbours into physical
reads and records, for each selected payload, its read and its offset there.
`executePlanWithSources` performs the reads, and `LoadedPlan.targetBytes` cuts a
payload out of the read that holds it.
-/

namespace VBuf.Ml

open VBuf.Lib VBuf.Layout VBuf.V06

/-- `Coalescing`. -/
inductive Coalescing
  | none
  | exactAdjacent
  | gap (limit : Nat)
  deriving DecidableEq, Repr

/-- `RangeLoadError`. -/
inductive RangeLoadError
  | arithmeticOverflow
  | invalidRange
  | outsideSource
  | hostIndexOverflow
  | selectionOutOfBounds
  | io
  | unknownSource
  deriving DecidableEq, Repr

/-- `u64::checked_sub`. -/
def checkedSub (a b : Nat) : Option Nat := if b ≤ a then some (a - b) else Option.none

@[simp] theorem checkedSub_eq_some_iff {a b c : Nat} :
    checkedSub a b = some c ↔ b ≤ a ∧ c = a - b := by
  unfold checkedSub
  by_cases h : b ≤ a <;> simp [h, eq_comm]

/-- `PhysicalRange`. -/
structure PhysicalRange where
  sourceId : SourceId
  offset : Nat
  length : Nat
  deriving DecidableEq, Repr

namespace PhysicalRange

/-- `PhysicalRange::end`. -/
def stop (range : PhysicalRange) : Except RangeLoadError Nat :=
  okOr (if range.offset + range.length < u64Bound then some (range.offset + range.length)
    else Option.none) .arithmeticOverflow

/-- `PhysicalRange::from_tensor_ref`. -/
def ofTensorRef (reference : TensorRef) : PhysicalRange where
  sourceId := reference.sourceId
  offset := reference.offset
  length := reference.length

@[simp] theorem stop_eq_ok_iff {range : PhysicalRange} {stop : Nat} :
    range.stop = .ok stop ↔
      range.offset + range.length < u64Bound ∧ stop = range.offset + range.length := by
  rw [PhysicalRange.stop, okOr_eq_ok_iff]
  by_cases h : range.offset + range.length < u64Bound <;> simp [h, eq_comm]

end PhysicalRange

/-- `SelectedTensor`. -/
structure SelectedTensor where
  ordinal : Nat
  keyId : UInt16
  occurrence : UInt16
  payload : TensorRef
  deriving DecidableEq

/-- `PlannedTarget`. -/
structure PlannedTarget where
  selected : SelectedTensor
  physicalReadIndex : Nat
  relativeOffset : Nat
  deriving DecidableEq

/-- `ReadPlan`. -/
structure ReadPlan where
  targets : List PlannedTarget
  reads : List PhysicalRange
  deriving DecidableEq

/-- How `ReadPlan::build` stops: an error, or the `expect` on a target without a
read. -/
inductive BuildStop
  | failed (error : RangeLoadError)
  | missingTarget
  deriving DecidableEq, Repr

namespace ReadPlan

/-- The sort key `(source_id, offset, end)`. -/
def SortsBefore (a b : Nat × TensorRef) : Prop :=
  a.2.sourceId.value < b.2.sourceId.value ∨
    a.2.sourceId.value = b.2.sourceId.value ∧ (a.2.offset < b.2.offset ∨
      a.2.offset = b.2.offset ∧ a.2.range.stop ≤ b.2.range.stop)

instance : DecidableRel SortsBefore :=
  fun a b => inferInstanceAs (Decidable (a.2.sourceId.value < b.2.sourceId.value ∨
    a.2.sourceId.value = b.2.sourceId.value ∧ (a.2.offset < b.2.offset ∨
      a.2.offset = b.2.offset ∧ a.2.range.stop ≤ b.2.range.stop)))

/-- The selected payloads with their places in the selection, in key order. -/
def order (selected : List SelectedTensor) : List (Nat × TensorRef) :=
  ((selected.map SelectedTensor.payload).zipIdx.map Prod.swap).insertionSort SortsBefore

/-- The condition of `allowed` on a candidate of the same source: it starts inside
the current read, or close enough behind it. -/
def Joins (coalescing : Coalescing) (currentEnd offset : Nat) : Prop :=
  offset < currentEnd ∨
    match coalescing with
    | .none => False
    | .exactAdjacent => offset ≤ currentEnd
    | .gap limit => offset - currentEnd ≤ limit

instance (coalescing : Coalescing) (currentEnd offset : Nat) :
    Decidable (Joins coalescing currentEnd offset) := by
  unfold Joins
  cases coalescing
  · exact inferInstanceAs (Decidable (_ ∨ False))
  · exact inferInstanceAs (Decidable (_ ∨ _))
  · exact inferInstanceAs (Decidable (_ ∨ _))

/-- An item of `owners`: the place in the selection, the read and the offset in
the read. -/
structure Owner where
  selectionIndex : Nat
  readIndex : Nat
  relativeOffset : Nat
  deriving DecidableEq, Repr

/-- The two lists that the merging loop grows. -/
structure Merge where
  reads : List PhysicalRange
  owners : List Owner
  deriving DecidableEq

/-- The branch `!merged`: the candidate is a read of its own. -/
def Merge.openRead (merge : Merge) (selectionIndex : Nat) (candidate : PhysicalRange) : Merge where
  reads := merge.reads ++ [candidate]
  owners := merge.owners ++ [⟨selectionIndex, merge.reads.length, 0⟩]

/-- The branch `allowed`: the last read grows up to the end of the candidate. -/
def Merge.extendRead (merge : Merge) (selectionIndex : Nat) (current candidate : PhysicalRange)
    (currentEnd : Nat) : Except RangeLoadError Merge := do
  let candidateEnd ← candidate.stop
  let length ← okOr (checkedSub (max currentEnd candidateEnd) current.offset) .arithmeticOverflow
  let relativeOffset ← okOr (checkedSub candidate.offset current.offset) .arithmeticOverflow
  pure
    { reads := merge.reads.dropLast ++ [{ current with length }]
      owners := merge.owners ++ [⟨selectionIndex, merge.reads.length - 1, relativeOffset⟩] }

/-- One iteration of the merging loop. -/
def mergeTarget (coalescing : Coalescing) (merge : Merge) (item : Nat × TensorRef) :
    Except RangeLoadError Merge :=
  let candidate := PhysicalRange.ofTensorRef item.2
  match merge.reads.getLast? with
  | Option.none => .ok (merge.openRead item.1 candidate)
  | some current => do
      let currentEnd ← current.stop
      if candidate.sourceId = current.sourceId ∧ Joins coalescing currentEnd candidate.offset then
        merge.extendRead item.1 current candidate currentEnd
      else pure (merge.openRead item.1 candidate)

/-- The merging loop. -/
def mergeTargets (coalescing : Coalescing) (merge : Merge) :
    List (Nat × TensorRef) → Except RangeLoadError Merge
  | [] => .ok merge
  | item :: rest => do
      let merge ← mergeTarget coalescing merge item
      mergeTargets coalescing merge rest

/-- The loop that puts the owners back in the order of the selection. -/
def placeOwners (selected : List SelectedTensor) (targets : List (Option PlannedTarget)) :
    List Owner → Except BuildStop (List (Option PlannedTarget))
  | [] => .ok targets
  | owner :: rest => do
      let target ← okOr selected[owner.selectionIndex]? .missingTarget
      placeOwners selected
        (targets.set owner.selectionIndex
          (some ⟨target, owner.readIndex, owner.relativeOffset⟩)) rest

/-- `ReadPlan::build`. -/
def build (selected : List SelectedTensor) (coalescing : Coalescing) :
    Except BuildStop ReadPlan :=
  if selected = [] then .ok ⟨[], []⟩
  else do
    let merge ← mapErr .failed (mergeTargets coalescing ⟨[], []⟩ (order selected))
    let placed ← placeOwners selected (List.replicate selected.length Option.none) merge.owners
    let targets ← placed.mapM (okOr · .missingTarget)
    pure { targets, reads := merge.reads }

end ReadPlan

/-- `RangeSource`: its size and its positioned read of a number of bytes. -/
structure RangeSource where
  len : Nat
  readExactAt : Nat → Nat → Except RangeLoadError (List UInt8)

/-- `SourceResolver`. -/
abbrev SourceResolver := SourceId → Option RangeSource

/-- `LoadedRead`. -/
structure LoadedRead where
  range : PhysicalRange
  bytes : List UInt8
  deriving DecidableEq

/-- `LoadedPlan`. -/
structure LoadedPlan where
  reads : List LoadedRead
  deriving DecidableEq

/-- `LoadedPlan::target_bytes`; the host index is 64 bits wide. -/
def LoadedPlan.targetBytes (loaded : LoadedPlan) (target : PlannedTarget) :
    Except RangeLoadError (List UInt8) := do
  let read ← okOr loaded.reads[target.physicalReadIndex]? .invalidRange
  let stop := target.relativeOffset + target.selected.payload.length
  rejectIf (u64Bound ≤ stop) .arithmeticOverflow
  okOr (range? read.bytes target.relativeOffset stop) .outsideSource

/-- One iteration of `execute_plan_with_sources`. -/
def executeRead (sources : SourceResolver) (range : PhysicalRange) :
    Except RangeLoadError LoadedRead := do
  let source ← okOr (sources range.sourceId) .unknownSource
  let stop ← range.stop
  rejectIf (source.len < stop) .outsideSource
  let bytes ← source.readExactAt range.offset range.length
  pure { range, bytes }

/-- `execute_plan_with_sources`. -/
def executePlanWithSources (sources : SourceResolver) (plan : ReadPlan) :
    Except RangeLoadError LoadedPlan := do
  let reads ← plan.reads.mapM (executeRead sources)
  pure { reads }

end VBuf.Ml
