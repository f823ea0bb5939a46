import Mathlib.Data.Prod.Lex
import VBuf.Lib.LeastOfEach
import VBuf.Lib.LongestWalk
import VBuf.Lib.Loop
import VBuf.Lib.Ranking
import VBuf.Lib.Utf8
import VBuf.Ggml.TensorWave

/-!
# The prefetch planner

`PrefetchPlanner::plan` walks the operations of a graph, resolves for each one how many
producers away it is, and lists the persistent tensors it reads.  The distances are a
memoized recursion in 64-bit arithmetic; an operation that cannot be reached is marked by
a distance over the maximum.
-/

namespace VBuf.Ggml

open VBuf.Lib

/-- `TensorWaveGraphView`, as far as the planner reads it. -/
structure TensorWaveGraphView where
  persistent : List PersistentTensorRef
  valueNames : List String
  operations : List TensorWaveOp
  deriving DecidableEq, Repr

/-- `TensorWavePlannerState`, without the byte and tensor counts. -/
structure TensorWavePlannerState where
  completedOperations : List Nat
  availableValues : List Nat
  residentPersistent : List Nat
  deriving DecidableEq, Repr

/-- `PrefetchCandidate`. -/
structure PrefetchCandidate where
  tensorRef : Nat
  tensorId : UInt64
  tensorName : String
  requiredByOp : String
  dependencyDistance : Nat
  byteSize : Nat
  alreadyResident : Bool
  deriving DecidableEq, Repr

/-- `PrefetchPlan`. -/
structure PrefetchPlan where
  visibleCandidates : List PrefetchCandidate
  candidates : List PrefetchCandidate
  byteBudget : Nat
  totalPlannedBytes : Nat
  deriving DecidableEq, Repr

namespace Prefetch

/-- A sum of 64-bit numbers. -/
def wrap (n : Nat) : Nat := n % 2 ^ 64

/-- `static_cast<int64_t>`. -/
def toInt64 (n : Nat) : Int := if n < 2 ^ 63 then n else (n : Int) - 2 ^ 64

/-- `candidate_order`. -/
def candidateOrder (lhs rhs : PrefetchCandidate) : Bool :=
  if lhs.dependencyDistance ≠ rhs.dependencyDistance then
    decide (lhs.dependencyDistance < rhs.dependencyDistance)
  else if lhs.tensorId ≠ rhs.tensorId then decide (lhs.tensorId < rhs.tensorId)
  else if lhs.requiredByOp ≠ rhs.requiredByOp then
    decide (byteKey lhs.requiredByOp < byteKey rhs.requiredByOp)
  else decide (lhs.tensorRef < rhs.tensorRef)

/-- The vector of flags that the loops over the state set. -/
def marks (size : Nat) (indices : List Nat) : List Bool :=
  indices.foldl (fun flags index => if index < flags.length then flags.set index true else flags)
    (List.replicate size false)

/-- What the recursion reads: the arguments of `plan` and its tables. -/
structure Planning where
  graph : TensorWaveGraphView
  state : TensorWavePlannerState
  maxDependencyDistance : UInt64

namespace Planning

variable (planning : Planning)

/-- `completed`. -/
def completed : List Bool :=
  marks planning.graph.operations.length planning.state.completedOperations

/-- `available`. -/
def available : List Bool :=
  marks planning.graph.valueNames.length planning.state.availableValues

/-- `producer`: the last operation with this output. -/
def producer : Nat → Option Nat :=
  planning.graph.operations.zipIdx.foldl
    (fun table pair => insertEntry table pair.1.outputValue pair.2) (fun _ => none)

/-- `max_dependency_distance + 1`, the mark of what cannot be reached. -/
def far : Nat := wrap (planning.maxDependencyDistance.toNat + 1)

end Planning

/-- `distances` and `resolving`. -/
structure Memo where
  distances : Nat → Int
  resolving : Nat → Bool

/-- Nothing is resolved yet. -/
def Memo.start : Memo := { distances := fun _ => -1, resolving := fun _ => false }

/-- `resolving[operation_index] = true`. -/
def Memo.mark (memo : Memo) (operationIndex : Nat) : Memo :=
  { memo with resolving := Function.update memo.resolving operationIndex true }

/-- `resolving[operation_index] = false`, and the distance is stored. -/
def Memo.store (memo : Memo) (operationIndex distance : Nat) : Memo where
  distances := Function.update memo.distances operationIndex (toInt64 distance)
  resolving := Function.update memo.resolving operationIndex false

/-- The loop of `distance_for` over the inputs; `none` is its early return. -/
def scanInputs (planning : Planning) (self : Nat → Memo → Option (Nat × Memo)) :
    List TensorWaveRef → Nat → Memo → Option (Option Nat × Memo)
  | [], distance, memo => some (some distance, memo)
  | .persistent _ :: rest, distance, memo => scanInputs planning self rest distance memo
  | .value index :: rest, distance, memo =>
      if planning.available.length ≤ index then some (none, memo)
      else if planning.available.getD index false then scanInputs planning self rest distance memo
      else
        match planning.producer index with
        | none => scanInputs planning self rest planning.far memo
        | some found => do
            let (value, memo) ← self found memo
            scanInputs planning self rest (max distance (wrap (value + 1))) memo

/-- The end of `distance_for`; an early return leaves the operation resolving. -/
def settle (planning : Planning) (operationIndex : Nat) : Option Nat × Memo → Nat × Memo
  | (none, memo) => (planning.far, memo)
  | (some distance, memo) => (distance, memo.store operationIndex distance)

/-- `distance_for`; the fuel is the depth of the recursion. -/
def distanceFor (planning : Planning) : Nat → Nat → Memo → Option (Nat × Memo)
  | 0, _, _ => none
  | fuel + 1, operationIndex, memo =>
      match planning.graph.operations[operationIndex]? with
      | none => some (planning.far, memo)
      | some operation =>
          if planning.completed.getD operationIndex false then some (0, memo)
          else if 0 ≤ memo.distances operationIndex then
            some ((memo.distances operationIndex).toNat, memo)
          else if memo.resolving operationIndex then some (planning.far, memo)
          else do
            let scanned ← scanInputs planning (distanceFor planning fuel) operation.inputs 0
              (memo.mark operationIndex)
            pure (settle planning operationIndex scanned)

/-- The candidate of an input of an operation. -/
def candidateOf (state : TensorWavePlannerState) (operation : TensorWaveOp) (distance index : Nat)
    (tensor : PersistentTensorRef) : PrefetchCandidate where
  tensorRef := index
  tensorId := tensor.tensorId
  tensorName := tensor.name
  requiredByOp := operation.opId
  dependencyDistance := distance
  byteSize := tensor.view.payloadLen.toNat
  alreadyResident := decide (index ∈ state.residentPersistent)

/-- `by_tensor[index] = candidate`, if there is none yet or the candidate comes first. -/
def store : List PrefetchCandidate → PrefetchCandidate → List PrefetchCandidate
  | [], candidate => [candidate]
  | found :: rest, candidate =>
      if found.tensorRef = candidate.tensorRef then
        (if candidateOrder candidate found then candidate else found) :: rest
      else found :: store rest candidate

/-- The candidate that the body of the inner loop makes, for a persistent tensor of the graph. -/
def inputCandidate (planning : Planning) (operation : TensorWaveOp) (distance : Nat) :
    TensorWaveRef → Option PrefetchCandidate
  | .value _ => none
  | .persistent index =>
      planning.graph.persistent[index]?.map (candidateOf planning.state operation distance index)

/-- The loop over the inputs of an operation in reach. -/
def storeInputs (planning : Planning) (operation : TensorWaveOp) (distance : Nat)
    (byTensor : List PrefetchCandidate) : List PrefetchCandidate :=
  operation.inputs.foldl (fun byTensor input =>
    match inputCandidate planning operation distance input with
    | none => byTensor
    | some candidate => store byTensor candidate) byTensor

/-- The loop of `plan` over the operations. -/
def collect (planning : Planning) :
    List (TensorWaveOp × Nat) → Memo → List PrefetchCandidate → Option (List PrefetchCandidate)
  | [], _, byTensor => some byTensor
  | (operation, operationIndex) :: rest, memo, byTensor =>
      if planning.completed.getD operationIndex false then collect planning rest memo byTensor
      else do
        let (distance, memo) ←
          distanceFor planning (planning.graph.operations.length + 1) operationIndex memo
        if planning.maxDependencyDistance.toNat < distance then collect planning rest memo byTensor
        else collect planning rest memo (storeInputs planning operation distance byTensor)

/-- One iteration of the loop that plans, on the plan so far and the remaining budget. -/
def planCandidate (run : PrefetchPlan × Nat) (candidate : PrefetchCandidate) : PrefetchPlan × Nat :=
  if candidate.alreadyResident then run
  else if run.2 < candidate.byteSize then run
  else
    ({ run.1 with
        candidates := run.1.candidates ++ [candidate]
        totalPlannedBytes := wrap (run.1.totalPlannedBytes + candidate.byteSize) },
      run.2 - candidate.byteSize)

/-- The end of `plan`, on the sorted candidates. -/
def planVisible (visible : List PrefetchCandidate) (byteBudget : Nat) : PrefetchPlan :=
  (visible.foldl planCandidate
    ({ visibleCandidates := visible, candidates := [], byteBudget, totalPlannedBytes := 0 },
      byteBudget)).1

/-- `PrefetchPlanner::plan`; `arrange` is the order in which the hash map gives its entries. -/
def plan (arrange : List PrefetchCandidate → List PrefetchCandidate) (graph : TensorWaveGraphView)
    (state : TensorWavePlannerState) (maxDependencyDistance byteBudget : UInt64) :
    Option PrefetchPlan := do
  let byTensor ← collect { graph, state, maxDependencyDistance } graph.operations.zipIdx .start []
  let visible := (arrange byTensor).insertionSort fun a b => candidateOrder b a = false
  pure (planVisible visible byteBudget.toNat)

/-! ### What a plan is for -/

section Specification

variable (graph : TensorWaveGraphView) (state : TensorWavePlannerState)

/-- The operation is completed. -/
def Completed (index : Nat) : Prop := index ∈ state.completedOperations

/-- The value is one of the graph's and is there. -/
def Available (value : Nat) : Prop :=
  value < graph.valueNames.length ∧ value ∈ state.availableValues

instance (index : Nat) : Decidable (Completed state index) :=
  inferInstanceAs (Decidable (index ∈ state.completedOperations))

instance (value : Nat) : Decidable (Available graph state value) :=
  inferInstanceAs (Decidable (_ ∧ _))

/-- The operation produces the value. -/
def Produces (index value : Nat) : Prop :=
  ∃ operation, graph.operations[index]? = some operation ∧ operation.outputValue = value

/-- The operation reads the value, and it is not there yet. -/
def Awaits (index value : Nat) : Prop :=
  ∃ operation, graph.operations[index]? = some operation ∧ .value value ∈ operation.inputs ∧
    ¬ Available graph state value

/-- One step of a chain: to the uncompleted producer of an unavailable value. -/
def Needs (index other : Nat) : Prop :=
  ∃ value, Awaits graph state index value ∧ Produces graph other value ∧ ¬ Completed state other

/-- Every value that the operation waits for has an uncompleted producer. -/
def Producible (index : Nat) : Prop :=
  ∀ value, Awaits graph state index value →
    value < graph.valueNames.length ∧ ∃ other, Needs graph state index other ∧
      Produces graph other value

/-- The longest chain of the operation has `distance` steps; no chain of it comes to a cycle
or to a value that cannot be produced. -/
def HasDistance (index distance : Nat) : Prop :=
  Settles (Needs graph state) (Producible graph state) index distance

/-- The greedy selection within a budget: what does not fit is skipped. -/
def greedy : Nat → List PrefetchCandidate → List PrefetchCandidate
  | _, [] => []
  | budget, candidate :: rest =>
      if candidate.byteSize ≤ budget then candidate :: greedy (budget - candidate.byteSize) rest
      else greedy budget rest

/-- Each value has at most one producer. -/
def OneProducer : Prop := (graph.operations.map TensorWaveOp.outputValue).Nodup

/-- What a completed operation produced is there as long as an uncompleted one reads it. -/
def KeepsProduced : Prop :=
  ∀ index other value, Completed state index → Produces graph index value →
    ¬ Completed state other → ¬ Awaits graph state other value

end Specification

end Prefetch

end VBuf.Ggml
