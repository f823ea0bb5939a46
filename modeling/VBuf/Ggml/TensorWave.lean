import VBuf.Ggml.Materializer
import VBuf.Lib.AssocTotal

/-!
# The tensor dependency executor

`TensorDependencyExecutor::execute` runs a graph of tensor operations.  In each
pass it takes the first operation whose values are there, acquires its
persistent tensors, computes, and releases what has no use left.

The ggml calls of one operation (descriptors, binding, computation) are a
parameter, and so is the storage provider.  A materializer may be absent; its
workers can finish at any time, so each of its calls may change its state.
Observers are left out.
-/

namespace VBuf.Ggml

open VBuf.Lib

/-- `AdapterError`, without `None`. -/
inductive AdapterError
  | invalidArgument
  | unsupportedRepresentation
  | invalidRank
  | invalidDimension
  | shapeOverflow
  | invalidBlockGeometry
  | payloadSizeMismatch
  | contextAllocationFailed
  | tensorConstructionFailed
  | backendUnavailable
  | storageRangeMismatch
  | storageAlignment
  | tensorAlreadyBound
  | backendAllocationFailed
  deriving DecidableEq, Repr

/-- An error with its detail, or the exception of an `at` without an entry. -/
inductive WaveFailure
  | adapter (error : AdapterError) (detail : String)
  | outOfRange
  deriving DecidableEq, Repr

/-! ### Graphs -/

inductive TensorWaveOpKind
  | rmsNorm
  | mulMat
  | swiGlu
  | dequantize
  deriving DecidableEq, Repr

inductive TensorWaveRef
  | persistent (index : Nat)
  | value (index : Nat)
  deriving DecidableEq, Repr

/-- `parameter` is the bit pattern of the float. -/
structure TensorWaveOp where
  opId : String
  kind : TensorWaveOpKind
  inputs : List TensorWaveRef
  outputValue : Nat
  parameter : UInt32 := 0
  deriving DecidableEq, Repr

/-- `UINT32_MAX`, the value reference that is not set. -/
def unsetValue : Nat := 4294967295

/-- Of a value definition only the name is read. -/
structure TensorDependencyExecutor where
  inputValue : Nat := unsetValue
  externalOutput : Nat := unsetValue
  captureValue : Nat := unsetValue
  persistent : List PersistentTensorRef
  values : List String
  operations : List TensorWaveOp
  deriving DecidableEq, Repr

/-! ### What an operation computes with -/

/-- A bound ggml tensor: its geometry and the bytes it is bound to. -/
structure Operand where
  representation : UInt8
  dimensions : List UInt64
  bytes : List UInt8
  deriving DecidableEq, Repr

/-- The bytes and the extents of a result tensor. -/
structure Product where
  bytes : List UInt8
  ne : List UInt64
  deriving DecidableEq, Repr

/-- The view of a produced value: a matrix of floats. -/
def Product.view (product : Product) : TensorView where
  representation := 0
  dimensions := product.ne.take 2
  payload := product.bytes
  payloadLen := UInt64.ofNat product.bytes.length

/-- The ggml calls of one operation, on the operands in input order. -/
abbrev OperationSemantics := TensorWaveOp → List Operand → Except WaveFailure Product

/-- The bytes of a view's storage. -/
abbrev TensorWaveStorageProvider := TensorView → List UInt8

/-- The calls of `TensorMaterializer` that `execute` makes. -/
structure WaveMaterializer (β : Type) where
  request : Nat → PersistentTensorRef → UInt64 → β → Bool × β
  state : Nat → β → MaterializationState × β
  wait : Nat → β → MaterializationState × β
  obtainReadyTensor : Nat → β → Option MaterializedTensor × β
  release : Nat → β → β

/-! ### Reports -/

structure TensorWaveTraceStep where
  opId : String
  opKind : TensorWaveOpKind
  runnableBefore : List String
  persistentAcquired : List String
  persistentReleased : List String
  inputValuesConsumed : List String
  outputValuesProduced : List String
  valuesReleased : List String
  activePersistentWeightBytesDuring : UInt64
  activePersistentTensorCountDuring : Nat
  activePersistentWeightBytes : UInt64
  activePersistentTensorCount : Nat
  activeTransientBytes : UInt64
  deriving DecidableEq, Repr

structure TensorWaveLifetime where
  tensorId : UInt64
  name : String
  bytes : UInt64
  consumerCount : Nat
  firstConsumer : String
  lastConsumer : String
  acquireStep : Nat := 0
  releaseStep : Nat := 0
  deriving DecidableEq, Repr

structure TensorWaveReport where
  trace : List TensorWaveTraceStep := []
  persistentLifetimes : List TensorWaveLifetime := []
  totalFfnWeightBytes : UInt64 := 0
  peakActiveWeightBytes : UInt64 := 0
  sumAcquiredWeightBytes : UInt64 := 0
  activeTransientBytes : UInt64 := 0
  capturedValue : List UInt8 := []
  capturedValueShape : List UInt64 := []
  allPersistentReleased : Bool := false
  externalOutputPreserved : Bool := false
  deriving DecidableEq, Repr

structure TensorDependencyExecutor.ResidentTensor where
  storage : List UInt8
  bytes : UInt64
  deriving DecidableEq, Repr

/-- The locals of `execute`, with the materializer it uses. -/
structure WaveRun (β : Type) where
  values : AssocMap Nat TensorView
  resident : AssocMap Nat TensorDependencyExecutor.ResidentTensor
  remainingPersistent : Nat → Nat
  remainingValues : Nat → Nat
  completed : Nat → Bool
  activeWeightBytes : UInt64
  activeTransientBytes : UInt64
  materializerLeases : List Nat
  materializer : β
  output : List UInt8
  outputShape : List UInt64
  report : TensorWaveReport

namespace TensorDependencyExecutor

variable {β : Type} (g : TensorDependencyExecutor)

def persistentAt (index : Nat) : PersistentTensorRef :=
  g.persistent.getD index ⟨0, "", ⟨0, [], [], 0⟩, 0⟩

def valueName (index : Nat) : String := g.values.getD index ""

def operationAt (index : Nat) : TensorWaveOp := g.operations.getD index ⟨"", .rmsNorm, [], 0, 0⟩

/-- `persistent_consumers` and `value_consumers`: one count for each use. -/
def consumers (ref : TensorWaveRef) : Nat := (g.operations.flatMap (·.inputs)).count ref

/-! ### Validation -/

def invalid (detail : String) : Except WaveFailure Unit :=
  .error (.adapter .invalidArgument detail)

def validateInput : TensorWaveRef → Except WaveFailure Unit
  | .persistent index =>
      if index ≥ g.persistent.length then
        invalid "operation references an unknown persistent tensor"
      else .ok ()
  | .value index =>
      if index ≥ g.values.length then invalid "operation references an unknown value" else .ok ()

def validateOperation (operation : TensorWaveOp) : Except WaveFailure Unit := do
  if operation.outputValue ≥ g.values.length then invalid "operation produces an unknown value"
  operation.inputs.forM g.validateInput

def validatePersistent (index : Nat) : Except WaveFailure Unit :=
  if g.consumers (.persistent index) = 0 then invalid "persistent tensor has no real consumer"
  else .ok ()

/-- The checks before the first pass; the pointers of the call are set. -/
def validate : Except WaveFailure Unit := do
  if g.inputValue = unsetValue ∨ g.externalOutput = unsetValue ∨ g.operations = [] then
    invalid "tensor dependency graph has incomplete execution contract"
  if g.inputValue ≥ g.values.length ∨ g.externalOutput ≥ g.values.length then
    invalid "tensor dependency graph references an unknown value"
  g.operations.forM g.validateOperation
  (List.range g.persistent.length).forM g.validatePersistent

def consumerNames (index : Nat) : List String :=
  g.operations.flatMap (fun operation =>
    (operation.inputs.filter (· = .persistent index)).map (fun _ => operation.opId))

def initialReport : TensorWaveReport where
  totalFfnWeightBytes := (g.persistent.map (·.view.payloadLen)).foldl (· + ·) 0
  persistentLifetimes := (List.range g.persistent.length).map fun index =>
    { tensorId := (g.persistentAt index).tensorId
      name := (g.persistentAt index).name
      bytes := (g.persistentAt index).view.payloadLen
      consumerCount := g.consumers (.persistent index)
      firstConsumer := (g.consumerNames index).headD ""
      lastConsumer := (g.consumerNames index).getLastD "" }

def initialRun (input : TensorView) (materializer : β) : WaveRun β where
  values := AList.insert g.inputValue input ∅
  resident := ∅
  remainingPersistent := fun index => g.consumers (.persistent index)
  remainingValues := fun index => g.consumers (.value index)
  completed := fun _ => false
  activeWeightBytes := 0
  activeTransientBytes := input.payloadLen
  materializerLeases := []
  materializer
  output := []
  outputShape := []
  report := g.initialReport

/-! ### Materialization -/

def materializationStateName : MaterializationState → String
  | .notRequested => "NOT_REQUESTED"
  | .inFlight => "IN_FLIGHT"
  | .ready => "READY"
  | .released => "RELEASED"
  | .failed => "FAILED"

/-- The request of `obtain_ready`, when the tensor is not under way. -/
def requestReady (ops : WaveMaterializer β) (ref : Nat) (persistent : PersistentTensorRef)
    (materializer : β) : Option MaterializationState × β :=
  match ops.state ref materializer with
  | (state, materializer) =>
      if state = .notRequested ∨ state = .released then
        match ops.request ref persistent persistent.view.payloadLen materializer with
        | (false, materializer) => (none, materializer)
        | (true, materializer) =>
            match ops.state ref materializer with
            | (state, materializer) => (some state, materializer)
      else (some state, materializer)

/-- `obtain_ready`: the tensor, or the detail of the failure. -/
def obtainReady (ops : WaveMaterializer β) (ref : Nat) (persistent : PersistentTensorRef)
    (materializer : β) : Except String MaterializedTensor × β :=
  match requestReady ops ref persistent materializer with
  | (none, materializer) => (.error "persistent tensor materialization request failed", materializer)
  | (some state, materializer) =>
      match if state = .inFlight then ops.wait ref materializer else (state, materializer) with
      | (state, materializer) =>
          if state ≠ .ready then
            (.error ("persistent tensor is not ready: " ++ materializationStateName state),
              materializer)
          else
            match ops.obtainReadyTensor ref materializer with
            | (none, materializer) =>
                (.error "persistent tensor reported ready without a payload", materializer)
            | (some ready, materializer) => (.ok ready, materializer)

/-! ### One operation -/

/-- The tensors that this operation materialized, and the names it acquired. -/
structure AcquiredInputs where
  materialized : List (Nat × MaterializedTensor) := []
  names : List String := []
  deriving DecidableEq, Repr

/-- A persistent tensor becomes resident. -/
def acquire (index : Nat) (storage : List UInt8) (run : WaveRun β) : WaveRun β :=
  let bytes := (g.persistentAt index).view.payloadLen
  { run with
    resident := run.resident.insert index ⟨storage, bytes⟩
    activeWeightBytes := run.activeWeightBytes + bytes
    report := { run.report with
      sumAcquiredWeightBytes := run.report.sumAcquiredWeightBytes + bytes
      persistentLifetimes := run.report.persistentLifetimes.modify index
        (fun lifetime => { lifetime with acquireStep := run.report.trace.length + 1 }) } }

/-- `materializer_leases.insert`. -/
def lease (index : Nat) (materializer : β) (run : WaveRun β) : WaveRun β :=
  { run with materializerLeases := run.materializerLeases.insert index, materializer }

def failedMaterialization (operation : TensorWaveOp) (detail : String) : WaveFailure :=
  .adapter .invalidArgument (operation.opId ++ ": " ++ detail)

section Operation

variable (storageProvider : TensorWaveStorageProvider) (ops? : Option (WaveMaterializer β))
  (operation : TensorWaveOp)

/-- The acquisition loop over the inputs. -/
def acquireInputs : List TensorWaveRef → AcquiredInputs → WaveRun β →
    Except WaveFailure AcquiredInputs × WaveRun β
  | [], acquired, run => (.ok acquired, run)
  | .value _ :: rest, acquired, run => acquireInputs rest acquired run
  | .persistent index :: rest, acquired, run =>
      if (run.resident.lookup index).isSome then acquireInputs rest acquired run
      else
        let persistent := g.persistentAt index
        match ops? with
        | none =>
            acquireInputs rest { acquired with names := acquired.names ++ [persistent.name] }
              (g.acquire index (storageProvider persistent.view) run)
        | some ops =>
            match obtainReady ops index persistent run.materializer with
            | (.error detail, materializer) =>
                (.error (failedMaterialization operation detail), { run with materializer })
            | (.ok ready, materializer) =>
                acquireInputs rest
                  { materialized := acquired.materialized ++ [(index, ready)]
                    names := acquired.names ++ [persistent.name] }
                  (g.acquire index ready.payload (lease index materializer run))

def Operand.ofView (view : TensorView) (storage : List UInt8) : Operand :=
  ⟨view.representation, view.dimensions, storage⟩

def Operand.ofMaterialized (ready : MaterializedTensor) : Operand :=
  ⟨ready.representation, ready.dimensions, ready.payload⟩

/-- The operands prepared so far, with the materialized tensors and the values
consumed. -/
structure PreparedInputs where
  materialized : List (Nat × MaterializedTensor)
  operands : List Operand := []
  consumed : List String := []
  deriving DecidableEq, Repr

def PreparedInputs.push (prepared : PreparedInputs) (operand : Operand) : PreparedInputs :=
  { prepared with operands := prepared.operands ++ [operand] }

/-- The loop that binds each input.  A tensor that an earlier operation
materialized is obtained again. -/
def prepareInputs : List TensorWaveRef → PreparedInputs → WaveRun β →
    Except WaveFailure PreparedInputs × WaveRun β
  | [], prepared, run => (.ok prepared, run)
  | .persistent index :: rest, prepared, run =>
      match run.resident.lookup index with
      | none => (.error .outOfRange, run)
      | some resident =>
          match prepared.materialized.lookup index with
          | some ready =>
              prepareInputs rest (prepared.push (Operand.ofMaterialized ready)) run
          | none =>
              match ops? with
              | none =>
                  prepareInputs rest
                    (prepared.push (Operand.ofView (g.persistentAt index).view resident.storage)) run
              | some ops =>
                  match obtainReady ops index (g.persistentAt index) run.materializer with
                  | (.error detail, materializer) =>
                      (.error (failedMaterialization operation detail), { run with materializer })
                  | (.ok ready, materializer) =>
                      prepareInputs rest
                        { prepared with
                          materialized := prepared.materialized ++ [(index, ready)]
                          operands := prepared.operands ++ [Operand.ofMaterialized ready] }
                        (lease index materializer run)
  | .value index :: rest, prepared, run =>
      match run.values.lookup index with
      | none => (.error .outOfRange, run)
      | some view =>
          prepareInputs rest
            { prepared.push (Operand.ofView view (storageProvider view)) with
              consumed := prepared.consumed ++ [g.valueName index] } run

/-- The result becomes a value, and the output when it is the external one. -/
def produce (product : Product) (run : WaveRun β) : WaveRun β :=
  let external := operation.outputValue = g.externalOutput
  let captured := operation.outputValue = g.captureValue
  { run with
    values := run.values.insert operation.outputValue product.view
    activeTransientBytes := run.activeTransientBytes + product.view.payloadLen
    output := if external then product.bytes else run.output
    outputShape := if external then product.ne else run.outputShape
    report := { run.report with
      externalOutputPreserved := run.report.externalOutputPreserved || decide external
      capturedValue := if captured then product.bytes else run.report.capturedValue
      capturedValueShape := if captured then product.ne else run.report.capturedValueShape } }

structure ReleasedInputs where
  persistents : List String := []
  values : List String := []
  deriving DecidableEq, Repr

/-- The materializer's part of a release, when there is a lease. -/
def releaseLease (index : Nat) (leases : List Nat) (materializer : β) : β :=
  match ops? with
  | some ops => if index ∈ leases then ops.release index materializer else materializer
  | none => materializer

/-- A persistent tensor has no use left. -/
def releasePersistent (index : Nat) (run : WaveRun β) : WaveRun β :=
  { run with
    activeWeightBytes := run.activeWeightBytes - (g.persistentAt index).view.payloadLen
    resident := run.resident.erase index
    materializerLeases := run.materializerLeases.erase index
    materializer := releaseLease ops? index run.materializerLeases run.materializer
    report := { run.report with
      persistentLifetimes := run.report.persistentLifetimes.modify index
        (fun lifetime => { lifetime with releaseStep := run.report.trace.length + 1 }) } }

def releaseValue (index : Nat) (view : TensorView) (run : WaveRun β) : WaveRun β :=
  { run with
    activeTransientBytes := run.activeTransientBytes - view.payloadLen
    values := run.values.erase index }

/-- The release loop over the inputs. -/
def releaseInputs : List TensorWaveRef → ReleasedInputs → WaveRun β →
    Except WaveFailure ReleasedInputs × WaveRun β
  | [], released, run => (.ok released, run)
  | .persistent index :: rest, released, run =>
      let remaining := run.remainingPersistent index - 1
      let run := { run with
        remainingPersistent := Function.update run.remainingPersistent index remaining }
      if remaining = 0 then
        releaseInputs rest
          { released with persistents := released.persistents ++ [(g.persistentAt index).name] }
          (g.releasePersistent ops? index run)
      else releaseInputs rest released run
  | .value index :: rest, released, run =>
      let remaining := run.remainingValues index - 1
      let run := { run with
        remainingValues := Function.update run.remainingValues index remaining }
      if remaining = 0 ∧ index ≠ g.externalOutput then
        match run.values.lookup index with
        | none => (.error .outOfRange, run)
        | some view =>
            releaseInputs rest { released with values := released.values ++ [g.valueName index] }
              (releaseValue index view run)
      else releaseInputs rest released run

end Operation

/-! ### Passes -/

/-- Every value among the inputs is there. -/
def runnable (run : WaveRun β) (index : Nat) : Bool :=
  (g.operationAt index).inputs.all fun
    | .persistent _ => true
    | .value value => (run.values.lookup value).isSome

/-- The runnable operations in index order; the first is selected. -/
def runnableOperations (run : WaveRun β) : List Nat :=
  (List.range g.operations.length).filter
    (fun index => !run.completed index && g.runnable run index)

section Execute

variable (semantics : OperationSemantics) (storageProvider : TensorWaveStorageProvider)
  (ops? : Option (WaveMaterializer β))

/-- One pass of the loop. -/
def pass (run : WaveRun β) : Except WaveFailure Unit × WaveRun β :=
  match g.runnableOperations run with
  | [] =>
      (.error (.adapter .invalidArgument "tensor dependency graph has no runnable operation"), run)
  | selected :: others =>
      let operation := g.operationAt selected
      match g.acquireInputs storageProvider ops? operation operation.inputs {} run with
      | (.error failure, run) => (.error failure, run)
      | (.ok acquired, run) =>
          let weightDuring := run.activeWeightBytes
          let countDuring := run.resident.keys.length
          let run := { run with report := { run.report with
            peakActiveWeightBytes := max run.report.peakActiveWeightBytes weightDuring } }
          match g.prepareInputs storageProvider ops? operation operation.inputs
              { materialized := acquired.materialized } run with
          | (.error failure, run) => (.error failure, run)
          | (.ok prepared, run) =>
              match semantics operation prepared.operands with
              | .error failure => (.error failure, run)
              | .ok product =>
                  match g.releaseInputs ops? operation.inputs {}
                      (g.produce operation product run) with
                  | (.error failure, run) => (.error failure, run)
                  | (.ok released, run) =>
                      let step : TensorWaveTraceStep :=
                        { opId := operation.opId
                          opKind := operation.kind
                          runnableBefore := (selected :: others).map (fun i => (g.operationAt i).opId)
                          persistentAcquired := acquired.names
                          persistentReleased := released.persistents
                          inputValuesConsumed := prepared.consumed
                          outputValuesProduced := [g.valueName operation.outputValue]
                          valuesReleased := released.values
                          activePersistentWeightBytesDuring := weightDuring
                          activePersistentTensorCountDuring := countDuring
                          activePersistentWeightBytes := run.activeWeightBytes
                          activePersistentTensorCount := run.resident.keys.length
                          activeTransientBytes := run.activeTransientBytes }
                      (.ok (), { run with
                        completed := Function.update run.completed selected true
                        report := { run.report with
                          activeTransientBytes := run.activeTransientBytes
                          trace := run.report.trace ++ [step] } })

/-- The passes that are left: each completes one operation. -/
def passes : Nat → WaveRun β → Except WaveFailure Unit × WaveRun β
  | 0, run => (.ok (), run)
  | count + 1, run =>
      match g.pass semantics storageProvider ops? run with
      | (.error failure, run) => (.error failure, run)
      | (.ok (), run) => passes count run

/-- The checks after the last pass. -/
def complete (run : WaveRun β) : Except WaveFailure Unit × WaveRun β :=
  let released := decide (run.resident.keys = []) && run.activeWeightBytes == 0
  let preserved := run.report.externalOutputPreserved
  let run := { run with report := { run.report with
    allPersistentReleased := released
    activeTransientBytes := run.activeTransientBytes } }
  if released = false ∨ preserved = false then
    (.error (.adapter .backendAllocationFailed ("tensor wave completion invariant failed: " ++
      "all_persistent_released=" ++ (if released then "true" else "false") ++
      " external_output_preserved=" ++ (if preserved then "true" else "false"))), run)
  else (.ok (), run)

/-- `MaterializerLeaseCleanup`: the leases that are left when `execute` returns. -/
def cleanup (run : WaveRun β) : β :=
  match ops? with
  | none => run.materializer
  | some ops => run.materializerLeases.foldl (fun m index => ops.release index m) run.materializer

/-- What a call of `execute` returns and leaves behind. -/
structure Outcome (β : Type) where
  result : Except WaveFailure Unit
  output : List UInt8
  outputShape : List UInt64
  report : TensorWaveReport
  materializer : β

/-- The loop and the final checks. -/
def executeRun (input : TensorView) (materializer : β) : Except WaveFailure Unit × WaveRun β :=
  match g.passes semantics storageProvider ops? g.operations.length
      (g.initialRun input materializer) with
  | (.error failure, run) => (.error failure, run)
  | (.ok (), run) => complete run

def execute (input : TensorView) (materializer : β) : Outcome β :=
  match g.validate with
  | .error failure => ⟨.error failure, [], [], {}, materializer⟩
  | .ok () =>
      match g.executeRun semantics storageProvider ops? input materializer with
      | (result, run) => ⟨result, run.output, run.outputShape, run.report, cleanup ops? run⟩

end Execute

end TensorDependencyExecutor

end VBuf.Ggml
