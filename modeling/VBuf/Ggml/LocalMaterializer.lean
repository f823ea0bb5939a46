import VBuf.Ggml.TensorWave

/-!
# The local range materializer

`LocalVbufRangeMaterializer` reads each requested tensor on a worker thread of
its own.  A worker can finish before any call, so an oracle names the workers
that finish before each call; `wait` joins the worker of its tensor.  Memory is
taken to be there.  The trace and its hashes are left out.
-/

namespace VBuf.Ggml

open VBuf.Lib

/-- `RangeSource::read_range`: the bytes at an offset, or a failure. -/
abbrev RangeReader := UInt64 → UInt64 → Option (List UInt8)

/-- `GGML_MAX_DIMS`. -/
def ggmlMaxDims : Nat := 4

/-- `MaterializedTensor::assign_view`, with the bytes that were read. -/
def MaterializedTensor.assignView (view : TensorView) (payload : List UInt8) :
    Option MaterializedTensor :=
  if view.dimensions.length > ggmlMaxDims then none
  else some ⟨view.representation, view.dimensions, payload, view.payloadLen⟩

/-- `LocalVbufRangeMaterializer::Impl::Request`. -/
structure LocalRequest where
  tensor : PersistentTensorRef
  state : MaterializationState := .notRequested
  ready : Option MaterializedTensor := none
  deriving DecidableEq, Repr

/-- The members of the materializer, and how often it has been called. -/
structure LocalVbufRangeMaterializer where
  requests : AssocMap Nat LocalRequest
  inflightBytes : UInt64
  readyBytes : UInt64
  calls : Nat

namespace LocalVbufRangeMaterializer

def fresh : LocalVbufRangeMaterializer := ⟨∅, 0, 0, 0⟩

section Worker

variable (source fallbackSource : Option RangeReader)

/-- What a worker reads; without a source it copies the mapped payload. -/
def readPayload (tensor : PersistentTensorRef) : Option (List UInt8) :=
  match source with
  | none => some (tensor.view.payload.take tensor.view.payloadLen.toNat)
  | some read =>
      match read tensor.sourceOffset tensor.view.payloadLen, fallbackSource with
      | some bytes, _ => some bytes
      | none, some readFallback => readFallback tensor.sourceOffset tensor.view.payloadLen
      | none, none => none

/-- The end of a worker: its tensor is ready or has failed. -/
def finishWorker (tensorRef : Nat) (m : LocalVbufRangeMaterializer) : LocalVbufRangeMaterializer :=
  match m.requests.lookup tensorRef with
  | none => m
  | some request =>
      if request.state ≠ .inFlight then m
      else
        let len := request.tensor.view.payloadLen
        match (readPayload source fallbackSource request.tensor).bind
            (MaterializedTensor.assignView request.tensor.view) with
        | none =>
            { m with
              inflightBytes := m.inflightBytes - len
              requests := m.requests.insert tensorRef { request with state := .failed } }
        | some ready =>
            { m with
              inflightBytes := m.inflightBytes - len
              readyBytes := m.readyBytes + len
              requests := m.requests.insert tensorRef
                { request with state := .ready, ready := some ready } }

/-- The workers that finish before the next call. -/
def tick (finishing : Nat → List Nat) (m : LocalVbufRangeMaterializer) :
    LocalVbufRangeMaterializer :=
  { (finishing m.calls).foldl (fun m ref => finishWorker source fallbackSource ref m) m with
    calls := m.calls + 1 }

end Worker

/-! ### Calls -/

/-- The new request of an admitted tensor. -/
def admitTensor (tensorRef : Nat) (tensor : PersistentTensorRef) (byteBudget : UInt64)
    (m : LocalVbufRangeMaterializer) : Bool × LocalVbufRangeMaterializer :=
  let len := tensor.view.payloadLen
  if len > byteBudget ∨ m.inflightBytes + m.readyBytes + len > byteBudget then (false, m)
  else
    (true, { m with
      inflightBytes := m.inflightBytes + len
      requests := m.requests.insert tensorRef { tensor, state := .inFlight } })

/-- A request that is neither released nor failed stays; any other makes room. -/
def request (tensorRef : Nat) (tensor : PersistentTensorRef) (byteBudget : UInt64)
    (m : LocalVbufRangeMaterializer) : Bool × LocalVbufRangeMaterializer :=
  match m.requests.lookup tensorRef with
  | none => admitTensor tensorRef tensor byteBudget m
  | some existing =>
      if existing.state ≠ .released ∧ existing.state ≠ .failed then (false, m)
      else admitTensor tensorRef tensor byteBudget { m with requests := m.requests.erase tensorRef }

def state (tensorRef : Nat) (m : LocalVbufRangeMaterializer) : MaterializationState :=
  match m.requests.lookup tensorRef with
  | none => .notRequested
  | some request => request.state

def obtainReadyTensor (tensorRef : Nat) (m : LocalVbufRangeMaterializer) :
    Option MaterializedTensor :=
  match m.requests.lookup tensorRef with
  | none => none
  | some request => if request.state ≠ .ready then none else request.ready

def release (tensorRef : Nat) (m : LocalVbufRangeMaterializer) : LocalVbufRangeMaterializer :=
  match m.requests.lookup tensorRef with
  | none => m
  | some request =>
      if request.state = .ready then
        { m with
          readyBytes := m.readyBytes - request.tensor.view.payloadLen
          requests := m.requests.insert tensorRef
            { request with state := .released, ready := none } }
      else m

/-- The calls of the executor: each finds the workers as they are. -/
def waveMaterializer (source fallbackSource : Option RangeReader) (finishing : Nat → List Nat) :
    WaveMaterializer LocalVbufRangeMaterializer where
  request := fun ref tensor budget m =>
    request ref tensor budget (tick source fallbackSource finishing m)
  state := fun ref m =>
    let m := tick source fallbackSource finishing m
    (state ref m, m)
  wait := fun ref m =>
    let m := finishWorker source fallbackSource ref (tick source fallbackSource finishing m)
    (state ref m, m)
  obtainReadyTensor := fun ref m =>
    let m := tick source fallbackSource finishing m
    (obtainReadyTensor ref m, m)
  release := fun ref m => release ref (tick source fallbackSource finishing m)

end LocalVbufRangeMaterializer

end VBuf.Ggml
