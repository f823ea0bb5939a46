import Mathlib.Data.Fintype.Basic
import VBuf.Ggml.ResidencyAccounting

/-!
# Materializers over a shared store

`ResidentTensorMaterializer` answers requests from a shared residency store and
falls back on a backing materializer of its own.  A system is a store with any
number of them; each call is one step.
-/

namespace VBuf.Ggml

open VBuf.Lib

/-- `ResidentTensorMaterializer::RequestInfo`. -/
structure RequestInfo where
  tensor : PersistentTensorRef
  leaseAcquired : Bool := false
  retained : Bool := false
  backingRequested : Bool := false
  retainedTensor : Option MaterializedTensor := none
  deriving DecidableEq, Repr

/-- `ResidentTensorMaterializer`, with the state of its backing; the store is
shared and passed along. -/
structure ResidentTensorMaterializer (β : Type) where
  backing : β
  knownTensors : AssocMap UInt32 PersistentTensorRef
  requests : AssocMap UInt32 RequestInfo

namespace ResidentTensorMaterializer

variable {β : Type}

/-- The constructor. -/
def fresh (backing : β) : ResidentTensorMaterializer β where
  backing
  knownTensors := ∅
  requests := ∅

/-- `requests_[tensor_ref] = info`. -/
def setRequest (self : ResidentTensorMaterializer β) (tensorRef : UInt32) (info : RequestInfo) :
    ResidentTensorMaterializer β :=
  { self with requests := self.requests.insert tensorRef info }

/-- The request with a lease on a resident tensor. -/
def RequestInfo.retain (info : RequestInfo) (resident : MaterializedTensor) : RequestInfo :=
  { info with retained := true, leaseAcquired := true, retainedTensor := some resident }

/-- The second half of `request`: a new request record. -/
def requestAnew (ops : TensorMaterializer β) (tensorRef : UInt32) (tensor : PersistentTensorRef)
    (byteBudget : UInt64) (self : ResidentTensorMaterializer β) (store : TensorResidencyStore) :
    Bool × ResidentTensorMaterializer β × TensorResidencyStore :=
  let info : RequestInfo := { tensor }
  let store := store.noteRequest tensorRef
  match store.acquireMaterialized tensorRef with
  | (some resident, store) => (true, self.setRequest tensorRef (RequestInfo.retain info resident), store)
  | (none, store) =>
      let self := self.setRequest tensorRef { info with backingRequested := true }
      let (accepted, backing) := ops.request tensorRef tensor byteBudget self.backing
      let self := { self with backing }
      if accepted = true then (true, self, store)
      else
        (decide (ops.state tensorRef backing = .inFlight ∨ ops.state tensorRef backing = .ready),
          self, store)

/-- `request`. -/
def request (ops : TensorMaterializer β) (tensorRef : UInt32) (tensor : PersistentTensorRef)
    (byteBudget : UInt64) (self : ResidentTensorMaterializer β) (store : TensorResidencyStore) :
    Bool × ResidentTensorMaterializer β × TensorResidencyStore :=
  let self := { self with knownTensors := self.knownTensors.insert tensorRef tensor }
  match self.requests.lookup tensorRef with
  | none => requestAnew ops tensorRef tensor byteBudget self store
  | some existing =>
      if existing.retained = true then (true, self, store)
      else
        match store.acquireMaterialized tensorRef with
        | (some resident, store) =>
            (true, self.setRequest tensorRef (RequestInfo.retain existing resident), store)
        | (none, _) =>
            if ops.state tensorRef self.backing = .inFlight ∨
                ops.state tensorRef self.backing = .ready then
              (true, self, store)
            else requestAnew ops tensorRef tensor byteBudget self store

/-- The request record, if it is retained. -/
def retains (self : ResidentTensorMaterializer β) (tensorRef : UInt32) : Bool :=
  ((self.requests.lookup tensorRef).map RequestInfo.retained).getD false

/-- `state`. -/
def state (ops : TensorMaterializer β) (tensorRef : UInt32) (self : ResidentTensorMaterializer β)
    (store : TensorResidencyStore) : MaterializationState :=
  if self.retains tensorRef = true then .ready
  else if store.contains tensorRef = true then .ready
  else if ops.state tensorRef self.backing = .notRequested ∧
      (self.requests.lookup tensorRef).isSome = true then .notRequested
  else ops.state tensorRef self.backing

/-- The last part of `obtain_ready_tensor`: the tensor comes from the backing. -/
def obtainFromBacking (ops : TensorMaterializer β) (tensorRef : UInt32) (info : RequestInfo)
    (self : ResidentTensorMaterializer β) (store : TensorResidencyStore) :
    Option MaterializedTensor × ResidentTensorMaterializer β × TensorResidencyStore :=
  match ops.obtainReadyTensor tensorRef self.backing with
  | (none, backing) => (none, { self with backing }, store)
  | (some ready, backing) =>
      let self := { self with backing }
      let store := store.noteMaterialize tensorRef
      -- Whether or not the insertion succeeds, an entry that is there is leased.
      let (_, store) := store.insert tensorRef ready
      match store.acquireMaterialized tensorRef with
      | (some resident, store) =>
          (some resident, self.setRequest tensorRef (RequestInfo.retain info resident), store)
      | (none, store) =>
          (some ready, self.setRequest tensorRef
            { info with retained := false, leaseAcquired := false }, store)

/-- `obtain_ready_tensor` of a request record that is there. -/
def obtainRequested (ops : TensorMaterializer β) (tensorRef : UInt32) (info : RequestInfo)
    (self : ResidentTensorMaterializer β) (store : TensorResidencyStore) :
    Option MaterializedTensor × ResidentTensorMaterializer β × TensorResidencyStore :=
  if info.retained = true ∧ info.retainedTensor.isSome = true then
    (info.retainedTensor, self, store)
  else
    match store.acquireMaterialized tensorRef with
    | (some resident, store) =>
        -- The tensor is leased but not kept in the record.
        (some resident,
          self.setRequest tensorRef { info with leaseAcquired := true, retained := true }, store)
    | (none, store) => obtainFromBacking ops tensorRef info self store

/-- `obtain_ready_tensor`. -/
def obtainReadyTensor (ops : TensorMaterializer β) (tensorRef : UInt32)
    (self : ResidentTensorMaterializer β) (store : TensorResidencyStore) :
    Option MaterializedTensor × ResidentTensorMaterializer β × TensorResidencyStore :=
  match self.requests.lookup tensorRef with
  | some info => obtainRequested ops tensorRef info self store
  | none =>
      match self.knownTensors.lookup tensorRef with
      | none => (none, self, store)
      | some tensor =>
          obtainRequested ops tensorRef { tensor } (self.setRequest tensorRef { tensor }) store

/-- `release`. -/
def release (ops : TensorMaterializer β) (tensorRef : UInt32) (self : ResidentTensorMaterializer β)
    (store : TensorResidencyStore) : ResidentTensorMaterializer β × TensorResidencyStore :=
  match self.requests.lookup tensorRef with
  | none => (self, store)
  | some info =>
      let store := if info.retained = true then (store.release tensorRef).2 else store
      let backing :=
        if info.backingRequested = true then ops.release tensorRef self.backing else self.backing
      ({ self with backing, requests := self.requests.erase tensorRef }, store)

end ResidentTensorMaterializer

end VBuf.Ggml
