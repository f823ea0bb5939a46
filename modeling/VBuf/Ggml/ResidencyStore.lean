import Mathlib.Data.Finset.Card
import VBuf.Ggml.Materializer
import VBuf.Lib.AssocTotal

/-!
# The residency store

`TensorResidencyStore` keeps materialized tensors within a byte budget.  An entry
with active leases stays; an insertion evicts the others, one victim of the
replacement policy at a time.  The policy is a parameter, and the event trace is
left out.
-/

namespace VBuf.Ggml

open VBuf.Lib

/-- `ResidentTensor`. -/
structure ResidentTensor where
  tensorRef : UInt32
  materialized : MaterializedTensor
  bytes : UInt64
  lastUse : UInt64
  activeLeases : UInt32
  deriving DecidableEq, Repr

/-- `ResidencyReplacementCandidate`. -/
structure ResidencyReplacementCandidate where
  tensorRef : UInt32
  bytes : UInt64
  activeLeases : UInt32
  lastRequestOrdinal : UInt64
  observedRequestCount : UInt64
  reacquireCostBytes : UInt64
  deriving DecidableEq, Repr

/-- `ResidencyReplacementPolicy::choose`, of the candidates and the current
request ordinal. -/
abbrev ResidencyReplacementPolicy := List ResidencyReplacementCandidate → UInt64 → UInt32

/-- `TensorResidencyStore`, without its trace, names and policy statistics. -/
structure TensorResidencyStore where
  maxResidentBytes : UInt64
  residentBytes : UInt64
  clock : UInt64
  requestOrdinal : UInt64
  entries : AssocMap UInt32 ResidentTensor
  lastRequestOrdinal : UInt32 → UInt64
  observedRequestCount : UInt32 → UInt64
  materializedTensors : Finset UInt32
  replacementPolicy : ResidencyReplacementPolicy
  materializationCount : UInt64
  reacquisitionCount : UInt64
  evictionCount : UInt64

namespace TensorResidencyStore

/-- The constructor. -/
def empty (maxResidentBytes : UInt64) (replacementPolicy : ResidencyReplacementPolicy) :
    TensorResidencyStore where
  maxResidentBytes
  residentBytes := 0
  clock := 0
  requestOrdinal := 0
  entries := ∅
  lastRequestOrdinal := fun _ => 0
  observedRequestCount := fun _ => 0
  materializedTensors := ∅
  replacementPolicy
  materializationCount := 0
  reacquisitionCount := 0
  evictionCount := 0

/-- `contains`. -/
def contains (store : TensorResidencyStore) (tensorRef : UInt32) : Bool :=
  (store.entries.lookup tensorRef).isSome

/-- One more lease on an entry that is there. -/
def leased (store : TensorResidencyStore) (tensorRef : UInt32) (entry : ResidentTensor) :
    TensorResidencyStore :=
  { store with
    clock := store.clock + 1
    entries := store.entries.insert tensorRef
      { entry with activeLeases := entry.activeLeases + 1, lastUse := store.clock + 1 } }

/-- `acquire_materialized`. -/
def acquireMaterialized (store : TensorResidencyStore) (tensorRef : UInt32) :
    Option MaterializedTensor × TensorResidencyStore :=
  match store.entries.lookup tensorRef with
  | none => (none, store)
  | some entry => (some entry.materialized, store.leased tensorRef entry)

/-- `acquire`. -/
def acquire (store : TensorResidencyStore) (tensorRef : UInt32) : Bool × TensorResidencyStore :=
  match store.entries.lookup tensorRef with
  | none => (false, store)
  | some entry => (true, store.leased tensorRef entry)

/-- `release`. -/
def release (store : TensorResidencyStore) (tensorRef : UInt32) : Bool × TensorResidencyStore :=
  match store.entries.lookup tensorRef with
  | none => (false, store)
  | some entry =>
      if entry.activeLeases = 0 then (false, store)
      else
        (true,
          { store with
            entries := store.entries.insert tensorRef
              { entry with activeLeases := entry.activeLeases - 1 } })

/-- `note_request`. -/
def noteRequest (store : TensorResidencyStore) (tensorRef : UInt32) : TensorResidencyStore :=
  { store with
    requestOrdinal := store.requestOrdinal + 1
    observedRequestCount := fun ref =>
      if ref = tensorRef then store.observedRequestCount ref + 1 else store.observedRequestCount ref
    lastRequestOrdinal := fun ref =>
      if ref = tensorRef then store.requestOrdinal + 1 else store.lastRequestOrdinal ref }

/-- `note_materialize`. -/
def noteMaterialize (store : TensorResidencyStore) (tensorRef : UInt32) : TensorResidencyStore :=
  { store with
    materializationCount := store.materializationCount + 1
    materializedTensors := insert tensorRef store.materializedTensors
    reacquisitionCount :=
      if tensorRef ∈ store.materializedTensors then store.reacquisitionCount + 1
      else store.reacquisitionCount }

/-- The store without an entry. -/
def without (store : TensorResidencyStore) (tensorRef : UInt32) (entry : ResidentTensor) :
    TensorResidencyStore :=
  { store with
    residentBytes := store.residentBytes - entry.bytes
    entries := store.entries.erase tensorRef
    evictionCount := store.evictionCount + 1 }

/-- `evict`. -/
def evict (store : TensorResidencyStore) (tensorRef : UInt32) : Bool × TensorResidencyStore :=
  match store.entries.lookup tensorRef with
  | none => (false, store)
  | some entry =>
      if entry.activeLeases ≠ 0 then (false, store) else (true, store.without tensorRef entry)

/-- The unleased entries, as the policy sees them. -/
def candidates (store : TensorResidencyStore) : List ResidencyReplacementCandidate :=
  store.entries.entries.filterMap fun pair =>
    if pair.2.activeLeases ≠ 0 then none
    else
      some
        { tensorRef := pair.1
          bytes := pair.2.bytes
          activeLeases := pair.2.activeLeases
          lastRequestOrdinal := store.lastRequestOrdinal pair.1
          observedRequestCount := store.observedRequestCount pair.1
          reacquireCostBytes := pair.2.bytes }

/-- `evict_one`: nothing to evict, or a choice that is no candidate, fails. -/
def evictOne (store : TensorResidencyStore) : Bool × TensorResidencyStore :=
  if store.candidates = [] then (false, store)
  else store.evict (store.replacementPolicy store.candidates store.requestOrdinal)

/-- The loop of `insert`.  Each round evicts an entry, so the entry count is
enough fuel. -/
def evictFor (bytes : UInt64) : Nat → TensorResidencyStore → TensorResidencyStore
  | 0, store => store
  | fuel + 1, store =>
      if store.maxResidentBytes < store.residentBytes + bytes then
        match store.evictOne with
        | (true, store) => evictFor bytes fuel store
        | (false, store) => store
      else store

/-- The store with a new entry. -/
def inserted (store : TensorResidencyStore) (tensorRef : UInt32)
    (materialized : MaterializedTensor) : TensorResidencyStore :=
  { store with
    clock := store.clock + 1
    entries := store.entries.insert tensorRef
      { tensorRef, materialized, bytes := materialized.bytes, lastUse := store.clock + 1,
        activeLeases := 0 }
    residentBytes := store.residentBytes + materialized.bytes }

/-- `insert`. -/
def insert (store : TensorResidencyStore) (tensorRef : UInt32)
    (materialized : MaterializedTensor) : Bool × TensorResidencyStore :=
  if store.contains tensorRef = true then (false, store)
  else if store.maxResidentBytes < materialized.bytes then (false, store)
  else
    let store := evictFor materialized.bytes store.entries.entries.length store
    if store.maxResidentBytes < store.residentBytes + materialized.bytes then (false, store)
    else (true, store.inserted tensorRef materialized)

/-- The loop of `clear` over the entries that were there. -/
def clearEntries : List UInt32 → TensorResidencyStore → TensorResidencyStore
  | [], store => store
  | tensorRef :: rest, store =>
      match store.entries.lookup tensorRef with
      | some entry =>
          if entry.activeLeases ≠ 0 then clearEntries rest store
          else
            clearEntries rest
              { store with
                residentBytes := store.residentBytes - entry.bytes
                entries := store.entries.erase tensorRef }
      | none => clearEntries rest store

/-- `clear`. -/
def clear (store : TensorResidencyStore) : TensorResidencyStore :=
  clearEntries store.entries.keys store

end TensorResidencyStore

end VBuf.Ggml
