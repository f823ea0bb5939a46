import Mathlib.Logic.Relation
import VBuf.Ggml.LocalMaterializer
import VBuf.Lib.Slice

/-!
# The striped materializer

`ParallelRangeMaterializer` reads one tensor as two stripes, each on a thread of its own,
into one buffer.  A worker thread starts them, joins them and publishes the result.  Each
critical section is one step, and so is each access of a shared flag; a read may overwrite
its part of the buffer any number of times before it returns.  The traces are left out.
-/

namespace VBuf.Ggml

open VBuf.Lib

/-! ### The plan -/

/-- `RangeReadResult`, with what the materializer reads of it, and what `read_range` returns. -/
structure StripeRead where
  success : Bool
  returnedBytes : UInt64
  deriving DecidableEq, Repr

/-- `RangeSource`: the bytes that a read of a range can leave at its destination, and how it
can return. -/
structure RangeSource where
  reads : UInt64 → UInt64 → List UInt8 → StripeRead → Prop

/-- `RangeStripe`; a null source is none. -/
structure RangeStripe where
  id : String
  source : Option RangeSource
  sourceOffset : UInt64
  destinationOffset : UInt64
  length : UInt64

/-- `RangeStripingPlan`. -/
structure RangeStripingPlan where
  tensorOffset : UInt64
  tensorLength : UInt64
  stripes : List RangeStripe

namespace RangeStripingPlan

/-- The loop of `validate`: where the next stripe is to start. -/
def nextDestination (tensorOffset : UInt64) : List RangeStripe → UInt64 → Option UInt64
  | [], next => some next
  | stripe :: rest, next =>
      if stripe.source.isNone ∨ stripe.length = 0 ∨ stripe.destinationOffset ≠ next ∨
          stripe.sourceOffset ≠ tensorOffset + stripe.destinationOffset then none
      else nextDestination tensorOffset rest (next + stripe.length)

/-- `validate`. -/
def validate (plan : RangeStripingPlan) : Bool :=
  plan.stripes.length = 2 ∧
    nextDestination plan.tensorOffset plan.stripes 0 = some plan.tensorLength

/-- `RangeStripingPlan::two_way`. -/
def twoWay (tensorOffset tensorLength : UInt64) (sourceA sourceB : Option RangeSource)
    (alignment : UInt64) : Option RangeStripingPlan :=
  if sourceA.isNone ∨ sourceB.isNone ∨ tensorLength < 2 ∨ alignment = 0 then none
  else
    let half := tensorLength / 2
    let split := half - half % alignment
    if split = 0 ∨ split ≥ tensorLength then none
    else
      let plan : RangeStripingPlan :=
        { tensorOffset
          tensorLength
          stripes :=
            [⟨"A", sourceA, tensorOffset, 0, split⟩,
              ⟨"B", sourceB, tensorOffset + split, split, tensorLength - split⟩] }
      if plan.validate = true then some plan else none

end RangeStripingPlan

/-! ### The threads -/

/-- Where the thread of a stripe is. -/
inductive StripeThread
  | absent
  | starting
  | spinning
  | reading
  | stored (result : StripeRead)
  | done (result : StripeRead)
  deriving DecidableEq, Repr

/-- Where the worker thread is; it has started some of the stripe threads. -/
inductive WorkerThread
  | absent
  | spawning (started : Nat)
  | gathering
  | joining
  | joined
  | finished
  deriving DecidableEq, Repr

/-- The members of `ParallelRangeMaterializer`, and its threads with the flags they share. -/
structure StripedMaterializer where
  tensorRef : UInt32
  tensor : Option PersistentTensorRef
  state : MaterializationState
  owner : Option (List UInt8)
  ready : Option MaterializedTensor
  inflightBytes : UInt64
  readyBytes : UInt64
  worker : WorkerThread
  threads : Nat → StripeThread
  readyWorkers : Nat
  go : Bool

namespace StripedMaterializer

/-- `ParallelRangeMaterializer(plan)`. -/
def fresh : StripedMaterializer where
  tensorRef := 0xFFFFFFFF
  tensor := none
  state := .notRequested
  owner := none
  ready := none
  inflightBytes := 0
  readyBytes := 0
  worker := .absent
  threads := fun _ => .absent
  readyWorkers := 0
  go := false

/-! ### Calls -/

/-- `request`; `memory` is what `posix_memalign` returns, none if it fails. -/
def request (plan : RangeStripingPlan) (tensorRef : UInt32) (tensor : PersistentTensorRef)
    (byteBudget : UInt64) (memory : Option (List UInt8)) (m : StripedMaterializer) :
    Bool × StripedMaterializer :=
  if m.state ≠ .notRequested ∨ tensor.view.payloadLen > byteBudget ∨
      tensor.sourceOffset ≠ plan.tensorOffset ∨ tensor.view.payloadLen ≠ plan.tensorLength then
    (false, m)
  else if plan.validate = false then (false, m)
  else
    match memory with
    | none => (false, m)
    | some bytes =>
        (true, { m with
          tensorRef
          tensor := some tensor
          state := .inFlight
          owner := some bytes
          inflightBytes := tensor.view.payloadLen
          worker := .spawning 0 })

/-- `state`. -/
def stateOf (tensorRef : UInt32) (m : StripedMaterializer) : MaterializationState :=
  if tensorRef = m.tensorRef then m.state else .notRequested

/-- `obtain_ready_tensor`. -/
def obtainReadyTensor (tensorRef : UInt32) (m : StripedMaterializer) : Option MaterializedTensor :=
  if tensorRef ≠ m.tensorRef ∨ m.state ≠ .ready then none else m.ready

/-- `release`. -/
def release (tensorRef : UInt32) (m : StripedMaterializer) : StripedMaterializer :=
  if tensorRef ≠ m.tensorRef ∨ m.state ≠ .ready then m
  else { m with readyBytes := 0, ready := none, owner := none, state := .released }

/-! ### Steps of the threads -/

def setThread (i : Nat) (thread : StripeThread) (m : StripedMaterializer) : StripedMaterializer :=
  { m with threads := Function.update m.threads i thread }

@[simp] theorem setThread_self (i : Nat) (thread : StripeThread) (m : StripedMaterializer) :
    (setThread i thread m).threads i = thread := by
  rw [setThread]
  exact Function.update_self i thread m.threads

theorem setThread_of_ne {i j : Nat} (h : j ≠ i) (thread : StripeThread) (m : StripedMaterializer) :
    (setThread i thread m).threads j = m.threads j := by
  rw [setThread]
  exact Function.update_of_ne h thread m.threads

/-- A stripe thread overwrites its part of the buffer. -/
def overwrite (stripe : RangeStripe) (bytes : List UInt8) (m : StripedMaterializer) :
    StripedMaterializer :=
  { m with owner := m.owner.map fun data => patch data stripe.destinationOffset.toNat bytes }

/-- The flag of a stripe in `successes`. -/
def succeeded (stripe : RangeStripe) : StripeThread → Bool
  | .stored result | .done result => result.success && result.returnedBytes == stripe.length
  | _ => false

/-- `complete`. -/
def complete (plan : RangeStripingPlan) (m : StripedMaterializer) : Bool :=
  plan.stripes.zipIdx.all fun item => succeeded item.1 (m.threads item.2)

/-- The last critical section of the worker. -/
def publish (plan : RangeStripingPlan) (m : StripedMaterializer) : StripedMaterializer :=
  let failed : StripedMaterializer :=
    { m with inflightBytes := 0, owner := none, state := .failed, worker := .finished }
  if complete plan m = false then failed
  else
    match m.tensor, m.owner with
    | some tensor, some bytes =>
        match MaterializedTensor.assignView tensor.view bytes with
        | none => failed
        | some ready =>
            { m with
              inflightBytes := 0
              ready := some ready
              readyBytes := UInt64.ofNat bytes.length
              state := .ready
              worker := .finished }
    -- The worker runs only with a tensor and its buffer.
    | _, _ => failed

/-- What a thread or a caller does next. -/
inductive Step (plan : RangeStripingPlan) : StripedMaterializer → StripedMaterializer → Prop
  | request {m : StripedMaterializer} (tensorRef : UInt32) (tensor : PersistentTensorRef)
      (byteBudget : UInt64) (memory : Option (List UInt8))
      (hmemory : ∀ bytes ∈ memory, bytes.length = tensor.view.payloadLen.toNat) :
      Step plan m (request plan tensorRef tensor byteBudget memory m).2
  | release {m : StripedMaterializer} (tensorRef : UInt32) : Step plan m (release tensorRef m)
  | spawn {m : StripedMaterializer} {i : Nat} (hworker : m.worker = .spawning i)
      (hi : i < plan.stripes.length) :
      Step plan m { setThread i .starting m with worker := .spawning (i + 1) }
  | gather {m : StripedMaterializer} (hworker : m.worker = .spawning plan.stripes.length) :
      Step plan m { m with worker := .gathering }
  | arrive {m : StripedMaterializer} {i : Nat} (hthread : m.threads i = .starting) :
      Step plan m { setThread i .spinning m with readyWorkers := m.readyWorkers + 1 }
  | start {m : StripedMaterializer} (hworker : m.worker = .gathering)
      (hready : m.readyWorkers = plan.stripes.length) :
      Step plan m { m with go := true, worker := .joining }
  | begin {m : StripedMaterializer} {i : Nat} (hthread : m.threads i = .spinning)
      (hgo : m.go = true) : Step plan m (setThread i .reading m)
  | write {m : StripedMaterializer} {i : Nat} {stripe : RangeStripe} {bytes : List UInt8}
      (hthread : m.threads i = .reading) (hstripe : plan.stripes[i]? = some stripe)
      (hbytes : bytes.length = stripe.length.toNat) : Step plan m (overwrite stripe bytes m)
  | finish {m : StripedMaterializer} {i : Nat} {stripe : RangeStripe} {source : RangeSource}
      {bytes : List UInt8} {result : StripeRead} (hthread : m.threads i = .reading)
      (hstripe : plan.stripes[i]? = some stripe) (hsource : stripe.source = some source)
      (hreads : source.reads stripe.sourceOffset stripe.length bytes result)
      (hbytes : bytes.length = stripe.length.toNat) :
      Step plan m (setThread i (.stored result) (overwrite stripe bytes m))
  | record {m : StripedMaterializer} {i : Nat} {result : StripeRead}
      (hthread : m.threads i = .stored result) : Step plan m (setThread i (.done result) m)
  | join {m : StripedMaterializer} (hworker : m.worker = .joining)
      (hdone : ∀ i, i < plan.stripes.length → ∃ result, m.threads i = .done result) :
      Step plan m { m with worker := .joined }
  | publish {m : StripedMaterializer} (hworker : m.worker = .joined) :
      Step plan m (publish plan m)

/-- Any number of steps. -/
abbrev Steps (plan : RangeStripingPlan) := Relation.ReflTransGen (Step plan)

end StripedMaterializer

end VBuf.Ggml
