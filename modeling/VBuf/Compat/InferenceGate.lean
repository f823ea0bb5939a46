import Mathlib.Data.Finset.Max
import VBuf.Lib.AssocTotal

/-!
# The inference gate

Connections are numbered as they come.  Each is classified, as a control request
or as a generation; generations wait at the gate and are admitted one at a time.
The calls on the gate are made under its mutex, so each is one step; the
notifications of its condition variable have no state.
-/

namespace VBuf.Compat

open VBuf.Lib

/-- `AdmissionState`. -/
inductive AdmissionState
  | waiting
  | admitted
  | active
  | completed
  | failed
  | cancelled
  deriving DecidableEq, Repr

/-- `RequestLifecycle`, as far as the gate writes it. -/
structure RequestLifecycle where
  state : AdmissionState := .waiting
  inferenceLeaseAcquires : Nat := 0
  inferenceLeaseReleases : Nat := 0
  deriving DecidableEq, Repr

/-- `InferenceGate`. -/
structure InferenceGate where
  classified : Finset Nat := ∅
  waitingGenerations : Finset Nat := ∅
  classifiedThrough : Nat := 0
  active : Bool := false
  totalAdmitted : Nat := 0
  totalCancelledBeforeAdmission : Nat := 0
  deriving DecidableEq

namespace InferenceGate

/-- The loop of `mark_classified_locked`; each round takes one order out of the set. -/
def advance : Nat → Finset Nat → Nat → Finset Nat × Nat
  | 0, classified, through => (classified, through)
  | fuel + 1, classified, through =>
      if through ∈ classified then advance fuel (classified.erase through) (through + 1)
      else (classified, through)

/-- `mark_classified_locked`. -/
def markClassified (order : Nat) (gate : InferenceGate) : InferenceGate :=
  let classified := insert order gate.classified
  let (classified, classifiedThrough) :=
    advance classified.card classified gate.classifiedThrough
  { gate with classified, classifiedThrough }

/-- `classify`. -/
def classify (order : Nat) (generation : Bool) (gate : InferenceGate) : InferenceGate :=
  markClassified order
    (if generation = true then
      { gate with waitingGenerations := insert order gate.waitingGenerations }
    else gate)

/-- `cancel_locked`. -/
def cancelLocked (order : Nat) (lifecycle : Option RequestLifecycle) (gate : InferenceGate) :
    Option RequestLifecycle × InferenceGate :=
  if order ∈ gate.waitingGenerations then
    (lifecycle.map (fun l => { l with state := .cancelled }),
      { gate with
        waitingGenerations := gate.waitingGenerations.erase order
        totalCancelledBeforeAdmission := gate.totalCancelledBeforeAdmission + 1 })
  else (lifecycle, gate)

/-- The admission test of `acquire`: the gate is free, the connection and all before
it are classified, and no earlier generation waits. -/
def Admits (order : Nat) (gate : InferenceGate) : Prop :=
  gate.active = false ∧ order < gate.classifiedThrough ∧
    order ∈ gate.waitingGenerations ∧ ∀ other ∈ gate.waitingGenerations, order ≤ other

instance (order : Nat) (gate : InferenceGate) : Decidable (gate.Admits order) :=
  inferInstanceAs (Decidable (_ ∧ _ ∧ _ ∧ _))

/-- One round of the loop of `acquire`, up to the wait.  `cancelled` is what the
cancellation and the external cancel say in this round; there is no answer when
the thread goes on waiting. -/
def acquireRound (order : Nat) (cancelled : Bool) (lifecycle : RequestLifecycle)
    (gate : InferenceGate) : Option Bool × RequestLifecycle × InferenceGate :=
  if cancelled = true then
    let (lifecycle', gate) := cancelLocked order (some lifecycle) gate
    (some false, lifecycle'.getD lifecycle, gate)
  else if gate.Admits order then
    (some true,
      { lifecycle with
        state := .admitted
        inferenceLeaseAcquires := lifecycle.inferenceLeaseAcquires + 1 },
      { gate with
        waitingGenerations := gate.waitingGenerations.erase order
        active := true
        totalAdmitted := gate.totalAdmitted + 1 })
  else (none, lifecycle, gate)

/-- `cancel`. -/
def cancel (order : Nat) (gate : InferenceGate) : InferenceGate :=
  (cancelLocked order none gate).2

/-- `release`. -/
def release (lifecycle : RequestLifecycle) (gate : InferenceGate) :
    RequestLifecycle × InferenceGate :=
  ({ lifecycle with inferenceLeaseReleases := lifecycle.inferenceLeaseReleases + 1 },
    { gate with active := false })

end InferenceGate

/-- `InferenceAdmissionScope`, without the pointer to the gate. -/
structure InferenceAdmissionScope where
  order : Nat
  classified : Bool := false
  acquired : Bool := false
  lifecycle : Option RequestLifecycle := none
  deriving DecidableEq, Repr

namespace InferenceAdmissionScope

/-- `classify_control`. -/
def classifyControl (scope : InferenceAdmissionScope) (gate : InferenceGate) :
    InferenceAdmissionScope × InferenceGate :=
  ({ scope with classified := true }, gate.classify scope.order false)

/-- `classify_generation`, with a new lifecycle. -/
def classifyGeneration (scope : InferenceAdmissionScope) (gate : InferenceGate) :
    InferenceAdmissionScope × InferenceGate :=
  ({ scope with lifecycle := some { state := .waiting }, classified := true },
    gate.classify scope.order true)

/-- A round of `acquire`. -/
def acquireRound (cancelled : Bool) (scope : InferenceAdmissionScope) (gate : InferenceGate) :
    Option Bool × InferenceAdmissionScope × InferenceGate :=
  let (answer, lifecycle, gate) :=
    gate.acquireRound scope.order cancelled (scope.lifecycle.getD {})
  match answer with
  | some acquired => (answer, { scope with lifecycle := some lifecycle, acquired }, gate)
  | none => (none, scope, gate)

/-- `release`. -/
def release (scope : InferenceAdmissionScope) (gate : InferenceGate) :
    InferenceAdmissionScope × InferenceGate :=
  if scope.acquired = true then
    let (lifecycle, gate) := gate.release (scope.lifecycle.getD {})
    ({ scope with lifecycle := some lifecycle, acquired := false }, gate)
  else (scope, gate)

/-- The destructor; what is left of the scope is its lifecycle. -/
def destroy (scope : InferenceAdmissionScope) (gate : InferenceGate) :
    InferenceAdmissionScope × InferenceGate :=
  if scope.classified = false then (scope, gate.classify scope.order false)
  else if scope.acquired = true then
    let (lifecycle, gate) := gate.release (scope.lifecycle.getD {})
    ({ scope with lifecycle := some lifecycle }, gate)
  else (scope, gate.cancel scope.order)

end InferenceAdmissionScope

/-- How far the handler of a connection is with its scope. -/
inductive Position
  | parsing
  | control
  | queued
  | refused
  | running
  | released
  | finished
  deriving DecidableEq, Repr

/-- A connection: its scope and the position of its handler. -/
structure Connection where
  scope : InferenceAdmissionScope
  position : Position
  deriving DecidableEq, Repr

/-- The gate and the connections that were accepted so far. -/
structure Server where
  gate : InferenceGate := {}
  connectionOrder : Nat := 0
  connections : AssocMap Nat Connection := ∅

/-- A step: of the accepting thread, or of the handler of one connection.  A scope is
destroyed on every return and on every exception. -/
inductive Action
  | accept
  | reject
  | classifyControl (order : Nat)
  | classifyGeneration (order : Nat)
  | acquireRound (order : Nat) (cancelled : Bool)
  | release (order : Nat)
  | destroy (order : Nat)

namespace Server

/-- The gate and one connection after a step of it. -/
def put (server : Server) (order : Nat) (gate : InferenceGate) (connection : Connection) : Server :=
  { server with gate, connections := server.connections.insert order connection }

/-- The system after a step; a step that the handler cannot take now changes nothing. -/
def step (server : Server) : Action → Server
  | .accept =>
      { server with
        connectionOrder := server.connectionOrder + 1
        connections := server.connections.insert server.connectionOrder
          { scope := { order := server.connectionOrder }, position := .parsing } }
  | .reject =>
      -- No worker: the accepting thread classifies the connection itself.
      { gate := server.gate.classify server.connectionOrder false
        connectionOrder := server.connectionOrder + 1
        connections := server.connections.insert server.connectionOrder
          { scope := { order := server.connectionOrder }, position := .finished } }
  | .classifyControl order =>
      match server.connections.lookup order with
      | some { scope, position := .parsing } =>
          let (scope, gate) := scope.classifyControl server.gate
          server.put order gate { scope, position := .control }
      | _ => server
  | .classifyGeneration order =>
      match server.connections.lookup order with
      | some { scope, position := .parsing } =>
          let (scope, gate) := scope.classifyGeneration server.gate
          server.put order gate { scope, position := .queued }
      | _ => server
  | .acquireRound order cancelled =>
      match server.connections.lookup order with
      | some { scope, position := .queued } =>
          match scope.acquireRound cancelled server.gate with
          | (some true, scope, gate) => server.put order gate { scope, position := .running }
          | (some false, scope, gate) => server.put order gate { scope, position := .refused }
          | (none, _, _) => server
      | _ => server
  | .release order =>
      match server.connections.lookup order with
      | some { scope, position := .running } =>
          let (scope, gate) := scope.release server.gate
          server.put order gate { scope, position := .released }
      | _ => server
  | .destroy order =>
      match server.connections.lookup order with
      | some { scope, position } =>
          if position = .finished then server
          else
            let (scope, gate) := scope.destroy server.gate
            server.put order gate { scope, position := .finished }
      | none => server

/-- The system after a sequence of steps, in any order. -/
def run (server : Server) (actions : List Action) : Server :=
  actions.foldl step server

/-- The order that a step admits. -/
def admission (server : Server) : Action → Option Nat
  | .acquireRound order cancelled =>
      match server.connections.lookup order with
      | some { scope := _, position := .queued } =>
          if cancelled = false ∧ server.gate.Admits order then some order else none
      | _ => none
  | _ => none

/-- The orders that a run admits, one after the other. -/
def admissions : Server → List Action → List Nat
  | _, [] => []
  | server, action :: rest =>
      (server.admission action).toList ++ admissions (server.step action) rest

end Server

end VBuf.Compat
