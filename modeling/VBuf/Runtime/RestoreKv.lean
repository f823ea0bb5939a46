import VBuf.Runtime.AttentionSpec

/-!
# Restoring the keys and values of a state

`restore_kv` writes the snapshot into the state before it validates it, so a
snapshot with a shape that does not fit is refused and kept.
-/

namespace VBuf.Runtime

open VBuf.Lib

/-- `GenericExecutionState` with its two report fields. -/
structure ReportedState (F : Type) extends GenericExecutionState F where
  lastPastKvPositionsRead : UInt64
  lastKvPositionsAppended : UInt64
  deriving DecidableEq, Repr

namespace ReportedState

variable {F : Type} {state : ReportedState F} {dimensions : List UInt64} {key value : List F}

/-- The state with the snapshot written over it. -/
def withKv (state : ReportedState F) (batchSize length kvHeadCount headDim : UInt64)
    (key value : List F) : ReportedState F :=
  { state with
    length
    batchSize
    kvHeadCount
    headDim
    key
    value
    lastPastKvPositionsRead := 0
    lastKvPositionsAppended := 0 }

/-- `restore_kv`. -/
def restoreKv (state : ReportedState F) (dimensions : List UInt64) (key value : List F) :
    Except String Unit × ReportedState F :=
  match dimensions with
  | [batchSize, length, kvHeadCount, headDim] =>
      if batchSize = 0 ∨ length = 0 then
        (.error "generic attention restore geometry is invalid", state)
      else
        let state := state.withKv batchSize length kvHeadCount headDim key value
        (state.toGenericExecutionState.validatePayload, state)
  | _ => (.error "generic attention restore geometry is invalid", state)

/-! ### Snapshots -/

/-- A shape that `restore_kv` looks at further: four dimensions, with a batch and a
length. -/
def Shaped (dimensions : List UInt64) : Prop :=
  dimensions.length = 4 ∧ dimensions.getD 0 0 ≠ 0 ∧ dimensions.getD 1 0 ≠ 0

/-- A snapshot within a capacity, with the payload of its shape. -/
structure SnapshotFits (capacity : UInt64) (dimensions : List UInt64) (key value : List F) :
    Prop where
  bounded : dimensions.getD 1 0 ≤ capacity
  nonzero : ∀ d ∈ dimensions, d ≠ 0
  fits : elementCount dimensions < 2 ^ 64
  key_length : key.length = elementCount dimensions
  value_length : value.length = elementCount dimensions

/-- The snapshot is the one that the state holds. -/
structure Holds (state : ReportedState F) (dimensions : List UInt64) (key value : List F) :
    Prop where
  shape : dimensions = [state.batchSize, state.length, state.kvHeadCount, state.headDim]
  key : key = state.key
  value : value = state.value
  read : state.lastPastKvPositionsRead = 0
  appended : state.lastKvPositionsAppended = 0

theorem shaped_iff : Shaped dimensions ↔ ∃ batchSize length kvHeadCount headDim,
    dimensions = [batchSize, length, kvHeadCount, headDim] ∧ batchSize ≠ 0 ∧ length ≠ 0 := by
  constructor
  · rintro ⟨hlength, hbatch, hpositions⟩
    obtain ⟨batchSize, length, kvHeadCount, headDim, rfl⟩ := List.length_eq_four.1 hlength
    exact ⟨batchSize, length, kvHeadCount, headDim, rfl, hbatch, hpositions⟩
  · rintro ⟨batchSize, length, kvHeadCount, headDim, rfl, hbatch, hpositions⟩
    exact ⟨rfl, hbatch, hpositions⟩

/-- A shape that is refused leaves the state alone. -/
theorem restoreKv_of_not_shaped (state : ReportedState F) (key value : List F)
    (h : ¬ Shaped dimensions) : restoreKv state dimensions key value =
      (.error "generic attention restore geometry is invalid", state) := by
  unfold restoreKv
  split
  · next batchSize length kvHeadCount headDim =>
      have hzero : batchSize = 0 ∨ length = 0 := by
        by_contra hne
        rw [not_or] at hne
        exact h (shaped_iff.2 ⟨_, _, _, _, rfl, hne.1, hne.2⟩)
      rw [if_pos hzero]
  · rfl

theorem restoreKv_of_shaped {batchSize length kvHeadCount headDim : UInt64}
    (hbatch : batchSize ≠ 0) (hlength : length ≠ 0) :
    restoreKv state [batchSize, length, kvHeadCount, headDim] key value =
      ((state.withKv batchSize length kvHeadCount headDim key
          value).toGenericExecutionState.validatePayload,
        state.withKv batchSize length kvHeadCount headDim key value) :=
  if_neg (not_or.2 ⟨hbatch, hlength⟩)

/-- The state is valid with a snapshot exactly when the snapshot fits. -/
theorem valid_withKv_iff {batchSize length kvHeadCount headDim : UInt64} (hlength : length ≠ 0) :
    (state.withKv batchSize length kvHeadCount headDim key
        value).toGenericExecutionState.Valid ↔
      SnapshotFits state.capacity [batchSize, length, kvHeadCount, headDim] key value := by
  constructor
  · intro h
    obtain ⟨hnonzero, hfits, hkey, hvalue⟩ := h.filled hlength
    exact ⟨h.bounded, hnonzero, hfits, hkey, hvalue⟩
  · intro h
    exact ⟨h.bounded, fun hzero => absurd hzero hlength,
      fun _ => ⟨h.nonzero, h.fits, h.key_length, h.value_length⟩⟩

theorem withKv_eq_self_iff {batchSize length kvHeadCount headDim : UInt64} :
    state.withKv batchSize length kvHeadCount headDim key value = state ↔
      state.Holds [batchSize, length, kvHeadCount, headDim] key value := by
  obtain ⟨⟨bindingId, capacity, length', batchSize', kvHeadCount', headDim', key', value'⟩, read,
    appended⟩ := state
  constructor
  · intro h
    simp only [withKv, ReportedState.mk.injEq, GenericExecutionState.mk.injEq] at h
    obtain ⟨⟨-, -, rfl, rfl, rfl, rfl, rfl, rfl⟩, rfl, rfl⟩ := h
    exact ⟨rfl, rfl, rfl, rfl, rfl⟩
  · rintro ⟨hshape, hkey, hvalue, hread, happended⟩
    simp only [List.cons.injEq, and_true] at hshape
    simp only [withKv, ReportedState.mk.injEq, GenericExecutionState.mk.injEq, true_and]
    exact ⟨⟨hshape.2.1, hshape.1, hshape.2.2.1, hshape.2.2.2, hkey, hvalue⟩, hread.symm,
      happended.symm⟩

/-! ### Refused snapshots -/

/-- A restore that fails leaves the state as it was, and one that succeeds leaves a
valid state. -/
def Atomic (state : ReportedState F) (dimensions : List UInt64) (key value : List F) : Prop :=
  (∀ error, (restoreKv state dimensions key value).1 = .error error →
    (restoreKv state dimensions key value).2 = state) ∧
  ((restoreKv state dimensions key value).1 = .ok () →
    (restoreKv state dimensions key value).2.toGenericExecutionState.Valid)

/-- A restore is atomic exactly when its shape is refused outright, when the snapshot
fits, or when the state holds it already. -/
theorem restoreKv_atomic_iff (state : ReportedState F) (dimensions : List UInt64)
    (key value : List F) :
    state.Atomic dimensions key value ↔ ¬ Shaped dimensions ∨
      SnapshotFits state.capacity dimensions key value ∨ state.Holds dimensions key value := by
  by_cases hshaped : Shaped dimensions
  · obtain ⟨batchSize, length, kvHeadCount, headDim, rfl, hbatch, hlength⟩ := shaped_iff.1 hshaped
    rw [Atomic, restoreKv_of_shaped hbatch hlength, ← valid_withKv_iff hlength,
      ← withKv_eq_self_iff]
    simp only [GenericExecutionState.validatePayload_eq_ok_iff, imp_self, and_true,
      not_true_eq_false, hshaped, false_or]
    constructor
    · intro h
      cases hresult : (state.withKv batchSize length kvHeadCount headDim key
          value).toGenericExecutionState.validatePayload with
      | error error => exact Or.inr (h error hresult)
      | ok _ => exact Or.inl ((GenericExecutionState.validatePayload_eq_ok_iff _ _).1 hresult)
    · rintro (hvalid | hsame) error herror
      · rw [(GenericExecutionState.validatePayload_eq_ok_iff _ ()).2 hvalid] at herror
        cases herror
      · exact hsame
  · rw [Atomic, restoreKv_of_not_shaped state key value hshaped]
    simp [hshaped]

/-- A fresh state of four positions keeps the length five of a refused snapshot. -/
theorem restoreKv_keeps_refused :
    ¬ ∀ (state : ReportedState ℚ) (dimensions : List UInt64) (key value : List ℚ),
      state.Atomic dimensions key value := by
  intro h
  have hfresh := (h ⟨⟨7, 4, 0, 0, 0, 0, [], []⟩, 0, 0⟩ [1, 5, 1, 1] [] []).1
    "generic attention state exceeds capacity" (by decide)
  exact absurd (congrArg (fun state => state.length) hfresh) (by decide)

end ReportedState

end VBuf.Runtime
