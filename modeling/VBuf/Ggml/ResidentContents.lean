import VBuf.Ggml.SharedResidency

/-!
# What the tensors under a reference satisfy

A property of references and tensors that holds of what enters a store holds of
every tensor that is resident, retained or obtained.
-/

namespace VBuf.Ggml

open VBuf.Lib

namespace TensorResidencyStore

variable {good : UInt32 → MaterializedTensor → Prop} {store : TensorResidencyStore}
  {tensorRef : UInt32}

/-- Every resident tensor is good for its reference. -/
def AllGood (good : UInt32 → MaterializedTensor → Prop) (store : TensorResidencyStore) : Prop :=
  ∀ tensorRef entry, store.entries.lookup tensorRef = some entry → good tensorRef entry.materialized

theorem Shrinks.allGood {after : TensorResidencyStore} (h : store.Shrinks after)
    (hgood : store.AllGood good) : after.AllGood good :=
  fun ref entry hlookup => hgood ref entry (h.only ref entry hlookup)

theorem allGood_insert_entry {after : TensorResidencyStore} {entry : ResidentTensor}
    (hgood : store.AllGood good) (hentry : good tensorRef entry.materialized)
    (hafter : after.entries = store.entries.insert tensorRef entry) : after.AllGood good := by
  intro ref other hother
  rw [hafter, AssocMap.lookup_insert_eq] at hother
  split at hother
  next heq =>
      subst heq
      cases hother
      exact hentry
  next => exact hgood ref other hother

theorem allGood_insert (hgood : store.AllGood good) {materialized : MaterializedTensor}
    (hentry : good tensorRef materialized) :
    (store.insert tensorRef materialized).2.AllGood good := by
  have hevicted := (evictFor_shrinks materialized.bytes store.entries.entries.length store).allGood
    hgood
  unfold insert
  split
  next => exact hgood
  next =>
      split
      next => exact hgood
      next =>
          simp only
          split
          next => exact hevicted
          next => exact allGood_insert_entry hevicted hentry rfl

theorem allGood_release (hgood : store.AllGood good) (tensorRef : UInt32) :
    (store.release tensorRef).2.AllGood good := by
  rcases release_cases store tensorRef with heq | ⟨entry, hlookup, -, heq⟩
  · rw [heq]
    exact hgood
  · rw [heq]
    exact @allGood_insert_entry good store tensorRef _
      { entry with activeLeases := entry.activeLeases - 1 } hgood
      (hgood tensorRef entry hlookup) rfl

/-- What `acquire_materialized` gives is good. -/
theorem allGood_acquireMaterialized (hgood : store.AllGood good) (tensorRef : UInt32) :
    (store.acquireMaterialized tensorRef).2.AllGood good ∧
      ∀ resident, (store.acquireMaterialized tensorRef).1 = some resident →
        good tensorRef resident := by
  unfold acquireMaterialized
  split
  next => exact ⟨hgood, fun _ h => by cases h⟩
  next entry hlookup =>
      have hentry := hgood tensorRef entry hlookup
      have hleased : (store.leased tensorRef entry).AllGood good :=
        @allGood_insert_entry good store tensorRef _ { entry with
          activeLeases := entry.activeLeases + 1, lastUse := store.clock + 1 } hgood hentry rfl
      refine ⟨hleased, ?_⟩
      intro resident hresident
      cases hresident
      exact hentry

end TensorResidencyStore

namespace ResidentTensorMaterializer

variable {β : Type} {good : UInt32 → MaterializedTensor → Prop}
  {self : ResidentTensorMaterializer β} {store : TensorResidencyStore} {tensorRef : UInt32}

/-- Retained tensors are good for their reference, and a reference with a record is
known. -/
structure KeepsGood (good : UInt32 → MaterializedTensor → Prop) (materializer : ResidentTensorMaterializer β) :
    Prop where
  good : ∀ tensorRef info tensor, materializer.requests.lookup tensorRef = some info →
    info.retainedTensor = some tensor → good tensorRef tensor
  known : ∀ tensorRef, materializer.requests.lookup tensorRef ≠ none →
    materializer.knownTensors.lookup tensorRef ≠ none

/-- A record that keeps a tensor keeps a good one. -/
def RequestInfo.KeepsGood (good : MaterializedTensor → Prop) (info : RequestInfo) : Prop :=
  ∀ tensor, info.retainedTensor = some tensor → good tensor

theorem KeepsGood.record (h : self.KeepsGood good) {info : RequestInfo}
    (hlookup : self.requests.lookup tensorRef = some info) :
    RequestInfo.KeepsGood (good tensorRef) info :=
  fun tensor htensor => h.good tensorRef info tensor hlookup htensor

theorem KeepsGood.setRequest (h : self.KeepsGood good) {info : RequestInfo}
    (hinfo : RequestInfo.KeepsGood (good tensorRef) info)
    (hknown : self.knownTensors.lookup tensorRef ≠ none) :
    (self.setRequest tensorRef info).KeepsGood good := by
  constructor
  · intro ref other tensor hother htensor
    have hlookup : (self.requests.insert tensorRef info).lookup ref = some other := hother
    rw [AssocMap.lookup_insert_eq] at hlookup
    split at hlookup
    next heq =>
        subst heq
        cases hlookup
        exact hinfo tensor htensor
    next => exact h.good ref other tensor hlookup htensor
  · intro ref hne
    have hlookup : (self.requests.insert tensorRef info).lookup ref ≠ none := hne
    rw [AssocMap.lookup_insert_eq] at hlookup
    split at hlookup
    next heq => exact heq ▸ hknown
    next => exact h.known ref hlookup

theorem KeepsGood.withBacking (h : self.KeepsGood good) (backing : β) :
    KeepsGood good { self with backing } :=
  ⟨h.good, h.known⟩

/-- The reference is known from now on. -/
theorem KeepsGood.learn (h : self.KeepsGood good) (tensor : PersistentTensorRef) :
    KeepsGood good { self with knownTensors := self.knownTensors.insert tensorRef tensor } := by
  refine ⟨h.good, ?_⟩
  intro ref hne
  show (self.knownTensors.insert tensorRef tensor).lookup ref ≠ none
  rw [AssocMap.lookup_insert_eq]
  split
  next => exact Option.some_ne_none tensor
  next => exact h.known ref hne

theorem retain_keepsGood {info : RequestInfo} {resident : MaterializedTensor}
    (hgood : good tensorRef resident) :
    RequestInfo.KeepsGood (good tensorRef) (RequestInfo.retain info resident) := by
  intro tensor htensor
  cases htensor
  exact hgood

theorem new_keepsGood (tensor : PersistentTensorRef) (backingRequested : Bool) :
    RequestInfo.KeepsGood (good tensorRef) { tensor, backingRequested } := by
  intro other hother
  cases hother

/-- The invariant of a materializer and the store. -/
def Sound (good : UInt32 → MaterializedTensor → Prop) (materializer : ResidentTensorMaterializer β)
    (store : TensorResidencyStore) : Prop :=
  materializer.KeepsGood good ∧ store.AllGood good

theorem requestAnew_sound (ops : TensorMaterializer β) (tensor : PersistentTensorRef)
    (byteBudget : UInt64) (h : self.Sound good store)
    (hknown : self.knownTensors.lookup tensorRef ≠ none) :
    Sound good (requestAnew ops tensorRef tensor byteBudget self store).2.1
      (requestAnew ops tensorRef tensor byteBudget self store).2.2 := by
  have hnoted : (store.noteRequest tensorRef).AllGood good := h.2
  obtain ⟨hstore, hgood⟩ := TensorResidencyStore.allGood_acquireMaterialized hnoted tensorRef
  unfold requestAnew
  simp only
  split
  next resident after heq =>
      rw [heq] at hstore hgood
      exact ⟨h.1.setRequest (retain_keepsGood (hgood resident rfl)) hknown, hstore⟩
  next after heq =>
      rw [heq] at hstore
      have hkeeps := h.1.setRequest (new_keepsGood tensor true) hknown
      split
      next => exact ⟨hkeeps.withBacking _, hstore⟩
      next => exact ⟨hkeeps.withBacking _, hstore⟩

theorem request_sound (ops : TensorMaterializer β) (tensor : PersistentTensorRef)
    (byteBudget : UInt64) (h : self.Sound good store) :
    Sound good (request ops tensorRef tensor byteBudget self store).2.1
      (request ops tensorRef tensor byteBudget self store).2.2 := by
  have hlearn := @KeepsGood.learn β good self tensorRef h.1 tensor
  have hknown : (self.knownTensors.insert tensorRef tensor).lookup tensorRef ≠ none := by
    rw [AssocMap.lookup_insert_eq, if_pos rfl]
    exact Option.some_ne_none tensor
  obtain ⟨hstore, hgood⟩ := TensorResidencyStore.allGood_acquireMaterialized h.2 tensorRef
  unfold request
  simp only
  split
  next => exact requestAnew_sound ops tensor byteBudget ⟨hlearn, h.2⟩ hknown
  next existing hexisting =>
      split
      next => exact ⟨hlearn, h.2⟩
      next =>
          split
          next resident after heq =>
              rw [heq] at hstore hgood
              exact ⟨hlearn.setRequest (retain_keepsGood (hgood resident rfl)) hknown, hstore⟩
          next =>
              split
              next => exact ⟨hlearn, h.2⟩
              next => exact requestAnew_sound ops tensor byteBudget ⟨hlearn, h.2⟩ hknown

theorem obtainFromBacking_sound (ops : TensorMaterializer β)
    (hobtained : ∀ tensor, (ops.obtainReadyTensor tensorRef self.backing).1 = some tensor →
      good tensorRef tensor) {info : RequestInfo} (h : self.Sound good store)
    (hinfo : RequestInfo.KeepsGood (good tensorRef) info)
    (hknown : self.knownTensors.lookup tensorRef ≠ none) :
    Sound good (obtainFromBacking ops tensorRef info self store).2.1
        (obtainFromBacking ops tensorRef info self store).2.2 ∧
      ∀ tensor, (obtainFromBacking ops tensorRef info self store).1 = some tensor →
        good tensorRef tensor := by
  unfold obtainFromBacking
  split
  next => exact ⟨⟨h.1.withBacking _, h.2⟩, fun _ heq => by cases heq⟩
  next ready backing hready =>
      rw [hready] at hobtained
      have hgood := hobtained ready rfl
      have hnoted : (store.noteMaterialize tensorRef).AllGood good := h.2
      have hinserted := TensorResidencyStore.allGood_insert hnoted hgood
      obtain ⟨hstore, hresident⟩ :=
        TensorResidencyStore.allGood_acquireMaterialized hinserted tensorRef
      simp only
      split
      next resident after heq =>
          rw [heq] at hstore hresident
          refine ⟨⟨(h.1.withBacking backing).setRequest (retain_keepsGood (hresident resident rfl))
            hknown, hstore⟩, ?_⟩
          intro tensor htensor
          cases htensor
          exact hresident resident rfl
      next after heq =>
          rw [heq] at hstore
          refine ⟨⟨(h.1.withBacking backing).setRequest hinfo hknown, hstore⟩, ?_⟩
          intro tensor htensor
          cases htensor
          exact hgood

theorem obtainRequested_sound (ops : TensorMaterializer β)
    (hobtained : ∀ tensor, (ops.obtainReadyTensor tensorRef self.backing).1 = some tensor →
      good tensorRef tensor) {info : RequestInfo} (h : self.Sound good store)
    (hinfo : RequestInfo.KeepsGood (good tensorRef) info)
    (hknown : self.knownTensors.lookup tensorRef ≠ none) :
    Sound good (obtainRequested ops tensorRef info self store).2.1
        (obtainRequested ops tensorRef info self store).2.2 ∧
      ∀ tensor, (obtainRequested ops tensorRef info self store).1 = some tensor →
        good tensorRef tensor := by
  obtain ⟨hstore, hresident⟩ := TensorResidencyStore.allGood_acquireMaterialized h.2 tensorRef
  unfold obtainRequested
  split
  next => exact ⟨h, hinfo⟩
  next =>
      split
      next resident after heq =>
          rw [heq] at hstore hresident
          refine ⟨⟨h.1.setRequest hinfo hknown, hstore⟩, ?_⟩
          intro tensor htensor
          cases htensor
          exact hresident resident rfl
      next after heq =>
          rw [heq] at hstore
          exact obtainFromBacking_sound ops hobtained ⟨h.1, hstore⟩ hinfo hknown

theorem obtainReadyTensor_sound (ops : TensorMaterializer β)
    (hobtained : ∀ tensor, (ops.obtainReadyTensor tensorRef self.backing).1 = some tensor →
      good tensorRef tensor) (h : self.Sound good store) :
    Sound good (obtainReadyTensor ops tensorRef self store).2.1
        (obtainReadyTensor ops tensorRef self store).2.2 ∧
      ∀ tensor, (obtainReadyTensor ops tensorRef self store).1 = some tensor →
        good tensorRef tensor := by
  unfold obtainReadyTensor
  split
  next info hinfo =>
      have hknown := h.1.known tensorRef (hinfo ▸ Option.some_ne_none info)
      exact obtainRequested_sound ops hobtained h (h.1.record hinfo) hknown
  next =>
      split
      next => exact ⟨h, fun _ heq => by cases heq⟩
      next tensor htensor =>
          have hknown : self.knownTensors.lookup tensorRef ≠ none :=
            htensor ▸ Option.some_ne_none tensor
          exact @obtainRequested_sound β good (self.setRequest tensorRef { tensor }) store tensorRef
            ops hobtained { tensor } ⟨h.1.setRequest (new_keepsGood tensor false) hknown, h.2⟩
            (new_keepsGood tensor false) hknown

theorem release_sound (ops : TensorMaterializer β) (h : self.Sound good store) :
    Sound good (release ops tensorRef self store).1 (release ops tensorRef self store).2 := by
  have hlookup := @lookup_release β tensorRef ops self store
  have hknown : (release ops tensorRef self store).1.knownTensors = self.knownTensors := by
    unfold release
    split <;> rfl
  refine ⟨⟨?_, ?_⟩, ?_⟩
  · intro ref info tensor hinfo htensor
    rw [hlookup] at hinfo
    split at hinfo
    · cases hinfo
    · exact h.1.good ref info tensor hinfo htensor
  · intro ref hne
    rw [hknown]
    rw [hlookup] at hne
    split at hne
    · exact absurd rfl hne
    · exact h.1.known ref hne
  · unfold release
    split
    next => exact h.2
    next =>
        simp only
        split
        next => exact TensorResidencyStore.allGood_release h.2 tensorRef
        next => exact h.2

end ResidentTensorMaterializer

end VBuf.Ggml
