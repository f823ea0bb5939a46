import Mathlib.Data.Finset.Card
import Mathlib.Data.Fintype.Basic
import VBuf.Ggml.ResidentMaterializer

/-!
# Leases and retained requests

Each call of a materializer takes a lease when it comes to retain a request and
gives it back with the release, except that an obtain on a request that is
retained without its tensor takes one more.
-/

namespace VBuf.Ggml

open VBuf.Lib

namespace TensorResidencyStore

/-- The active leases of a tensor, none when it is not resident. -/
def leases (store : TensorResidencyStore) (tensorRef : UInt32) : UInt32 :=
  ((store.entries.lookup tensorRef).map ResidentTensor.activeLeases).getD 0

variable {store : TensorResidencyStore} {tensorRef : UInt32} {entry : ResidentTensor}

theorem leases_of_lookup (h : store.entries.lookup tensorRef = some entry) :
    store.leases tensorRef = entry.activeLeases := by
  rw [leases, h]
  rfl

theorem leases_of_lookup_none (h : store.entries.lookup tensorRef = none) :
    store.leases tensorRef = 0 := by
  rw [leases, h]
  rfl

theorem exists_entry_of_leases_ne (h : store.leases tensorRef ≠ 0) :
    ∃ entry, store.entries.lookup tensorRef = some entry := by
  cases hlookup : store.entries.lookup tensorRef with
  | none => exact absurd (leases_of_lookup_none hlookup) h
  | some entry => exact ⟨entry, rfl⟩

/-- Unleased entries come and go without a change of any lease count. -/
theorem Shrinks.leases_eq {after : TensorResidencyStore} (h : store.Shrinks after)
    (tensorRef : UInt32) : after.leases tensorRef = store.leases tensorRef := by
  cases hlookup : store.entries.lookup tensorRef with
  | none =>
      rw [leases_of_lookup_none hlookup]
      cases hafter : after.entries.lookup tensorRef with
      | none => exact leases_of_lookup_none hafter
      | some entry =>
          have hbefore := h.only tensorRef entry hafter
          rw [hlookup] at hbefore
          cases hbefore
  | some entry =>
      rw [leases_of_lookup hlookup]
      by_cases hfree : entry.activeLeases = 0
      · cases hafter : after.entries.lookup tensorRef with
        | none => rw [leases_of_lookup_none hafter, hfree]
        | some other =>
            have hbefore := h.only tensorRef other hafter
            rw [hlookup] at hbefore
            cases hbefore
            exact leases_of_lookup hafter
      · exact leases_of_lookup (h.kept tensorRef entry hlookup hfree)

theorem leases_insert_entry (store : TensorResidencyStore) (tensorRef other : UInt32)
    (entry : ResidentTensor) {after : TensorResidencyStore}
    (hafter : after.entries = store.entries.insert tensorRef entry) :
    after.leases other =
      if other = tensorRef then entry.activeLeases else store.leases other := by
  rw [leases, hafter, AssocMap.lookup_insert_eq]
  split <;> rfl

theorem leases_insert (store : TensorResidencyStore) (tensorRef : UInt32)
    (materialized : MaterializedTensor) (other : UInt32) :
    (store.insert tensorRef materialized).2.leases other = store.leases other := by
  unfold insert
  split
  next => rfl
  next hcontains =>
      have hnew := contains_eq_false_iff.1 (Bool.eq_false_of_not_eq_true hcontains)
      split
      next => rfl
      next =>
          have hevicted := evictFor_shrinks materialized.bytes store.entries.entries.length store
          simp only
          split
          next => exact hevicted.leases_eq other
          next =>
              rw [leases_insert_entry (evictFor materialized.bytes store.entries.entries.length
                store) tensorRef other _ rfl]
              split
              next heq =>
                  subst heq
                  exact (leases_of_lookup_none hnew).symm
              next => exact hevicted.leases_eq other

/-- `acquire_materialized` takes a lease on an entry that is there. -/
theorem acquireMaterialized_cases (store : TensorResidencyStore) (tensorRef : UInt32) :
    (store.acquireMaterialized tensorRef = (none, store) ∧
        store.entries.lookup tensorRef = none) ∨
      ∃ entry, store.entries.lookup tensorRef = some entry ∧
        store.acquireMaterialized tensorRef =
          (some entry.materialized, store.leased tensorRef entry) ∧
        ∀ other, (store.leased tensorRef entry).leases other =
          if other = tensorRef then store.leases tensorRef + 1 else store.leases other := by
  unfold acquireMaterialized
  split
  next hlookup => exact Or.inl ⟨rfl, hlookup⟩
  next entry hlookup =>
      refine Or.inr ⟨entry, hlookup, rfl, ?_⟩
      intro other
      rw [leases_insert_entry store tensorRef other _ rfl, leases_of_lookup hlookup]

theorem leases_release (store : TensorResidencyStore) (tensorRef other : UInt32) :
    (store.release tensorRef).2.leases other =
      if other = tensorRef ∧ store.leases tensorRef ≠ 0 then store.leases tensorRef - 1
      else store.leases other := by
  rcases release_cases store tensorRef with heq | ⟨entry, hlookup, hleased, heq⟩
  · rw [heq]
    split
    next h =>
        obtain ⟨rfl, hne⟩ := h
        obtain ⟨entry, hlookup⟩ := exists_entry_of_leases_ne hne
        unfold release at heq
        rw [hlookup] at heq
        rw [leases_of_lookup hlookup] at hne
        simp only [if_neg hne, Prod.mk.injEq, Bool.true_eq_false, false_and] at heq
    next => rfl
  · rw [heq, leases_insert_entry store tensorRef other _ rfl, leases_of_lookup hlookup]
    by_cases h : other = tensorRef
    · rw [if_pos h, if_pos ⟨h, hleased⟩]
    · rw [if_neg h, if_neg (fun hand => h hand.1)]

end TensorResidencyStore

namespace ResidentTensorMaterializer

variable {β : Type} {self after : ResidentTensorMaterializer β} {store store' : TensorResidencyStore}
  {tensorRef : UInt32} {leak : Prop}

/-- How one call on a reference changes the retained requests of its materializer
and the lease counts of the store; `leak` is the condition for a lease too many. -/
structure Effect (leak : Prop) (tensorRef : UInt32) (before : ResidentTensorMaterializer β)
    (store : TensorResidencyStore) (after : ResidentTensorMaterializer β)
    (store' : TensorResidencyStore) : Prop where
  others_retain : ∀ other, other ≠ tensorRef → after.retains other = before.retains other
  others_leases : ∀ other, other ≠ tensorRef → store'.leases other = store.leases other
  change :
    after.retains tensorRef = before.retains tensorRef ∧
        store'.leases tensorRef = store.leases tensorRef ∨
      before.retains tensorRef = false ∧ after.retains tensorRef = true ∧
        store'.leases tensorRef = store.leases tensorRef + 1 ∨
      before.retains tensorRef = true ∧ after.retains tensorRef = false ∧
        (store.leases tensorRef ≠ 0 → store'.leases tensorRef = store.leases tensorRef - 1) ∨
      -- One more lease for a request that is retained already.
      leak ∧ before.retains tensorRef = true ∧ after.retains tensorRef = true ∧
        store'.leases tensorRef = store.leases tensorRef + 1

theorem Effect.weaken {leak leak' : Prop} (h : Effect leak tensorRef self store after store')
    (himp : leak → leak') : Effect leak' tensorRef self store after store' :=
  ⟨h.others_retain, h.others_leases,
    h.change.imp id (Or.imp id (Or.imp id (fun hleak => ⟨himp hleak.1, hleak.2⟩)))⟩

/-- An effect looks at the retained requests alone. -/
theorem Effect.congr_self {self' : ResidentTensorMaterializer β}
    (h : Effect leak tensorRef self' store after store')
    (hretains : ∀ other, self'.retains other = self.retains other) :
    Effect leak tensorRef self store after store' := by
  refine ⟨fun other hne => (h.others_retain other hne).trans (hretains other), h.others_leases, ?_⟩
  have hchange := h.change
  rwa [hretains] at hchange

theorem retains_setRequest (self : ResidentTensorMaterializer β) (tensorRef other : UInt32)
    (info : RequestInfo) :
    (self.setRequest tensorRef info).retains other =
      if other = tensorRef then info.retained else self.retains other := by
  unfold retains setRequest
  rw [AssocMap.lookup_insert_eq]
  split <;> rfl

theorem retains_of_lookup {info : RequestInfo} (h : self.requests.lookup tensorRef = some info) :
    self.retains tensorRef = info.retained := by
  rw [retains, h]
  rfl

theorem retains_of_lookup_none (h : self.requests.lookup tensorRef = none) :
    self.retains tensorRef = false := by
  rw [retains, h]
  rfl

/-- A request record that comes to hold a lease. -/
theorem effect_retain {info : RequestInfo} {entry : ResidentTensor} {base : TensorResidencyStore}
    (hfree : self.retains tensorRef = false) (hinfo : info.retained = true)
    (hafter : ∀ other, after.retains other = (self.setRequest tensorRef info).retains other)
    (hbase : ∀ other, base.leases other = store.leases other)
    (hleases : ∀ other, (base.leased tensorRef entry).leases other =
      if other = tensorRef then base.leases tensorRef + 1 else base.leases other) :
    Effect leak tensorRef self store after (base.leased tensorRef entry) := by
  refine ⟨?_, ?_, Or.inr (Or.inl ⟨hfree, ?_, ?_⟩)⟩
  · intro other hne
    rw [hafter, retains_setRequest, if_neg hne]
  · intro other hne
    rw [hleases, if_neg hne, hbase]
  · rw [hafter, retains_setRequest, if_pos rfl, hinfo]
  · rw [hleases, if_pos rfl, hbase]

/-- A record without a lease, over a store with the same leases. -/
theorem effect_none (hretains : ∀ other, after.retains other = self.retains other)
    (hleases : ∀ other, store'.leases other = store.leases other) :
    Effect leak tensorRef self store after store' :=
  ⟨fun other _ => hretains other, fun other _ => hleases other,
    Or.inl ⟨hretains tensorRef, hleases tensorRef⟩⟩

theorem requestAnew_effect (ops : TensorMaterializer β) (tensor : PersistentTensorRef)
    (byteBudget : UInt64) (hfree : self.retains tensorRef = false) :
    Effect False tensorRef self store
      (requestAnew ops tensorRef tensor byteBudget self store).2.1
      (requestAnew ops tensorRef tensor byteBudget self store).2.2 := by
  have hnoted : ∀ other, (store.noteRequest tensorRef).leases other = store.leases other :=
    fun _ => rfl
  unfold requestAnew
  rcases (store.noteRequest tensorRef).acquireMaterialized_cases tensorRef with
    ⟨heq, -⟩ | ⟨entry, hlookup, heq, hleases⟩
  · simp only [heq]
    have hset : ∀ other, (self.setRequest tensorRef
        { tensor, backingRequested := true }).retains other = self.retains other := by
      intro other
      rw [retains_setRequest]
      split
      next h => rw [h, hfree]
      next => rfl
    split
    next => exact effect_none hset hnoted
    next => exact effect_none hset hnoted
  · simp only [heq]
    exact effect_retain hfree rfl (fun _ => rfl) hnoted hleases

theorem request_effect (ops : TensorMaterializer β) (tensor : PersistentTensorRef)
    (byteBudget : UInt64) (self : ResidentTensorMaterializer β) (store : TensorResidencyStore) :
    Effect False tensorRef self store (request ops tensorRef tensor byteBudget self store).2.1
      (request ops tensorRef tensor byteBudget self store).2.2 := by
  unfold request
  simp only
  split
  next hlookup =>
      have heffect := @requestAnew_effect β { self with
        knownTensors := self.knownTensors.insert tensorRef tensor } store tensorRef ops tensor
        byteBudget (retains_of_lookup_none hlookup)
      exact heffect.congr_self (fun _ => rfl)
  next existing hlookup =>
      split
      next => exact effect_none (fun _ => rfl) (fun _ => rfl)
      next hretained =>
          have hfree : self.retains tensorRef = false := by
            rw [retains_of_lookup hlookup]
            exact Bool.eq_false_of_not_eq_true hretained
          rcases store.acquireMaterialized_cases tensorRef with
            ⟨heq, -⟩ | ⟨entry, hentry, heq, hleases⟩
          · simp only [heq]
            split
            next => exact effect_none (fun _ => rfl) (fun _ => rfl)
            next =>
                have heffect := @requestAnew_effect β { self with
                  knownTensors := self.knownTensors.insert tensorRef tensor } store tensorRef ops
                  tensor byteBudget hfree
                exact heffect.congr_self (fun _ => rfl)
          · simp only [heq]
            exact effect_retain hfree rfl (fun _ => rfl) (fun _ => rfl) hleases

theorem obtainFromBacking_effect (ops : TensorMaterializer β) {info : RequestInfo}
    (hfree : self.retains tensorRef = false) :
    Effect leak tensorRef self store (obtainFromBacking ops tensorRef info self store).2.1
      (obtainFromBacking ops tensorRef info self store).2.2 := by
  unfold obtainFromBacking
  split
  next => exact effect_none (fun _ => rfl) (fun _ => rfl)
  next ready backing _ =>
      simp only
      have hinserted : ∀ other, ((store.noteMaterialize tensorRef).insert tensorRef ready).2.leases
          other = store.leases other :=
        fun other => TensorResidencyStore.leases_insert _ _ _ other
      rcases ((store.noteMaterialize tensorRef).insert tensorRef ready).2.acquireMaterialized_cases
        tensorRef with ⟨heq, -⟩ | ⟨entry, hlookup, heq, hleases⟩
      · simp only [heq]
        refine effect_none ?_ hinserted
        intro other
        rw [retains_setRequest]
        split
        next h => rw [h, hfree]
        next => rfl
      · simp only [heq]
        exact effect_retain hfree rfl (fun _ => rfl) hinserted hleases

/-- A request that is retained has its tensor resident. -/
theorem obtainRequested_effect (ops : TensorMaterializer β) {info : RequestInfo}
    (hretains : self.retains tensorRef = info.retained)
    (hresident : info.retained = true → store.leases tensorRef ≠ 0) :
    Effect (info.retained = true ∧ info.retainedTensor = none) tensorRef self store
      (obtainRequested ops tensorRef info self store).2.1
      (obtainRequested ops tensorRef info self store).2.2 := by
  unfold obtainRequested
  split
  next => exact effect_none (fun _ => rfl) (fun _ => rfl)
  next hkept =>
      rcases store.acquireMaterialized_cases tensorRef with
        ⟨heq, hnone⟩ | ⟨entry, hentry, heq, hleases⟩
      · simp only [heq]
        have hfree : self.retains tensorRef = false := by
          rw [hretains]
          by_contra hne
          exact hresident (Bool.eq_true_of_not_eq_false hne)
            (TensorResidencyStore.leases_of_lookup_none hnone)
        exact obtainFromBacking_effect ops hfree
      · simp only [heq]
        cases hfree : self.retains tensorRef with
        | false => exact effect_retain hfree rfl (fun _ => rfl) (fun _ => rfl) hleases
        | true =>
            refine ⟨?_, ?_, Or.inr (Or.inr (Or.inr ⟨⟨?_, ?_⟩, hfree, ?_, ?_⟩))⟩
            · intro other hne
              rw [retains_setRequest, if_neg hne]
            · intro other hne
              rw [hleases, if_neg hne]
            · exact hretains ▸ hfree
            · by_contra hsome
              exact hkept ⟨hretains ▸ hfree, Option.isSome_iff_ne_none.2 hsome⟩
            · rw [retains_setRequest, if_pos rfl]
            · rw [hleases, if_pos rfl]

/-- The request is retained, but its record lacks the tensor. -/
def RetainsWithoutTensor (self : ResidentTensorMaterializer β) (tensorRef : UInt32) : Prop :=
  ∃ info, self.requests.lookup tensorRef = some info ∧ info.retained = true ∧
    info.retainedTensor = none

instance (self : ResidentTensorMaterializer β) (tensorRef : UInt32) :
    Decidable (self.RetainsWithoutTensor tensorRef) :=
  match h : self.requests.lookup tensorRef with
  | none => isFalse (fun hret => by
      obtain ⟨info, hinfo, -⟩ := hret
      rw [h] at hinfo
      cases hinfo)
  | some info => decidable_of_iff (info.retained = true ∧ info.retainedTensor = none) (by
      constructor
      · intro hret
        exact ⟨info, h, hret⟩
      · intro hret
        obtain ⟨other, hother, hret⟩ := hret
        rw [h] at hother
        cases hother
        exact hret)

theorem obtainReadyTensor_effect (ops : TensorMaterializer β)
    (self : ResidentTensorMaterializer β) (store : TensorResidencyStore)
    (hresident : self.retains tensorRef = true → store.leases tensorRef ≠ 0) :
    Effect (self.RetainsWithoutTensor tensorRef) tensorRef self store
      (obtainReadyTensor ops tensorRef self store).2.1
      (obtainReadyTensor ops tensorRef self store).2.2 := by
  unfold obtainReadyTensor
  split
  next info hlookup =>
      have hretains := retains_of_lookup hlookup
      have heffect := @obtainRequested_effect β self store tensorRef ops info hretains
        (fun h => hresident (hretains.trans h))
      exact heffect.weaken (fun h => ⟨info, hlookup, h⟩)
  next hlookup =>
      have hfree := retains_of_lookup_none hlookup
      split
      next => exact effect_none (fun _ => rfl) (fun _ => rfl)
      next tensor _ =>
          -- A known tensor gets a record that is not retained.
          have hset : ∀ other, (self.setRequest tensorRef { tensor }).retains other =
              self.retains other := by
            intro other
            rw [retains_setRequest]
            split
            next h => rw [h, hfree]
            next => rfl
          have heffect := @obtainRequested_effect β (self.setRequest tensorRef { tensor })
            store tensorRef ops { tensor } ((hset tensorRef).trans hfree)
            (fun h => Bool.noConfusion h)
          exact (heffect.congr_self hset).weaken (fun h => Bool.noConfusion h.1)

/-- The tensor was requested before, or a record of it is there. -/
def Knows (self : ResidentTensorMaterializer β) (tensorRef : UInt32) : Prop :=
  self.requests.lookup tensorRef ≠ none ∨ self.knownTensors.lookup tensorRef ≠ none

theorem requestAnew_takes (ops : TensorMaterializer β) (tensor : PersistentTensorRef)
    (byteBudget : UInt64) {entry : ResidentTensor}
    (hlookup : store.entries.lookup tensorRef = some entry) :
    (requestAnew ops tensorRef tensor byteBudget self store).2.1.retains tensorRef = true ∧
      (requestAnew ops tensorRef tensor byteBudget self store).2.2.leases tensorRef =
        store.leases tensorRef + 1 := by
  unfold requestAnew
  rcases (store.noteRequest tensorRef).acquireMaterialized_cases tensorRef with
    ⟨-, hnone⟩ | ⟨other, -, heq, hleases⟩
  · cases hlookup.symm.trans hnone
  · simp only [heq]
    constructor
    · rw [retains_setRequest, if_pos rfl]
      rfl
    · rw [hleases, if_pos rfl]
      rfl

/-- A request that is not retained leases a resident tensor. -/
theorem request_takes (ops : TensorMaterializer β) (tensor : PersistentTensorRef)
    (byteBudget : UInt64) {entry : ResidentTensor} (hfree : self.retains tensorRef = false)
    (hlookup : store.entries.lookup tensorRef = some entry) :
    (request ops tensorRef tensor byteBudget self store).2.1.retains tensorRef = true ∧
      (request ops tensorRef tensor byteBudget self store).2.2.leases tensorRef =
        store.leases tensorRef + 1 := by
  unfold request
  simp only
  split
  next => exact requestAnew_takes ops tensor byteBudget hlookup
  next existing hexisting =>
      rw [retains_of_lookup hexisting] at hfree
      rw [if_neg (by rw [hfree]; exact Bool.false_ne_true)]
      rcases store.acquireMaterialized_cases tensorRef with
        ⟨-, hnone⟩ | ⟨other, -, heq, hleases⟩
      · cases hlookup.symm.trans hnone
      · simp only [heq]
        constructor
        · rw [retains_setRequest, if_pos rfl]
          rfl
        · rw [hleases, if_pos rfl]

theorem obtainRequested_takes (ops : TensorMaterializer β) {info : RequestInfo}
    {entry : ResidentTensor} (hkept : ¬ (info.retained = true ∧ info.retainedTensor.isSome = true))
    (hlookup : store.entries.lookup tensorRef = some entry) :
    (obtainRequested ops tensorRef info self store).2.1.retains tensorRef = true ∧
      (obtainRequested ops tensorRef info self store).2.2.leases tensorRef =
        store.leases tensorRef + 1 := by
  unfold obtainRequested
  rw [if_neg hkept]
  rcases store.acquireMaterialized_cases tensorRef with ⟨-, hnone⟩ | ⟨other, -, heq, hleases⟩
  · cases hlookup.symm.trans hnone
  · simp only [heq]
    constructor
    · rw [retains_setRequest, if_pos rfl]
    · rw [hleases, if_pos rfl]

/-- An obtain leases a resident tensor unless the request holds its tensor. -/
theorem obtainReadyTensor_takes (ops : TensorMaterializer β) {entry : ResidentTensor}
    (hfree : self.retains tensorRef = false ∧ self.Knows tensorRef ∨
      self.RetainsWithoutTensor tensorRef)
    (hlookup : store.entries.lookup tensorRef = some entry) :
    (obtainReadyTensor ops tensorRef self store).2.1.retains tensorRef = true ∧
      (obtainReadyTensor ops tensorRef self store).2.2.leases tensorRef =
        store.leases tensorRef + 1 := by
  unfold obtainReadyTensor
  split
  next info hinfo =>
      apply obtainRequested_takes ops _ hlookup
      intro hkept
      rcases hfree with hfree | ⟨other, hother, -, hnone⟩
      · rw [retains_of_lookup hinfo, hkept.1] at hfree
        cases hfree.1
      · cases hinfo.symm.trans hother
        rw [hnone] at hkept
        cases hkept.2
  next hinfo =>
      rcases hfree with ⟨-, hknows⟩ | ⟨other, hother, -⟩
      · split
        next hunknown => exact (hknows.elim (fun h => h hinfo) (fun h => h hunknown)).elim
        next tensor _ =>
            exact obtainRequested_takes ops (fun h => Bool.noConfusion h.1) hlookup
      · cases hinfo.symm.trans hother

/-- An obtain that comes to retain the request knows the tensor. -/
theorem knows_of_obtain (ops : TensorMaterializer β) (hfree : self.retains tensorRef = false)
    (hretains : (obtainReadyTensor ops tensorRef self store).2.1.retains tensorRef = true) :
    self.Knows tensorRef := by
  unfold obtainReadyTensor at hretains
  split at hretains
  next info hinfo =>
      left
      rw [hinfo]
      exact Option.some_ne_none info
  next =>
      split at hretains
      next => rw [hfree] at hretains; cases hretains
      next tensor htensor =>
          right
          rw [htensor]
          exact Option.some_ne_none tensor

/-- A release ends the request. -/
theorem lookup_release (ops : TensorMaterializer β) (self : ResidentTensorMaterializer β)
    (store : TensorResidencyStore) (other : UInt32) :
    (release ops tensorRef self store).1.requests.lookup other =
      if other = tensorRef then none else self.requests.lookup other := by
  unfold release
  split
  next hlookup =>
      split
      next heq => rw [heq, hlookup]
      next => rfl
  next => exact AssocMap.lookup_erase_eq _ _ _

theorem retains_release (ops : TensorMaterializer β) (self : ResidentTensorMaterializer β)
    (store : TensorResidencyStore) :
    (release ops tensorRef self store).1.retains tensorRef = false := by
  apply retains_of_lookup_none
  rw [lookup_release, if_pos rfl]

theorem release_effect (ops : TensorMaterializer β) (self : ResidentTensorMaterializer β)
    (store : TensorResidencyStore) :
    Effect False tensorRef self store (release ops tensorRef self store).1
      (release ops tensorRef self store).2 := by
  unfold release
  split
  next => exact effect_none (fun _ => rfl) (fun _ => rfl)
  next info hlookup =>
      simp only
      have herase : ∀ other, retains { self with
            backing := (if info.backingRequested = true then ops.release tensorRef self.backing
              else self.backing)
            requests := self.requests.erase tensorRef } other =
          if other = tensorRef then false else self.retains other := by
        intro other
        unfold retains
        rw [AssocMap.lookup_erase_eq]
        split <;> rfl
      have hretains := retains_of_lookup hlookup
      refine ⟨?_, ?_, ?_⟩
      · intro other hne
        rw [herase, if_neg hne]
      · intro other hne
        split
        next => rw [TensorResidencyStore.leases_release, if_neg (fun h => hne h.1)]
        next => rfl
      · cases hkept : info.retained with
        | false =>
            left
            rw [herase, if_pos rfl, hretains, hkept]
            exact ⟨rfl, rfl⟩
        | true =>
            right
            right
            left
            rw [herase, if_pos rfl, hretains, hkept]
            refine ⟨rfl, rfl, ?_⟩
            intro hne
            rw [if_pos rfl, TensorResidencyStore.leases_release, if_pos ⟨rfl, hne⟩]

end ResidentTensorMaterializer

end VBuf.Ggml
