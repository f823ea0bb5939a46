import Mathlib.Data.Finset.Range
import VBuf.Ggml.ResidencyStore

/-!
# Accounting and lease safety of the residency store

Every operation keeps the byte counter equal to the sum of the entries and below
the maximum, and leaves a leased entry where it is with its contents.
-/

namespace VBuf.Ggml

open VBuf.Lib

namespace TensorResidencyStore

/-- The bytes of the resident entries. -/
def entryBytes (store : TensorResidencyStore) : Nat :=
  AssocMap.total (fun _ entry => entry.bytes.toNat) store.entries

/-- The byte counter is the sum of the entries, within the budget. -/
structure Accounted (store : TensorResidencyStore) : Prop where
  bytes_eq : store.residentBytes.toNat = store.entryBytes
  bytes_le : store.residentBytes ≤ store.maxResidentBytes

/-- Every leased entry of `store` is an entry of `after` with the same contents. -/
def KeepsLeased (store after : TensorResidencyStore) : Prop :=
  ∀ tensorRef entry, store.entries.lookup tensorRef = some entry → entry.activeLeases ≠ 0 →
    ∃ entry', after.entries.lookup tensorRef = some entry' ∧
      entry'.materialized = entry.materialized ∧ entry'.bytes = entry.bytes

theorem KeepsLeased.refl (store : TensorResidencyStore) : store.KeepsLeased store :=
  fun _ entry h _ => ⟨entry, h, rfl, rfl⟩

/-- The parts of the store that only `note_materialize` and the constructor set. -/
structure SameTally (store after : TensorResidencyStore) : Prop where
  max_eq : after.maxResidentBytes = store.maxResidentBytes
  tensors_eq : after.materializedTensors = store.materializedTensors
  materialization_eq : after.materializationCount = store.materializationCount
  reacquisition_eq : after.reacquisitionCount = store.reacquisitionCount

theorem SameTally.refl (store : TensorResidencyStore) : store.SameTally store := ⟨rfl, rfl, rfl, rfl⟩

theorem SameTally.trans {a b c : TensorResidencyStore} (h : a.SameTally b) (h' : b.SameTally c) :
    a.SameTally c :=
  ⟨h'.max_eq.trans h.max_eq, h'.tensors_eq.trans h.tensors_eq,
    h'.materialization_eq.trans h.materialization_eq,
    h'.reacquisition_eq.trans h.reacquisition_eq⟩

/-- What an operation that does not insert may do: the leased entries stay as
they are, and the others stay or go. -/
structure Shrinks (store after : TensorResidencyStore) : Prop where
  accounted : store.Accounted → after.Accounted
  bytes_le : after.entryBytes ≤ store.entryBytes
  kept : ∀ tensorRef entry, store.entries.lookup tensorRef = some entry →
    entry.activeLeases ≠ 0 → after.entries.lookup tensorRef = some entry
  only : ∀ tensorRef entry, after.entries.lookup tensorRef = some entry →
    store.entries.lookup tensorRef = some entry
  tally : store.SameTally after

theorem Shrinks.refl (store : TensorResidencyStore) : store.Shrinks store :=
  ⟨id, Nat.le_refl _, fun _ _ h _ => h, fun _ _ h => h, SameTally.refl store⟩

theorem Shrinks.trans {a b c : TensorResidencyStore} (h : a.Shrinks b) (h' : b.Shrinks c) :
    a.Shrinks c :=
  ⟨h'.accounted ∘ h.accounted, Nat.le_trans h'.bytes_le h.bytes_le,
    fun ref entry hlookup hleased => h'.kept ref entry (h.kept ref entry hlookup hleased) hleased,
    fun ref entry hlookup => h.only ref entry (h'.only ref entry hlookup), h.tally.trans h'.tally⟩

theorem Shrinks.keepsLeased {store after : TensorResidencyStore} (h : store.Shrinks after) :
    store.KeepsLeased after :=
  fun ref entry hlookup hleased => ⟨entry, h.kept ref entry hlookup hleased, rfl, rfl⟩

variable {store : TensorResidencyStore} {tensorRef : UInt32} {entry : ResidentTensor}

/-- Taking an unleased entry out. -/
theorem shrinks_erase (hlookup : store.entries.lookup tensorRef = some entry)
    (hfree : entry.activeLeases = 0) (evictionCount : UInt64) :
    store.Shrinks
      { store with
        residentBytes := store.residentBytes - entry.bytes
        entries := store.entries.erase tensorRef
        evictionCount } := by
  have htotal := AssocMap.total_erase (fun _ e => e.bytes.toNat) hlookup
  refine ⟨?_, ?_, ?_, ?_, ⟨rfl, rfl, rfl, rfl⟩⟩
  · intro h
    have hsum : store.residentBytes.toNat = entry.bytes.toNat +
        AssocMap.total (fun _ e => e.bytes.toNat) (store.entries.erase tensorRef) :=
      h.bytes_eq.trans htotal
    have hle : entry.bytes ≤ store.residentBytes := by
      rw [UInt64.le_iff_toNat_le]
      omega
    have hsub := UInt64.toNat_sub_of_le _ _ hle
    have hmax := UInt64.le_iff_toNat_le.1 h.bytes_le
    constructor
    · show (store.residentBytes - entry.bytes).toNat =
        AssocMap.total (fun _ e => e.bytes.toNat) (store.entries.erase tensorRef)
      omega
    · rw [UInt64.le_iff_toNat_le]
      show (store.residentBytes - entry.bytes).toNat ≤ store.maxResidentBytes.toNat
      omega
  · show AssocMap.total _ (store.entries.erase tensorRef) ≤ AssocMap.total _ store.entries
    omega
  · intro ref other hother hleased
    show (store.entries.erase tensorRef).lookup ref = some other
    rw [AssocMap.lookup_erase_eq, if_neg, hother]
    intro heq
    subst heq
    rw [hother] at hlookup
    exact hleased (Option.some.inj hlookup ▸ hfree)
  · intro ref other hother
    have hlookup' : (store.entries.erase tensorRef).lookup ref = some other := hother
    rw [AssocMap.lookup_erase_eq] at hlookup'
    split at hlookup'
    · cases hlookup'
    · exact hlookup'

theorem evict_shrinks (store : TensorResidencyStore) (tensorRef : UInt32) :
    store.Shrinks (store.evict tensorRef).2 := by
  unfold evict
  split
  next => exact Shrinks.refl store
  next entry hlookup =>
      split
      next => exact Shrinks.refl store
      next hfree => exact shrinks_erase hlookup (not_not.1 hfree) _

theorem evictOne_shrinks (store : TensorResidencyStore) : store.Shrinks store.evictOne.2 := by
  unfold evictOne
  split
  · exact Shrinks.refl store
  · exact evict_shrinks store _

theorem evictFor_shrinks (bytes : UInt64) (fuel : Nat) (store : TensorResidencyStore) :
    store.Shrinks (evictFor bytes fuel store) := by
  induction fuel generalizing store with
  | zero => exact Shrinks.refl store
  | succ fuel ih =>
      have hone := evictOne_shrinks store
      unfold evictFor
      split
      · split
        next after heq =>
            rw [heq] at hone
            exact hone.trans (ih after)
        next after heq =>
            rw [heq] at hone
            exact hone
      · exact Shrinks.refl store

theorem clearEntries_shrinks (refs : List UInt32) (store : TensorResidencyStore) :
    store.Shrinks (clearEntries refs store) := by
  induction refs generalizing store with
  | nil => exact Shrinks.refl store
  | cons tensorRef rest ih =>
      unfold clearEntries
      split
      next entry hlookup =>
          split
          next => exact ih store
          next hfree => exact (shrinks_erase hlookup (not_not.1 hfree) _).trans (ih _)
      next => exact ih store

/-! ### Updates and insertions -/

/-- Writing an entry back with other leases. -/
theorem accounted_update {after : ResidentTensor} {clock : UInt64} (h : store.Accounted)
    (hlookup : store.entries.lookup tensorRef = some entry) (hbytes : after.bytes = entry.bytes) :
    Accounted { store with clock, entries := store.entries.insert tensorRef after } := by
  refine ⟨?_, h.bytes_le⟩
  show store.residentBytes.toNat = AssocMap.total _ (store.entries.insert tensorRef after)
  rw [AssocMap.total_insert_same hlookup (by rw [hbytes])]
  exact h.bytes_eq

theorem keepsLeased_update {after : ResidentTensor} {clock : UInt64}
    (hlookup : store.entries.lookup tensorRef = some entry)
    (hmaterialized : after.materialized = entry.materialized) (hbytes : after.bytes = entry.bytes) :
    store.KeepsLeased { store with clock, entries := store.entries.insert tensorRef after } := by
  intro ref other hother _
  show ∃ entry', (store.entries.insert tensorRef after).lookup ref = some entry' ∧ _
  rw [AssocMap.lookup_insert_eq]
  split
  next heq =>
      subst heq
      rw [hother] at hlookup
      cases hlookup
      exact ⟨after, rfl, hmaterialized, hbytes⟩
  next => exact ⟨other, hother, rfl, rfl⟩

theorem contains_eq_false_iff : store.contains tensorRef = false ↔
    store.entries.lookup tensorRef = none := by
  unfold contains
  cases store.entries.lookup tensorRef <;> simp

theorem evictFor_lookup_none {bytes : UInt64} {fuel : Nat}
    (h : store.entries.lookup tensorRef = none) :
    (evictFor bytes fuel store).entries.lookup tensorRef = none := by
  cases hafter : (evictFor bytes fuel store).entries.lookup tensorRef with
  | none => rfl
  | some entry =>
      have hbefore := (evictFor_shrinks bytes fuel store).only tensorRef entry hafter
      rw [h] at hbefore
      cases hbefore

/-- A tensor that fits the budget and the counter's range is accounted for. -/
theorem accounted_inserted {materialized : MaterializedTensor} (h : store.Accounted)
    (hnew : store.entries.lookup tensorRef = none)
    (hrange : store.residentBytes.toNat + materialized.bytes.toNat < 2 ^ 64)
    (hfits : ¬ store.maxResidentBytes < store.residentBytes + materialized.bytes) :
    (store.inserted tensorRef materialized).Accounted := by
  have hadd : (store.residentBytes + materialized.bytes).toNat =
      store.residentBytes.toNat + materialized.bytes.toNat := by
    rw [UInt64.toNat_add, Nat.mod_eq_of_lt hrange]
  refine ⟨?_, UInt64.not_lt.1 hfits⟩
  show (store.residentBytes + materialized.bytes).toNat =
    AssocMap.total _ (store.entries.insert tensorRef _)
  rw [AssocMap.total_insert_new _ _ hnew, hadd, h.bytes_eq]
  exact Nat.add_comm _ _

/-- `insert` evicts what it may and adds the tensor when there is room. -/
theorem insert_spec (store : TensorResidencyStore) (tensorRef : UInt32)
    (materialized : MaterializedTensor) :
    (store.Accounted → store.entryBytes + materialized.bytes.toNat < 2 ^ 64 →
        (store.insert tensorRef materialized).2.Accounted) ∧
      store.KeepsLeased (store.insert tensorRef materialized).2 ∧
      store.SameTally (store.insert tensorRef materialized).2 := by
  unfold insert
  split
  next => exact ⟨fun h _ => h, KeepsLeased.refl store, SameTally.refl store⟩
  next hcontains =>
      have hnew := contains_eq_false_iff.1 (Bool.eq_false_of_not_eq_true hcontains)
      split
      next => exact ⟨fun h _ => h, KeepsLeased.refl store, SameTally.refl store⟩
      next =>
          have hevicted := evictFor_shrinks materialized.bytes store.entries.entries.length store
          have hnone := @evictFor_lookup_none store tensorRef materialized.bytes
            store.entries.entries.length hnew
          simp only
          split
          next => exact ⟨fun h _ => hevicted.accounted h, hevicted.keepsLeased, hevicted.tally⟩
          next hfits =>
              refine ⟨?_, ?_, hevicted.tally.trans ⟨rfl, rfl, rfl, rfl⟩⟩
              · intro h hlive
                have haccounted := hevicted.accounted h
                have hless := hevicted.bytes_le
                refine accounted_inserted haccounted hnone ?_ hfits
                rw [haccounted.bytes_eq]
                omega
              · intro ref entry hlookup hleased
                have hkept := hevicted.kept ref entry hlookup hleased
                have hne : ref ≠ tensorRef := by
                  intro heq
                  subst heq
                  rw [hnone] at hkept
                  cases hkept
                refine ⟨entry, ?_, rfl, rfl⟩
                refine (AssocMap.lookup_insert_eq _ _ _ _).trans ?_
                rw [if_neg hne]
                exact hkept

theorem acquireMaterialized_snd (store : TensorResidencyStore) (tensorRef : UInt32) :
    (store.acquireMaterialized tensorRef).2 = (store.acquire tensorRef).2 := by
  unfold acquireMaterialized acquire
  cases store.entries.lookup tensorRef <;> rfl

theorem acquire_spec (store : TensorResidencyStore) (tensorRef : UInt32) :
    (store.Accounted → (store.acquire tensorRef).2.Accounted) ∧
      store.KeepsLeased (store.acquire tensorRef).2 ∧
      store.SameTally (store.acquire tensorRef).2 := by
  unfold acquire
  split
  next => exact ⟨id, KeepsLeased.refl store, SameTally.refl store⟩
  next entry hlookup =>
      exact ⟨fun h => accounted_update h hlookup rfl, keepsLeased_update hlookup rfl rfl,
        ⟨rfl, rfl, rfl, rfl⟩⟩

/-- A release takes one lease off, or changes nothing when there is none. -/
theorem release_cases (store : TensorResidencyStore) (tensorRef : UInt32) :
    store.release tensorRef = (false, store) ∨
      ∃ entry, store.entries.lookup tensorRef = some entry ∧ entry.activeLeases ≠ 0 ∧
        store.release tensorRef =
          (true, { store with
            entries := store.entries.insert tensorRef
              { entry with activeLeases := entry.activeLeases - 1 } }) := by
  unfold release
  split
  next => exact Or.inl rfl
  next entry hlookup =>
      split
      next => exact Or.inl rfl
      next hleased => exact Or.inr ⟨entry, hlookup, hleased, rfl⟩

theorem release_spec (store : TensorResidencyStore) (tensorRef : UInt32) :
    (store.Accounted → (store.release tensorRef).2.Accounted) ∧
      store.KeepsLeased (store.release tensorRef).2 ∧
      store.SameTally (store.release tensorRef).2 := by
  rcases release_cases store tensorRef with heq | ⟨entry, hlookup, -, heq⟩
  · rw [heq]
    exact ⟨id, KeepsLeased.refl store, SameTally.refl store⟩
  · rw [heq]
    exact ⟨fun h => accounted_update h hlookup rfl, keepsLeased_update hlookup rfl rfl,
      ⟨rfl, rfl, rfl, rfl⟩⟩

/-! ### Runs -/

/-- A call that changes the store. -/
inductive Op
  | noteRequest (tensorRef : UInt32)
  | noteMaterialize (tensorRef : UInt32)
  | insert (tensorRef : UInt32) (materialized : MaterializedTensor)
  | acquire (tensorRef : UInt32)
  | acquireMaterialized (tensorRef : UInt32)
  | release (tensorRef : UInt32)
  | evict (tensorRef : UInt32)
  | clear

/-- The store after a call. -/
def Op.apply (store : TensorResidencyStore) : Op → TensorResidencyStore
  | .noteRequest tensorRef => store.noteRequest tensorRef
  | .noteMaterialize tensorRef => store.noteMaterialize tensorRef
  | .insert tensorRef materialized => (store.insert tensorRef materialized).2
  | .acquire tensorRef => (store.acquire tensorRef).2
  | .acquireMaterialized tensorRef => (store.acquireMaterialized tensorRef).2
  | .release tensorRef => (store.release tensorRef).2
  | .evict tensorRef => (store.evict tensorRef).2
  | .clear => store.clear

/-- An inserted tensor is alive together with the resident ones. -/
def Op.Live (store : TensorResidencyStore) : Op → Prop
  | .insert _ materialized => store.entryBytes + materialized.bytes.toNat < 2 ^ 64
  | _ => True

/-- The store after a sequence of calls. -/
def run (store : TensorResidencyStore) (ops : List Op) : TensorResidencyStore :=
  ops.foldl Op.apply store

/-- Each call of a sequence is live where it is made. -/
def LiveRun : TensorResidencyStore → List Op → Prop
  | _, [] => True
  | store, op :: rest => op.Live store ∧ LiveRun (op.apply store) rest

/-- The references that a sequence of calls passes to `note_materialize`. -/
def notedRefs (ops : List Op) : List UInt32 :=
  ops.filterMap fun
    | .noteMaterialize tensorRef => some tensorRef
    | _ => none

/-- The two counters differ by the number of references noted so far. -/
def Tallied (store : TensorResidencyStore) : Prop :=
  store.materializationCount =
    store.reacquisitionCount + UInt64.ofNat store.materializedTensors.card

theorem SameTally.tallied {after : TensorResidencyStore} (h : store.SameTally after)
    (ht : store.Tallied) : after.Tallied := by
  unfold Tallied
  rw [h.materialization_eq, h.reacquisition_eq, h.tensors_eq]
  exact ht

theorem noteMaterialize_tallied (h : store.Tallied) (tensorRef : UInt32) :
    (store.noteMaterialize tensorRef).Tallied := by
  unfold Tallied noteMaterialize at *
  simp only
  by_cases hmem : tensorRef ∈ store.materializedTensors
  · rw [if_pos hmem, Finset.insert_eq_of_mem hmem, h, UInt64.add_assoc, UInt64.add_assoc,
      UInt64.add_comm 1]
  · rw [if_neg hmem, Finset.card_insert_of_notMem hmem, h, UInt64.ofNat_add, UInt64.add_assoc]
    rfl

/-- One call keeps the accounting and every leased entry. -/
theorem Op.apply_spec (store : TensorResidencyStore) (op : Op) :
    (store.Accounted → op.Live store → (op.apply store).Accounted) ∧
      store.KeepsLeased (op.apply store) ∧ (store.Tallied → (op.apply store).Tallied) ∧
      (op.apply store).maxResidentBytes = store.maxResidentBytes ∧
      (op.apply store).materializedTensors =
        store.materializedTensors ∪ (notedRefs [op]).toFinset := by
  have hsame : ∀ {after : TensorResidencyStore}, store.SameTally after → notedRefs [op] = [] →
      (store.Tallied → after.Tallied) ∧ after.maxResidentBytes = store.maxResidentBytes ∧
        after.materializedTensors = store.materializedTensors ∪ (notedRefs [op]).toFinset := by
    intro after h hnone
    refine ⟨h.tallied, h.max_eq, ?_⟩
    rw [hnone, h.tensors_eq, List.toFinset_nil, Finset.union_empty]
  cases op with
  | noteRequest tensorRef =>
      exact ⟨fun h _ => ⟨h.bytes_eq, h.bytes_le⟩, KeepsLeased.refl store,
        hsame ⟨rfl, rfl, rfl, rfl⟩ rfl⟩
  | noteMaterialize tensorRef =>
      refine ⟨fun h _ => ⟨h.bytes_eq, h.bytes_le⟩, KeepsLeased.refl store,
        fun h => noteMaterialize_tallied h tensorRef, rfl, ?_⟩
      show Insert.insert tensorRef store.materializedTensors = _
      rw [Finset.insert_eq, Finset.union_comm]
      rfl
  | insert tensorRef materialized =>
      obtain ⟨haccounted, hkeeps, htally⟩ := insert_spec store tensorRef materialized
      exact ⟨haccounted, hkeeps, hsame htally rfl⟩
  | acquire tensorRef =>
      obtain ⟨haccounted, hkeeps, htally⟩ := acquire_spec store tensorRef
      exact ⟨fun h _ => haccounted h, hkeeps, hsame htally rfl⟩
  | acquireMaterialized tensorRef =>
      have h := acquire_spec store tensorRef
      rw [← acquireMaterialized_snd] at h
      obtain ⟨haccounted, hkeeps, htally⟩ := h
      exact ⟨fun h _ => haccounted h, hkeeps, hsame htally rfl⟩
  | release tensorRef =>
      obtain ⟨haccounted, hkeeps, htally⟩ := release_spec store tensorRef
      exact ⟨fun h _ => haccounted h, hkeeps, hsame htally rfl⟩
  | evict tensorRef =>
      have h := evict_shrinks store tensorRef
      exact ⟨fun ha _ => h.accounted ha, h.keepsLeased, hsame h.tally rfl⟩
  | clear =>
      have h := clearEntries_shrinks store.entries.keys store
      exact ⟨fun ha _ => h.accounted ha, h.keepsLeased, hsame h.tally rfl⟩

/-- A whole sequence of calls, by induction on the sequence. -/
theorem run_spec (ops : List Op) (store : TensorResidencyStore) (h : store.Accounted)
    (ht : store.Tallied) (hlive : LiveRun store ops) :
    (store.run ops).Accounted ∧ (store.run ops).Tallied ∧
      (store.run ops).maxResidentBytes = store.maxResidentBytes ∧
      (store.run ops).materializedTensors =
        store.materializedTensors ∪ (notedRefs ops).toFinset := by
  induction ops generalizing store with
  | nil =>
      refine ⟨h, ht, rfl, ?_⟩
      show store.materializedTensors = store.materializedTensors ∪ ∅
      rw [Finset.union_empty]
  | cons op rest ih =>
      obtain ⟨haccounted, -, htallied, hmax, htensors⟩ := op.apply_spec store
      obtain ⟨ha, htl, hm, hset⟩ := ih (op.apply store) (haccounted h hlive.1) (htallied ht) hlive.2
      refine ⟨ha, htl, hm.trans hmax, ?_⟩
      have hnoted : notedRefs ([op] ++ rest) = notedRefs [op] ++ notedRefs rest :=
        List.filterMap_append
      rw [List.singleton_append] at hnoted
      show (run (op.apply store) rest).materializedTensors = _
      rw [hset, htensors, hnoted, List.toFinset_append, Finset.union_assoc]

theorem card_lt (refs : Finset UInt32) : refs.card < 2 ^ 64 := by
  have hcard : refs.card ≤ (Finset.range (2 ^ 32)).card := by
    refine Finset.card_le_card_of_injOn UInt32.toNat ?_ ?_
    · intro ref _
      exact Finset.mem_coe.2 (Finset.mem_range.2 ref.toNat_lt)
    · intro a _ b _ h
      exact UInt32.toNat_inj.1 h
  rw [Finset.card_range] at hcard
  exact Nat.lt_of_le_of_lt hcard (by decide)

theorem Tallied.sub_eq (h : store.Tallied) :
    (store.materializationCount - store.reacquisitionCount).toNat =
      store.materializedTensors.card := by
  rw [show store.materializationCount = _ from h, UInt64.add_comm, UInt64.add_sub_cancel,
    UInt64.toNat_ofNat_of_lt' (card_lt _)]

/-- Accounting and lease safety: after every sequence of calls on an empty store
the byte counter is the sum of the entries and within the budget, no call removes
or replaces a leased entry, a release takes exactly one lease off or does
nothing, and the two materialization counters differ by the number of distinct
references noted. -/
theorem accounting_and_lease_safety (maxResidentBytes : UInt64)
    (replacementPolicy : ResidencyReplacementPolicy) (ops : List Op)
    (hlive : LiveRun (empty maxResidentBytes replacementPolicy) ops) :
    let store := (empty maxResidentBytes replacementPolicy).run ops
    store.residentBytes.toNat = store.entryBytes ∧ store.residentBytes ≤ maxResidentBytes ∧
      (∀ op : Op, store.KeepsLeased (op.apply store)) ∧
      (∀ tensorRef, store.release tensorRef = (false, store) ∨
        ∃ entry entry', store.entries.lookup tensorRef = some entry ∧
          (store.release tensorRef).1 = true ∧
          (store.release tensorRef).2.entries.lookup tensorRef = some entry' ∧
          entry'.activeLeases.toNat + 1 = entry.activeLeases.toNat) ∧
      (store.materializationCount - store.reacquisitionCount).toNat =
        (notedRefs ops).toFinset.card := by
  have hempty : (empty maxResidentBytes replacementPolicy).Accounted := ⟨rfl, UInt64.zero_le⟩
  obtain ⟨haccounted, htallied, hmax, htensors⟩ := run_spec ops _ hempty rfl hlive
  intro store
  refine ⟨haccounted.bytes_eq, ?_, fun op => (op.apply_spec store).2.1, ?_, ?_⟩
  · have hle := haccounted.bytes_le
    rw [hmax] at hle
    exact hle
  · intro tensorRef
    rcases release_cases store tensorRef with heq | ⟨entry, hlookup, hleased, heq⟩
    · exact Or.inl heq
    · right
      rw [heq]
      refine ⟨entry, _, hlookup, rfl, AList.lookup_insert _, ?_⟩
      have hone : (1 : UInt32) ≤ entry.activeLeases := by
        rw [UInt32.le_iff_toNat_le, UInt32.toNat_one]
        have hne : entry.activeLeases.toNat ≠ 0 := fun h => hleased (UInt32.toNat_inj.1 h)
        omega
      have hle := UInt32.le_iff_toNat_le.1 hone
      rw [UInt32.toNat_one] at hle
      show (entry.activeLeases - 1).toNat + 1 = _
      rw [UInt32.toNat_sub_of_le _ _ hone, UInt32.toNat_one]
      omega
  · rw [htallied.sub_eq, htensors]
    show (∅ ∪ (notedRefs ops).toFinset).card = _
    rw [Finset.empty_union]

/-- A four-byte tensor. -/
def exampleTensor : MaterializedTensor where
  representation := 0
  dimensions := [4, 1]
  payload := [1, 2, 3, 4]
  bytes := 4

theorem accounting_and_lease_safety_exampleTensor :
    ((empty 8 (fun _ _ => 7)).run
        [.insert 7 exampleTensor, .acquire 7, .release 7, .noteMaterialize 7]).residentBytes ≤ 8 :=
  (accounting_and_lease_safety 8 (fun _ _ => 7)
    [.insert 7 exampleTensor, .acquire 7, .release 7, .noteMaterialize 7]
    ⟨show (0 : Nat) + 4 < 2 ^ 64 by decide, trivial, trivial, trivial, trivial⟩).2.1

end TensorResidencyStore

end VBuf.Ggml
