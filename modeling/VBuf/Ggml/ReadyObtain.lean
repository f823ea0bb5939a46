import VBuf.Ggml.LocalMaterializer
import VBuf.Ggml.ResidentContents

/-!
# Ready and obtainable

Where every call names one tensor for a reference, the store, the retained tensors
and what is obtained hold the content of that tensor, in every state of a run;
whether a ready tensor can be obtained depends on the materializer having requested
it.  The backing is a parameter with an invariant of its own, and the local range
materializer is one.
-/

namespace VBuf.Ggml

open VBuf.Lib

namespace TensorResidencyStore

variable {content : UInt32 → List UInt8} {store : TensorResidencyStore} {tensorRef : UInt32}

/-- Every entry has the content of its reference. -/
def Holds (content : UInt32 → List UInt8) (store : TensorResidencyStore) : Prop :=
  ∀ tensorRef entry, store.entries.lookup tensorRef = some entry →
    entry.materialized.payload = content tensorRef

theorem Shrinks.holds {after : TensorResidencyStore} (h : store.Shrinks after)
    (hholds : store.Holds content) : after.Holds content :=
  fun ref entry hlookup => hholds ref entry (h.only ref entry hlookup)

end TensorResidencyStore

/-- What a backing promises while it is asked for the tensors of a table: its invariant is
kept by its calls and by the changes `advances` that it makes on its own, and under it a
ready tensor is obtained, with its content. -/
structure TensorMaterializer.Serves {β : Type} (ops : TensorMaterializer β)
    (advances : β → β → Prop) (tensors : UInt32 → PersistentTensorRef)
    (content : UInt32 → List UInt8) (inv : β → Prop) : Prop where
  request : ∀ tensorRef byteBudget backing, inv backing →
    inv (ops.request tensorRef (tensors tensorRef) byteBudget backing).2
  obtain : ∀ tensorRef backing, inv backing → inv (ops.obtainReadyTensor tensorRef backing).2
  release : ∀ tensorRef backing, inv backing → inv (ops.release tensorRef backing)
  advance : ∀ backing after, inv backing → advances backing after → inv after
  obtain_ready : ∀ tensorRef backing, inv backing → ops.state tensorRef backing = .ready →
    ∃ tensor, (ops.obtainReadyTensor tensorRef backing).1 = some tensor
  payload : ∀ tensorRef backing tensor, inv backing →
    (ops.obtainReadyTensor tensorRef backing).1 = some tensor → tensor.payload = content tensorRef

namespace ResidentTensorMaterializer

variable {β : Type} {content : UInt32 → List UInt8} {self : ResidentTensorMaterializer β}
  {store : TensorResidencyStore} {tensorRef : UInt32} {advances : β → β → Prop}
  {tensors : UInt32 → PersistentTensorRef} {inv : β → Prop}

/-! ### The backing of a materializer -/

theorem requestAnew_served {ops : TensorMaterializer β}
    (hops : ops.Serves advances tensors content inv) (byteBudget : UInt64)
    (h : inv self.backing) :
    inv (requestAnew ops tensorRef (tensors tensorRef) byteBudget self store).2.1.backing := by
  unfold requestAnew
  dsimp only
  split
  · exact h
  · have hrequested := hops.request tensorRef byteBudget self.backing h
    split <;> exact hrequested

theorem request_served {ops : TensorMaterializer β}
    (hops : ops.Serves advances tensors content inv) (byteBudget : UInt64)
    (h : inv self.backing) :
    inv (request ops tensorRef (tensors tensorRef) byteBudget self store).2.1.backing := by
  unfold request
  dsimp only
  split
  · exact requestAnew_served hops byteBudget h
  · split
    · exact h
    · split
      · exact h
      · split
        · exact h
        · exact requestAnew_served hops byteBudget h

theorem obtainRequested_served {ops : TensorMaterializer β}
    (hops : ops.Serves advances tensors content inv) (info : RequestInfo)
    (h : inv self.backing) :
    inv (obtainRequested ops tensorRef info self store).2.1.backing := by
  unfold obtainRequested
  split
  · exact h
  · split
    · exact h
    · have hobtained := hops.obtain tensorRef self.backing h
      unfold obtainFromBacking
      split
      next heq =>
          rw [heq] at hobtained
          exact hobtained
      next heq =>
          rw [heq] at hobtained
          dsimp only
          split <;> exact hobtained

theorem obtainReadyTensor_served {ops : TensorMaterializer β}
    (hops : ops.Serves advances tensors content inv) (h : inv self.backing) :
    inv (obtainReadyTensor ops tensorRef self store).2.1.backing := by
  unfold obtainReadyTensor
  split
  · exact obtainRequested_served hops _ h
  · split
    · exact h
    · exact obtainRequested_served hops _ h

theorem release_served {ops : TensorMaterializer β}
    (hops : ops.Serves advances tensors content inv) (h : inv self.backing) :
    inv (release ops tensorRef self store).1.backing := by
  unfold release
  split
  · exact h
  · dsimp only
    split
    · exact hops.release tensorRef self.backing h
    · exact h

/-! ### Contents -/

/-- Retained tensors have the content of their reference, and a reference with a
record is known. -/
structure Keeps (content : UInt32 → List UInt8) (materializer : ResidentTensorMaterializer β) :
    Prop where
  payload : ∀ tensorRef info tensor, materializer.requests.lookup tensorRef = some info →
    info.retainedTensor = some tensor → tensor.payload = content tensorRef
  known : ∀ tensorRef, materializer.requests.lookup tensorRef ≠ none →
    materializer.knownTensors.lookup tensorRef ≠ none

theorem Keeps.withBacking (h : self.Keeps content) (backing : β) :
    Keeps content { self with backing } :=
  ⟨h.payload, h.known⟩

/-- The invariant of a materializer and the store. -/
def Coherent (content : UInt32 → List UInt8) (materializer : ResidentTensorMaterializer β)
    (store : TensorResidencyStore) : Prop :=
  materializer.Keeps content ∧ store.Holds content

/-- The content of a reference is one property of its tensors. -/
theorem coherent_iff_sound : self.Coherent content store ↔
    self.Sound (fun ref tensor => tensor.payload = content ref) store :=
  ⟨fun h => ⟨⟨h.1.payload, h.1.known⟩, h.2⟩, fun h => ⟨⟨h.1.good, h.1.known⟩, h.2⟩⟩

theorem request_coherent (ops : TensorMaterializer β) (tensor : PersistentTensorRef)
    (byteBudget : UInt64) (h : self.Coherent content store) :
    Coherent content (request ops tensorRef tensor byteBudget self store).2.1
      (request ops tensorRef tensor byteBudget self store).2.2 :=
  coherent_iff_sound.2 (request_sound ops tensor byteBudget (coherent_iff_sound.1 h))

theorem obtainReadyTensor_coherent {ops : TensorMaterializer β}
    (hops : ops.Serves advances tensors content inv) (hinv : inv self.backing)
    (h : self.Coherent content store) :
    Coherent content (obtainReadyTensor ops tensorRef self store).2.1
        (obtainReadyTensor ops tensorRef self store).2.2 ∧
      ∀ tensor, (obtainReadyTensor ops tensorRef self store).1 = some tensor →
        tensor.payload = content tensorRef := by
  obtain ⟨hsound, hobtained⟩ := obtainReadyTensor_sound ops
    (fun tensor => hops.payload tensorRef self.backing tensor hinv) (coherent_iff_sound.1 h)
  exact ⟨coherent_iff_sound.2 hsound, hobtained⟩

theorem release_coherent (ops : TensorMaterializer β) (h : self.Coherent content store) :
    Coherent content (release ops tensorRef self store).1 (release ops tensorRef self store).2 :=
  coherent_iff_sound.2 (release_sound ops (coherent_iff_sound.1 h))

/-- What is ready is resident or ready in the backing. -/
theorem resident_or_ready_of_state {ops : TensorMaterializer β}
    (hresident : self.retains tensorRef = true → store.leases tensorRef ≠ 0)
    (hready : self.state ops tensorRef store = .ready) :
    (∃ entry, store.entries.lookup tensorRef = some entry) ∨
      ops.state tensorRef self.backing = .ready := by
  unfold state at hready
  split at hready
  next hretains =>
      exact Or.inl (TensorResidencyStore.exists_entry_of_leases_ne (hresident hretains))
  next =>
      split at hready
      next hcontains => exact Or.inl (Option.isSome_iff_exists.1 hcontains)
      next =>
          split at hready
          next => cases hready
          next => exact Or.inr hready

theorem obtainRequested_isSome {ops : TensorMaterializer β}
    (hops : ops.Serves advances tensors content inv) (hinv : inv self.backing)
    {info : RequestInfo}
    (hready : (∃ entry, store.entries.lookup tensorRef = some entry) ∨
      ops.state tensorRef self.backing = .ready) :
    (obtainRequested ops tensorRef info self store).1.isSome = true := by
  unfold obtainRequested
  split
  next hkept => exact hkept.2
  next =>
      rcases store.acquireMaterialized_cases tensorRef with
        ⟨heq, hnone⟩ | ⟨entry, hentry, heq, -⟩
      · simp only [heq]
        obtain ⟨entry, hentry⟩ | hbacking := hready
        · cases hentry.symm.trans hnone
        · obtain ⟨tensor, htensor⟩ := hops.obtain_ready tensorRef self.backing hinv hbacking
          unfold obtainFromBacking
          split
          next hobtain =>
              rw [hobtain] at htensor
              cases htensor
          next =>
              simp only
              split <;> rfl
      · simp only [heq]
        rfl

/-- A known tensor that is resident or ready in the backing is obtained. -/
theorem obtainReadyTensor_isSome {ops : TensorMaterializer β}
    (hops : ops.Serves advances tensors content inv) (hinv : inv self.backing)
    (hknown : self.knownTensors.lookup tensorRef ≠ none)
    (hready : (∃ entry, store.entries.lookup tensorRef = some entry) ∨
      ops.state tensorRef self.backing = .ready) :
    (obtainReadyTensor ops tensorRef self store).1.isSome = true := by
  unfold obtainReadyTensor
  split
  next => exact obtainRequested_isSome hops hinv hready
  next =>
      split
      next hunknown => exact absurd hunknown hknown
      next tensor _ =>
          have hkept : inv (self.setRequest tensorRef { tensor }).backing := hinv
          exact obtainRequested_isSome hops hkept hready

/-- A tensor that was never requested here is not obtained. -/
theorem obtainReadyTensor_unknown (ops : TensorMaterializer β) (h : self.Keeps content)
    (hunknown : self.knownTensors.lookup tensorRef = none) :
    (obtainReadyTensor ops tensorRef self store).1 = none := by
  have hnone : self.requests.lookup tensorRef = none := by
    by_contra hne
    exact h.known tensorRef hne hunknown
  unfold obtainReadyTensor
  rw [hnone]
  simp only [hunknown]

/-- Without a record the state is that of the store, then that of the backing. -/
theorem state_unknown (ops : TensorMaterializer β) (h : self.Keeps content)
    (hunknown : self.knownTensors.lookup tensorRef = none) :
    self.state ops tensorRef store =
      if store.contains tensorRef = true then .ready else ops.state tensorRef self.backing := by
  have hnone : self.requests.lookup tensorRef = none := by
    by_contra hne
    exact h.known tensorRef hne hunknown
  unfold state
  rw [if_neg (by rw [retains_of_lookup_none hnone]; exact Bool.false_ne_true), hnone]
  simp only [Option.isSome_none, Bool.false_eq_true, and_false, if_false]

theorem ready_iff_obtainable {ops : TensorMaterializer β}
    (hops : ops.Serves advances tensors content inv) (hinv : inv self.backing) (h : self.Coherent content store)
    (hresident : self.retains tensorRef = true → store.leases tensorRef ≠ 0) :
    (self.state ops tensorRef store = .ready →
        ∃ tensor, (obtainReadyTensor ops tensorRef self store).1 = some tensor ∧
          tensor.payload = content tensorRef) ↔
      self.knownTensors.lookup tensorRef ≠ none ∨
        store.contains tensorRef = false ∧ ops.state tensorRef self.backing ≠ .ready := by
  constructor
  · intro hobtain
    by_contra hcontra
    rw [not_or, not_not, not_and_or, not_not] at hcontra
    obtain ⟨hunknown, hready⟩ := hcontra
    have hstate : self.state ops tensorRef store = .ready := by
      rw [state_unknown ops h.1 hunknown]
      split
      next => rfl
      next hcontains => exact hready.resolve_left (fun hne =>
          hne (Bool.eq_false_of_not_eq_true hcontains))
    obtain ⟨tensor, htensor, -⟩ := hobtain hstate
    rw [obtainReadyTensor_unknown ops h.1 hunknown] at htensor
    cases htensor
  · intro hcondition hstate
    have hready := resident_or_ready_of_state hresident hstate
    rcases hcondition with hknown | ⟨hcontains, hbacking⟩
    · obtain ⟨tensor, htensor⟩ :=
        Option.isSome_iff_exists.1 (obtainReadyTensor_isSome hops hinv hknown hready)
      exact ⟨tensor, htensor, (obtainReadyTensor_coherent hops hinv h).2 tensor htensor⟩
    · rcases hready with ⟨entry, hentry⟩ | hready
      · rw [TensorResidencyStore.contains, hentry] at hcontains
        cases hcontains
      · exact absurd hready hbacking

end ResidentTensorMaterializer

namespace ResidencyCall

variable {ι β : Type}

/-- Requests name the tensor of their reference, and a backing changes between the calls as
it does on its own. -/
def Follows (advances : ι → β → β → Prop) (tensors : UInt32 → PersistentTensorRef)
    (s : ResidencySystem ι β) : ResidencyCall ι β → Prop
  | .request _ tensorRef tensor _ => tensor = tensors tensorRef
  | .progress i backing => advances i (s.participants i).backing backing
  | _ => True

end ResidencyCall

namespace ResidencySystem

variable {ι β : Type} [DecidableEq ι] [Fintype ι] {content : UInt32 → List UInt8}
  {advances : ι → β → β → Prop} {tensors : UInt32 → PersistentTensorRef} {inv : ι → β → Prop}

/-- The invariant of the shared store, all materializers and their backings. -/
def Coherent (content : UInt32 → List UInt8) (inv : ι → β → Prop) (s : ResidencySystem ι β) :
    Prop :=
  s.Covered ∧ ∀ i, (s.participants i).Coherent content s.store ∧ inv i (s.participants i).backing

omit [Fintype ι] in
theorem coherent_update {s : ResidencySystem ι β}
    (h : ∀ i, (s.participants i).Coherent content s.store ∧ inv i (s.participants i).backing)
    (i : ι) {self : ResidentTensorMaterializer β} {store : TensorResidencyStore}
    (hself : self.Coherent content store) (hinv : inv i self.backing) (j : ι) :
    ((s.update i self store).participants j).Coherent content (s.update i self store).store ∧
      inv j ((s.update i self store).participants j).backing := by
  by_cases hj : j = i
  · subst hj
    have heq : (s.update j self store).participants j = self := Function.update_self _ _ _
    rw [heq]
    exact ⟨hself, hinv⟩
  · have heq : (s.update i self store).participants j = s.participants j :=
      Function.update_of_ne hj _ _
    rw [heq]
    exact ⟨⟨(h j).1.1, hself.2⟩, (h j).2⟩

theorem step_covered (ops : ι → TensorMaterializer β) {s : ResidencySystem ι β}
    {call : ResidencyCall ι β} (hcovered : s.Covered) (hcounted : call.Counted s) :
    (s.step ops call).Covered := by
  intro ref
  have hcover := hcovered ref
  rcases step_counts ops s call hcovered hcounted ref with heq | ⟨-, hretainers, hleases⟩
  · omega
  · omega

theorem step_coherent {ops : ι → TensorMaterializer β}
    (hops : ∀ i, (ops i).Serves (advances i) tensors content (inv i)) (s : ResidencySystem ι β)
    (call : ResidencyCall ι β) (h : s.Coherent content inv)
    (hcall : call.Counted s ∧ call.Follows advances tensors s) :
    (s.step ops call).Coherent content inv := by
  refine ⟨step_covered ops h.1 hcall.1, ?_⟩
  cases call with
  | request i tensorRef tensor byteBudget =>
      obtain rfl : tensor = tensors tensorRef := hcall.2
      exact coherent_update h.2 i
        (ResidentTensorMaterializer.request_coherent (ops i) _ byteBudget (h.2 i).1)
        (ResidentTensorMaterializer.request_served (hops i) byteBudget (h.2 i).2)
  | obtain i tensorRef =>
      exact coherent_update h.2 i
        (ResidentTensorMaterializer.obtainReadyTensor_coherent (hops i) (h.2 i).2 (h.2 i).1).1
        (ResidentTensorMaterializer.obtainReadyTensor_served (hops i) (h.2 i).2)
  | release i tensorRef =>
      exact coherent_update h.2 i
        (ResidentTensorMaterializer.release_coherent (ops i) (h.2 i).1)
        (ResidentTensorMaterializer.release_served (hops i) (h.2 i).2)
  | progress i backing =>
      exact coherent_update h.2 i ⟨(h.2 i).1.1.withBacking backing, (h.2 i).1.2⟩
        ((hops i).advance _ backing (h.2 i).2 hcall.2)
  | evict tensorRef =>
      exact fun i => ⟨⟨(h.2 i).1.1, (s.store.evict_shrinks tensorRef).holds (h.2 i).1.2⟩, (h.2 i).2⟩
  | clear =>
      exact fun i => ⟨⟨(h.2 i).1.1, (TensorResidencyStore.clearEntries_shrinks
        s.store.entries.keys s.store).holds (h.2 i).1.2⟩, (h.2 i).2⟩

omit [DecidableEq ι] in
theorem initial_coherent (content : UInt32 → List UInt8) (maxResidentBytes : UInt64)
    (replacementPolicy : ResidencyReplacementPolicy) {backings : ι → β}
    (hbackings : ∀ i, inv i (backings i)) :
    (initial maxResidentBytes replacementPolicy backings).Coherent content inv := by
  refine ⟨(initial_balanced maxResidentBytes replacementPolicy backings).covered, ?_⟩
  intro i
  refine ⟨⟨⟨?_, ?_⟩, ?_⟩, hbackings i⟩
  · intro ref info tensor hinfo
    cases hinfo
  · intro ref hne
    exact absurd rfl hne
  · intro ref entry hentry
    cases hentry

/-- In every state of a run that names one tensor for a reference, a tensor that reports
ready is obtained with its content, exactly if the materializer requested it before, or it
is neither resident nor ready in the backing. -/
theorem ready_obtainable_iff {ops : ι → TensorMaterializer β}
    (hops : ∀ i, (ops i).Serves (advances i) tensors content (inv i)) (maxResidentBytes : UInt64)
    (replacementPolicy : ResidencyReplacementPolicy) {backings : ι → β}
    (hbackings : ∀ i, inv i (backings i)) (calls : List (ResidencyCall ι β))
    (hcalls : Along ops (fun s call => call.Counted s ∧ call.Follows advances tensors s)
      (initial maxResidentBytes replacementPolicy backings) calls) (i : ι) (tensorRef : UInt32) :
    let s := (initial maxResidentBytes replacementPolicy backings).run ops calls
    ((s.participants i).state (ops i) tensorRef s.store = .ready →
        ∃ tensor, ((s.participants i).obtainReadyTensor (ops i) tensorRef s.store).1 = some tensor ∧
          tensor.payload = content tensorRef) ↔
      (s.participants i).knownTensors.lookup tensorRef ≠ none ∨
        s.store.contains tensorRef = false ∧
          (ops i).state tensorRef (s.participants i).backing ≠ .ready := by
  have hcoherent := run_induction (step_coherent hops) calls _
    (initial_coherent content maxResidentBytes replacementPolicy hbackings) hcalls
  exact ResidentTensorMaterializer.ready_iff_obtainable (hops i) (hcoherent.2 i).2 (hcoherent.2 i).1
    hcoherent.1.leases_ne

end ResidencySystem

/-! ### The local range materializer as a backing -/

namespace LocalVbufRangeMaterializer

/-- The calls that a resident materializer makes; the workers finish between them. -/
def backing : TensorMaterializer LocalVbufRangeMaterializer where
  request := fun ref tensor byteBudget m => request ref.toNat tensor byteBudget m
  state := fun ref m => state ref.toNat m
  obtainReadyTensor := fun ref m => (obtainReadyTensor ref.toNat m, m)
  release := fun ref m => release ref.toNat m

section Serves

variable (source fallbackSource : Option RangeReader) (tensors : UInt32 → PersistentTensorRef)

/-- A worker finishes. -/
def WorkerEnds (m after : LocalVbufRangeMaterializer) : Prop :=
  ∃ ref, after = finishWorker source fallbackSource ref m

/-- What a worker reads for a reference. -/
def content (ref : UInt32) : List UInt8 :=
  (readPayload source fallbackSource (tensors ref)).getD []

/-- The record of a reference is of its tensor, and has the content once it is ready. -/
def RecordFollows (ref : UInt32) (record : LocalRequest) : Prop :=
  record.tensor = tensors ref ∧ (record.state = .ready → ∃ ready, record.ready = some ready ∧
    ready.payload = content source fallbackSource tensors ref)

def Follows (m : LocalVbufRangeMaterializer) : Prop :=
  ∀ ref record, m.requests.lookup (UInt32.toNat ref) = some record →
    RecordFollows source fallbackSource tensors ref record

variable {source fallbackSource tensors} {m : LocalVbufRangeMaterializer}

theorem Follows.insert (h : m.Follows source fallbackSource tensors) {place : Nat}
    {record : LocalRequest}
    (hrecord : ∀ ref : UInt32, ref.toNat = place →
      RecordFollows source fallbackSource tensors ref record) (inflightBytes readyBytes : UInt64) :
    Follows source fallbackSource tensors
      { m with requests := m.requests.insert place record, inflightBytes, readyBytes } := by
  intro ref found hfound
  have hlookup := AssocMap.lookup_insert_eq m.requests place ref.toNat record
  rw [hlookup] at hfound
  split at hfound
  next hsame =>
      cases hfound
      exact hrecord ref hsame
  next => exact h ref found hfound

theorem Follows.erase (h : m.Follows source fallbackSource tensors) (place : Nat) :
    Follows source fallbackSource tensors { m with requests := m.requests.erase place } := by
  intro ref found hfound
  have hlookup := AssocMap.lookup_erase_eq m.requests place ref.toNat
  rw [hlookup] at hfound
  split at hfound
  next => cases hfound
  next => exact h ref found hfound

theorem Follows.finishWorker (h : m.Follows source fallbackSource tensors) (place : Nat) :
    Follows source fallbackSource tensors
      (LocalVbufRangeMaterializer.finishWorker source fallbackSource place m) := by
  unfold LocalVbufRangeMaterializer.finishWorker
  split
  next => exact h
  next record hlookup =>
      split
      next => exact h
      next =>
          have htensor : ∀ ref : UInt32, ref.toNat = place → record.tensor = tensors ref := by
            rintro ref rfl
            exact (h ref record hlookup).1
          dsimp only
          split
          next =>
              refine h.insert ?_ _ _
              exact fun ref href => ⟨htensor ref href, fun hready => by cases hready⟩
          next ready hread =>
              refine h.insert ?_ _ _
              intro ref href
              refine ⟨htensor ref href, fun _ => ⟨ready, rfl, ?_⟩⟩
              obtain ⟨bytes, hbytes, hview⟩ := Option.bind_eq_some_iff.1 hread
              rw [htensor ref href] at hbytes
              rw [content, hbytes, Option.getD_some]
              unfold MaterializedTensor.assignView at hview
              split at hview
              · cases hview
              · cases hview
                rfl

theorem Follows.admitTensor (h : m.Follows source fallbackSource tensors) (ref : UInt32)
    (byteBudget : UInt64) :
    Follows source fallbackSource tensors
      (LocalVbufRangeMaterializer.admitTensor ref.toNat (tensors ref) byteBudget m).2 := by
  unfold LocalVbufRangeMaterializer.admitTensor
  dsimp only
  split
  next => exact h
  next =>
      refine h.insert ?_ _ _
      intro other hsame
      exact ⟨congrArg tensors (UInt32.toNat_inj.1 hsame).symm, fun hready => by cases hready⟩

/-- Behind requests for the tensors of a table the materializer delivers their contents. -/
theorem backing_serves :
    backing.Serves (WorkerEnds source fallbackSource) tensors
      (content source fallbackSource tensors) (Follows source fallbackSource tensors) where
  request := by
    intro ref byteBudget m h
    show Follows _ _ _ (request ref.toNat (tensors ref) byteBudget m).2
    unfold request
    split
    next => exact h.admitTensor ref byteBudget
    next =>
        split
        next => exact h
        next => exact (h.erase ref.toNat).admitTensor ref byteBudget
  obtain := fun _ _ h => h
  release := by
    intro ref m h
    show Follows _ _ _ (release ref.toNat m)
    unfold release
    split
    next => exact h
    next record hlookup =>
        split
        next =>
            refine h.insert ?_ _ _
            intro other hsame
            rw [← hsame] at hlookup
            exact ⟨(h other record hlookup).1, fun hready => by cases hready⟩
        next => exact h
  advance := by
    rintro m after h ⟨ref, rfl⟩
    exact h.finishWorker ref
  obtain_ready := by
    intro ref m h hready
    show ∃ tensor, obtainReadyTensor ref.toNat m = some tensor
    have hstate : state ref.toNat m = .ready := hready
    unfold state at hstate
    split at hstate
    next => cases hstate
    next record hlookup =>
        obtain ⟨ready, hsome, -⟩ := (h ref record hlookup).2 hstate
        refine ⟨ready, ?_⟩
        unfold obtainReadyTensor
        rw [hlookup]
        dsimp only
        rw [if_neg (not_not.2 hstate), hsome]
  payload := by
    intro ref m tensor h hobtained
    have hsome : obtainReadyTensor ref.toNat m = some tensor := hobtained
    unfold obtainReadyTensor at hsome
    split at hsome
    next => cases hsome
    next record hlookup =>
        split at hsome
        next => cases hsome
        next hstate =>
            obtain ⟨ready, hready, hpayload⟩ := (h ref record hlookup).2 (not_not.1 hstate)
            rw [hready] at hsome
            cases hsome
            exact hpayload

theorem fresh_follows : Follows source fallbackSource tensors fresh := by
  intro ref record hlookup
  cases hlookup

end Serves

/-- A source of eight bytes. -/
def byteSource : Option RangeReader :=
  some fun offset length => some (([1, 2, 3, 4, 5, 6, 7, 8].drop offset.toNat).take length.toNat)

/-- Two tensors of it. -/
def byteTensors (ref : UInt32) : PersistentTensorRef where
  tensorId := ref.toUInt64
  name := if ref = 7 then "blk.0.attn_norm.weight" else "blk.1.attn_norm.weight"
  view := { representation := 0, dimensions := [4, 1], payload := [], payloadLen := 4 }
  sourceOffset := if ref = 7 then 0 else 4

/-- The materializer with its request of a tensor, before and after the worker's end. -/
def pending (ref : UInt32) : LocalVbufRangeMaterializer :=
  (backing.request ref (byteTensors ref) 8 fresh).2

def delivered (ref : UInt32) : LocalVbufRangeMaterializer :=
  finishWorker byteSource none ref.toNat (pending ref)

end LocalVbufRangeMaterializer

namespace ResidencySystem

open LocalVbufRangeMaterializer in
/-- One materializer reads a tensor and releases it, another one requests it then. -/
def sharedCalls : List (ResidencyCall (Fin 2) LocalVbufRangeMaterializer) :=
  [.request 0 7 (byteTensors 7) 8, .progress 0 (delivered 7), .obtain 0 7, .release 0 7,
    .request 1 7 (byteTensors 7) 8]

open LocalVbufRangeMaterializer in
/-- The second materializer obtains the bytes that the first one has read. -/
theorem ready_obtainable_iff_shared :
    let s := (initial 8 (fun _ _ => 7) (fun _ : Fin 2 => fresh)).run (fun _ => backing) sharedCalls
    ∃ tensor, ((s.participants 1).obtainReadyTensor backing 7 s.store).1 = some tensor ∧
      tensor.payload = [1, 2, 3, 4] := by
  have hserves : backing.Serves (WorkerEnds byteSource none) byteTensors
      (content byteSource none byteTensors) (Follows byteSource none byteTensors) :=
    backing_serves
  refine (ready_obtainable_iff (fun _ => hserves) 8 (fun _ _ => 7)
    (fun _ => fresh_follows) sharedCalls ?_ 1 7).2 (Or.inl (by decide +kernel)) (by decide +kernel)
  refine ⟨⟨?_, rfl⟩, ⟨fun _ => False.elim, 7, rfl⟩, ⟨?_, trivial⟩, ⟨fun _ => False.elim, trivial⟩,
    ⟨?_, rfl⟩, trivial⟩
  all_goals
    intro ref htakes
    obtain ⟨rfl, -⟩ := htakes
    decide +kernel

open LocalVbufRangeMaterializer in
/-- The second materializer reports the resident tensor ready, but did not request it. -/
theorem ready_not_obtainable :
    let s := (initial 8 (fun _ _ => 7) (fun _ : Fin 2 => fresh)).run (fun _ => backing)
      [.request 0 7 (byteTensors 7) 8, .progress 0 (delivered 7), .obtain 0 7]
    (s.participants 1).state backing 7 s.store = .ready ∧
      ((s.participants 1).obtainReadyTensor backing 7 s.store).1 = none := by
  decide +kernel

end ResidencySystem

end VBuf.Ggml
