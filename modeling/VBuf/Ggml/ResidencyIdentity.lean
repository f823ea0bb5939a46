import VBuf.Ggml.GenerationSession
import VBuf.Ggml.LocalObtain
import VBuf.Ggml.ResidentContents

/-!
# Residency identity

Any number of sessions on one model share a residency store.  As long as no two
different slices that were asked for have numbers that meet, a reference stands
for one slice in every state of a run, so what is obtained is what was asked for
and the tokens are those of the artifact.
-/

namespace VBuf.Ggml

open VBuf.Lib

/-! ### Runs -/

/-- The backing of a session's materializer. -/
def localBacking : TensorMaterializer LocalVbufRangeMaterializer where
  request := fun ref tensor budget m => m.request ref.toNat tensor budget
  state := fun ref m => m.state ref.toNat
  obtainReadyTensor := fun ref m => (m.obtainReadyTensor ref.toNat, m)
  release := fun ref m => m.release ref.toNat

/-- A step of a run: a session calls its materializer for a slice, a worker
finishes with what a source reads, or an unleased entry leaves the store. -/
inductive SessionCall (ι : Type)
  | request (i : ι) (slice : SliceRequest) (byteBudget : UInt64)
  | obtain (i : ι) (slice : SliceRequest)
  | release (i : ι) (slice : SliceRequest)
  | finish (i : ι) (tensorRef : UInt32) (source : RangeReader)
  | evict (tensorRef : UInt32)
  | clear

namespace SessionCall

variable {ι : Type}

/-- The slices that a call asks for. -/
def slices : SessionCall ι → List SliceRequest
  | request _ slice _ => [slice]
  | obtain _ slice => [slice]
  | _ => []

/-- What a worker reads is what the artifact has; a read can fail. -/
def Reads (artifact : UInt64 → UInt64 → List UInt8) : SessionCall ι → Prop
  | finish _ _ source => ∀ offset length bytes, source offset length = some bytes →
      bytes = artifact offset length
  | _ => True

end SessionCall

namespace VbufGenerationSession

variable {ι : Type} [DecidableEq ι] (session : VbufGenerationSession)

/-- The state after a call; a slice without a tensor makes no call. -/
def step (s : ResidencySystem ι LocalVbufRangeMaterializer) :
    SessionCall ι → ResidencySystem ι LocalVbufRangeMaterializer
  | .request i slice byteBudget =>
      match session.resolve slice with
      | .ok (number, tensor) =>
          s.step (fun _ => localBacking) (.request i number.tensorRef tensor byteBudget)
      | .error _ => s
  | .obtain i slice =>
      match session.resolve slice with
      | .ok (number, _) => s.step (fun _ => localBacking) (.obtain i number.tensorRef)
      | .error _ => s
  | .release i slice =>
      match session.resolve slice with
      | .ok (number, _) => s.step (fun _ => localBacking) (.release i number.tensorRef)
      | .error _ => s
  | .finish i tensorRef source =>
      s.step (fun _ => localBacking) (.progress i (LocalVbufRangeMaterializer.finishWorker
        (some source) none tensorRef.toNat (s.participants i).backing))
  | .evict tensorRef => s.step (fun _ => localBacking) (.evict tensorRef)
  | .clear => s.step (fun _ => localBacking) .clear

def run (s : ResidencySystem ι LocalVbufRangeMaterializer) (calls : List (SessionCall ι)) :
    ResidencySystem ι LocalVbufRangeMaterializer :=
  calls.foldl session.step s

/-- What a session obtains for a slice. -/
def obtained (s : ResidencySystem ι LocalVbufRangeMaterializer) (i : ι) (slice : SliceRequest) :
    Option MaterializedTensor :=
  match session.resolve slice with
  | .ok (number, _) =>
      ((s.participants i).obtainReadyTensor localBacking number.tensorRef s.store).1
  | .error _ => none

/-- A store of any capacity, and sessions that have requested nothing. -/
def initial (maxResidentBytes : UInt64) (replacementPolicy : ResidencyReplacementPolicy) :
    ResidencySystem ι LocalVbufRangeMaterializer :=
  ResidencySystem.initial maxResidentBytes replacementPolicy
    (fun _ => LocalVbufRangeMaterializer.fresh)

/-- A generation of session `i` among the calls of a run: each slice it waits for
is answered by an obtain of its own.  It can stop anywhere; `ended` says that it
came to its end. -/
inductive Generates (i : ι) {α : Type} : ResidencySystem ι LocalVbufRangeMaterializer →
    Client α → List (SessionCall ι) → List UInt32 → Bool → Prop
  | stop (s) (client : Client α) : Generates i s client [] [] false
  | done (s) (result : α) : Generates i s (.done result) [] [] true
  | call (s) (client : Client α) (call : SessionCall ι) {calls tokens ended}
      (rest : Generates i (session.step s call) client calls tokens ended) :
      Generates i s client (call :: calls) tokens ended
  | fetch (s) (slice : SliceRequest) (next : MaterializedTensor → Client α) {tensor calls tokens ended}
      (hobtained : session.obtained s i slice = some tensor)
      (rest : Generates i (session.step s (.obtain i slice)) (next tensor) calls tokens ended) :
      Generates i s (.fetch slice next) (.obtain i slice :: calls) tokens ended
  | emit (s) (token : UInt32) (next : Client α) {calls tokens ended}
      (rest : Generates i s next calls tokens ended) :
      Generates i s (.emit token next) calls (token :: tokens) ended

end VbufGenerationSession

/-! ### Different slices -/

/-- What makes a slice: its byte range and its geometry. -/
def sliceKey (tensor : PersistentTensorRef) : (UInt64 × UInt64) × UInt8 × List UInt64 :=
  ((tensor.sourceOffset, tensor.view.payloadLen), tensor.view.representation, tensor.view.dimensions)

namespace VbufGenerationSession

variable (session : VbufGenerationSession) (slices : List SliceRequest)

/-- Different slices have different references. -/
def RefsDistinct : Prop :=
  ∀ r ∈ slices, ∀ r' ∈ slices, ∀ number tensor number' tensor',
    session.resolve r = .ok (number, tensor) → session.resolve r' = .ok (number', tensor') →
    sliceKey tensor ≠ sliceKey tensor' → number.tensorRef ≠ number'.tensorRef

/-- No two different slices have numbers that meet. -/
def NoneMeet : Prop :=
  ∀ r ∈ slices, ∀ r' ∈ slices, ∀ number tensor number' tensor',
    session.resolve r = .ok (number, tensor) → session.resolve r' = .ok (number', tensor') →
    sliceKey tensor ≠ sliceKey tensor' → ¬ SliceNumber.Meets number number'

variable {session} {slices}

theorem refsDistinct_iff_noneMeet : session.RefsDistinct slices ↔ session.NoneMeet slices := by
  constructor
  · intro h r hr r' hr' number tensor number' tensor' hresolve hresolve' hkey hmeets
    exact h r hr r' hr' number tensor number' tensor' hresolve hresolve' hkey
      ((SliceNumber.tensorRef_eq_iff_meets _ _).2 (Or.inl hmeets))
  · intro h r hr r' hr' number tensor number' tensor' hresolve hresolve' hkey heq
    rcases (SliceNumber.tensorRef_eq_iff_meets _ _).1 heq with hmeets | hmeets
    · exact h r hr r' hr' number tensor number' tensor' hresolve hresolve' hkey hmeets
    · exact h r' hr' r hr number' tensor' number tensor hresolve' hresolve (Ne.symm hkey) hmeets

end VbufGenerationSession

/-! ### Backings -/

namespace ResidentTensorMaterializer

variable {β : Type} {self : ResidentTensorMaterializer β} {store : TensorResidencyStore}
  {tensorRef : UInt32}

/-- A request reaches the backing at most once. -/
theorem request_backing (ops : TensorMaterializer β) (tensor : PersistentTensorRef)
    (byteBudget : UInt64) :
    (request ops tensorRef tensor byteBudget self store).2.1.backing = self.backing ∨
      (request ops tensorRef tensor byteBudget self store).2.1.backing =
        (ops.request tensorRef tensor byteBudget self.backing).2 := by
  have hanew : ∀ (m : ResidentTensorMaterializer β), m.backing = self.backing →
      (requestAnew ops tensorRef tensor byteBudget m store).2.1.backing = self.backing ∨
      (requestAnew ops tensorRef tensor byteBudget m store).2.1.backing =
        (ops.request tensorRef tensor byteBudget self.backing).2 := by
    intro m hm
    unfold requestAnew
    simp only
    split
    next => exact Or.inl hm
    next =>
        have hset : (m.setRequest tensorRef { tensor, backingRequested := true }).backing =
            self.backing := hm
        rw [hset]
        split
        next => exact Or.inr rfl
        next => exact Or.inr rfl
  unfold request
  simp only
  split
  next => exact hanew _ rfl
  next =>
      split
      next => exact Or.inl rfl
      next =>
          split
          next => exact Or.inl rfl
          next =>
              split
              next => exact Or.inl rfl
              next => exact hanew _ rfl

theorem obtainRequested_backing (ops : TensorMaterializer β) (info : RequestInfo) :
    (obtainRequested ops tensorRef info self store).2.1.backing = self.backing ∨
      (obtainRequested ops tensorRef info self store).2.1.backing =
        (ops.obtainReadyTensor tensorRef self.backing).2 := by
  unfold obtainRequested
  split
  next => exact Or.inl rfl
  next =>
      split
      next => exact Or.inl rfl
      next =>
          right
          unfold obtainFromBacking
          split
          next heq => rw [heq]
          next heq =>
              rw [heq]
              simp only
              split
              next => rfl
              next => rfl

theorem obtainReadyTensor_backing (ops : TensorMaterializer β) :
    (obtainReadyTensor ops tensorRef self store).2.1.backing = self.backing ∨
      (obtainReadyTensor ops tensorRef self store).2.1.backing =
        (ops.obtainReadyTensor tensorRef self.backing).2 := by
  unfold obtainReadyTensor
  split
  next => exact obtainRequested_backing ops _
  next =>
      split
      next => exact Or.inl rfl
      next tensor _ =>
          exact @obtainRequested_backing β (self.setRequest tensorRef { tensor }) store tensorRef ops _

theorem release_backing (ops : TensorMaterializer β) :
    (release ops tensorRef self store).1.backing = self.backing ∨
      (release ops tensorRef self store).1.backing = ops.release tensorRef self.backing := by
  unfold release
  split
  next => exact Or.inl rfl
  next =>
      simp only
      split
      next => exact Or.inr rfl
      next => exact Or.inl rfl

end ResidentTensorMaterializer

theorem assignView_congr {tensor tensor' : PersistentTensorRef} (h : sliceKey tensor = sliceKey tensor')
    (payload : List UInt8) : MaterializedTensor.assignView tensor.view payload =
      MaterializedTensor.assignView tensor'.view payload := by
  simp only [sliceKey, Prod.mk.injEq] at h
  obtain ⟨⟨-, hlen⟩, hrepresentation, hdimensions⟩ := h
  rw [MaterializedTensor.assignView, MaterializedTensor.assignView, hlen, hrepresentation,
    hdimensions]

namespace VbufGenerationSession

section Names

variable (session : VbufGenerationSession) (artifact : UInt64 → UInt64 → List UInt8)
  (slices : List SliceRequest)

/-- The reference stands for this tensor, of all that were asked for. -/
def Named (tensorRef : UInt32) (materialized : MaterializedTensor) : Prop :=
  ∀ r ∈ slices, ∀ number tensor, session.resolve r = .ok (number, tensor) →
    number.tensorRef = tensorRef → session.slice artifact r = some materialized

/-- The requests of a backing are for what their references stand for. -/
structure BackingNamed (m : LocalVbufRangeMaterializer) : Prop where
  pending : ∀ (tensorRef : UInt32) (request : LocalRequest),
    m.requests.lookup tensorRef.toNat = some request →
    ∀ r ∈ slices, ∀ number tensor, session.resolve r = .ok (number, tensor) →
      number.tensorRef = tensorRef → sliceKey tensor = sliceKey request.tensor
  ready : ∀ (tensorRef : UInt32) (request : LocalRequest) (materialized : MaterializedTensor),
    m.requests.lookup tensorRef.toNat = some request → request.ready = some materialized →
    session.Named artifact slices tensorRef materialized

variable {session} {artifact} {slices} {m : LocalVbufRangeMaterializer}

theorem slice_eq {r : SliceRequest} {number : SliceNumber} {tensor : PersistentTensorRef}
    (h : session.resolve r = .ok (number, tensor)) :
    session.slice artifact r = MaterializedTensor.assignView tensor.view
      (artifact tensor.sourceOffset tensor.view.payloadLen) := by
  unfold slice
  rw [h]

theorem BackingNamed.fresh :
    session.BackingNamed artifact slices LocalVbufRangeMaterializer.fresh := by
  constructor
  · intro ref request hlookup
    simp [LocalVbufRangeMaterializer.fresh] at hlookup
  · intro ref request materialized hlookup
    simp [LocalVbufRangeMaterializer.fresh] at hlookup

/-- A change of one request. -/
theorem BackingNamed.insert (h : session.BackingNamed artifact slices m) {ref : UInt32}
    {request : LocalRequest} {after : LocalVbufRangeMaterializer}
    (hafter : after.requests = m.requests.insert ref.toNat request)
    (hpending : ∀ r ∈ slices, ∀ number tensor, session.resolve r = .ok (number, tensor) →
      number.tensorRef = ref → sliceKey tensor = sliceKey request.tensor)
    (hready : ∀ materialized, request.ready = some materialized →
      session.Named artifact slices ref materialized) :
    session.BackingNamed artifact slices after := by
  have hlookup : ∀ (other : UInt32) (found : LocalRequest),
      after.requests.lookup other.toNat = some found →
      other = ref ∧ found = request ∨ m.requests.lookup other.toNat = some found := by
    intro other found hfound
    rw [hafter, AssocMap.lookup_insert_eq] at hfound
    by_cases hother : other.toNat = ref.toNat
    · rw [if_pos hother] at hfound
      exact Or.inl ⟨UInt32.toNat_inj.1 hother, (Option.some.inj hfound).symm⟩
    · rw [if_neg hother] at hfound
      exact Or.inr hfound
  constructor
  · intro other found hfound
    rcases hlookup other found hfound with ⟨rfl, rfl⟩ | hold
    · exact hpending
    · exact h.pending other found hold
  · intro other found materialized hfound hmaterialized
    rcases hlookup other found hfound with ⟨rfl, rfl⟩ | hold
    · exact hready materialized hmaterialized
    · exact h.ready other found materialized hold hmaterialized

theorem BackingNamed.erase (h : session.BackingNamed artifact slices m) (key : Nat) :
    session.BackingNamed artifact slices { m with requests := m.requests.erase key } := by
  have hlookup : ∀ (other : UInt32) (found : LocalRequest),
      (m.requests.erase key).lookup other.toNat = some found →
      m.requests.lookup other.toNat = some found := by
    intro other found hfound
    rw [AssocMap.lookup_erase_eq] at hfound
    split at hfound
    · cases hfound
    · exact hfound
  exact ⟨fun other found hfound => h.pending other found (hlookup other found hfound),
    fun other found materialized hfound => h.ready other found materialized
      (hlookup other found hfound)⟩

theorem BackingNamed.admitTensor (h : session.BackingNamed artifact slices m) {ref : UInt32}
    {tensor : PersistentTensorRef} (byteBudget : UInt64)
    (hpending : ∀ r ∈ slices, ∀ number tensor', session.resolve r = .ok (number, tensor') →
      number.tensorRef = ref → sliceKey tensor' = sliceKey tensor) :
    session.BackingNamed artifact slices (m.admitTensor ref.toNat tensor byteBudget).2 := by
  unfold LocalVbufRangeMaterializer.admitTensor
  simp only
  split
  · exact h
  · exact h.insert rfl hpending (fun _ hready => by cases hready)

/-- A request for what the reference stands for. -/
theorem BackingNamed.request (h : session.BackingNamed artifact slices m) {ref : UInt32}
    {tensor : PersistentTensorRef} (byteBudget : UInt64)
    (hpending : ∀ r ∈ slices, ∀ number tensor', session.resolve r = .ok (number, tensor') →
      number.tensorRef = ref → sliceKey tensor' = sliceKey tensor) :
    session.BackingNamed artifact slices (m.request ref.toNat tensor byteBudget).2 := by
  unfold LocalVbufRangeMaterializer.request
  split
  · exact h.admitTensor byteBudget hpending
  · split
    · exact h
    · exact (h.erase ref.toNat).admitTensor byteBudget hpending

theorem BackingNamed.release (h : session.BackingNamed artifact slices m) (ref : UInt32) :
    session.BackingNamed artifact slices (m.release ref.toNat) := by
  unfold LocalVbufRangeMaterializer.release
  split
  · exact h
  next request hlookup =>
      split
      · exact h.insert rfl (h.pending ref request hlookup) (fun _ hready => by cases hready)
      · exact h

/-- A worker that finishes has read what its reference stands for. -/
theorem BackingNamed.finish (h : session.BackingNamed artifact slices m) (ref : UInt32)
    {source : RangeReader} (hsource : ∀ offset length bytes, source offset length = some bytes →
      bytes = artifact offset length) :
    session.BackingNamed artifact slices
      (LocalVbufRangeMaterializer.finishWorker (some source) none ref.toNat m) := by
  unfold LocalVbufRangeMaterializer.finishWorker
  cases hlookup : m.requests.lookup ref.toNat with
  | none => exact h
  | some request =>
      simp only
      split
      · exact h
      · cases hread : (LocalVbufRangeMaterializer.readPayload (some source) none
            request.tensor).bind (MaterializedTensor.assignView request.tensor.view) with
        | none =>
            exact h.insert rfl (h.pending ref request hlookup)
              (fun materialized hready => h.ready ref request materialized hlookup hready)
        | some ready =>
            refine h.insert rfl (h.pending ref request hlookup) ?_
            intro materialized hready r hr number tensor hresolve href
            obtain rfl : ready = materialized := Option.some.inj hready
            have hkey := h.pending ref request hlookup r hr number tensor hresolve href
            obtain ⟨bytes, hbytes, hview⟩ := Option.bind_eq_some_iff.1 hread
            have hpayload : source request.tensor.sourceOffset request.tensor.view.payloadLen =
                some bytes := by
              unfold LocalVbufRangeMaterializer.readPayload at hbytes
              cases hresult : source request.tensor.sourceOffset
                  request.tensor.view.payloadLen with
              | none =>
                  simp only [hresult] at hbytes
                  cases hbytes
              | some read =>
                  simp only [hresult] at hbytes
                  exact hbytes
            rw [slice_eq hresolve, assignView_congr hkey]
            have hrange : (tensor.sourceOffset, tensor.view.payloadLen) =
                (request.tensor.sourceOffset, request.tensor.view.payloadLen) :=
              congrArg Prod.fst hkey
            rw [Prod.mk.injEq] at hrange
            rw [hrange.1, hrange.2, ← hsource _ _ _ hpayload]
            exact hview

theorem BackingNamed.obtain (h : session.BackingNamed artifact slices m) {ref : UInt32}
    {materialized : MaterializedTensor}
    (hobtain : m.obtainReadyTensor ref.toNat = some materialized) :
    session.Named artifact slices ref materialized := by
  unfold LocalVbufRangeMaterializer.obtainReadyTensor at hobtain
  split at hobtain
  · cases hobtain
  next request hlookup =>
      split at hobtain
      · cases hobtain
      · exact h.ready ref request materialized hlookup hobtain

/-! ### The invariant -/

variable (session) (artifact) (slices)

/-- Whatever the sessions keep or the store has is what its reference stands for. -/
def Identified {ι : Type} (s : ResidencySystem ι LocalVbufRangeMaterializer) : Prop :=
  ∀ i, (s.participants i).Sound (session.Named artifact slices) s.store ∧
    session.BackingNamed artifact slices (s.participants i).backing

variable {session} {artifact} {slices}

/-- The tensor of a slice is that of its reference. -/
theorem RefsDistinct.sliceKey_eq (h : session.RefsDistinct slices) {slice : SliceRequest}
    (hslice : slice ∈ slices) {number : SliceNumber} {tensor : PersistentTensorRef}
    (hresolve : session.resolve slice = .ok (number, tensor)) :
    ∀ r ∈ slices, ∀ number' tensor', session.resolve r = .ok (number', tensor') →
      number'.tensorRef = number.tensorRef → sliceKey tensor' = sliceKey tensor := by
  intro r hr number' tensor' hresolve' href
  by_contra hkey
  exact h r hr slice hslice number' tensor' number tensor hresolve' hresolve hkey href

variable {ι : Type} [DecidableEq ι]

theorem Identified.update {s : ResidencySystem ι LocalVbufRangeMaterializer}
    (h : session.Identified artifact slices s) (i : ι)
    {self : ResidentTensorMaterializer LocalVbufRangeMaterializer} {store : TensorResidencyStore}
    (hself : self.Sound (session.Named artifact slices) store)
    (hbacking : session.BackingNamed artifact slices self.backing) :
    session.Identified artifact slices (s.update i self store) := by
  intro j
  by_cases hj : j = i
  · subst hj
    have heq : (s.update j self store).participants j = self := Function.update_self _ _ _
    rw [heq]
    exact ⟨hself, hbacking⟩
  · have heq : (s.update i self store).participants j = s.participants j :=
      Function.update_of_ne hj _ _
    rw [heq]
    exact ⟨⟨(h j).1.1, hself.2⟩, (h j).2⟩

omit [DecidableEq ι] in
theorem initial_identified (maxResidentBytes : UInt64)
    (replacementPolicy : ResidencyReplacementPolicy) :
    session.Identified artifact slices
      (initial maxResidentBytes replacementPolicy : ResidencySystem ι LocalVbufRangeMaterializer) := by
  intro i
  refine ⟨⟨⟨?_, ?_⟩, ?_⟩, BackingNamed.fresh⟩
  · intro ref info tensor hinfo
    cases hinfo
  · intro ref hne
    exact absurd rfl hne
  · intro ref entry hentry
    cases hentry

/-- What a session obtains is what the reference stands for. -/
theorem Identified.obtain {s : ResidencySystem ι LocalVbufRangeMaterializer}
    (h : session.Identified artifact slices s) (i : ι) (ref : UInt32) :
    session.Identified artifact slices (s.step (fun _ => localBacking) (.obtain i ref)) ∧
      ∀ tensor, ((s.participants i).obtainReadyTensor localBacking ref s.store).1 = some tensor →
        session.Named artifact slices ref tensor := by
  have hobtained : ∀ tensor, (localBacking.obtainReadyTensor ref (s.participants i).backing).1 =
      some tensor → session.Named artifact slices ref tensor :=
    fun tensor htensor => (h i).2.obtain htensor
  obtain ⟨hsound, hnamed⟩ :=
    ResidentTensorMaterializer.obtainReadyTensor_sound localBacking hobtained (h i).1
  have hbacking : ((s.participants i).obtainReadyTensor localBacking ref s.store).2.1.backing =
      (s.participants i).backing :=
    (ResidentTensorMaterializer.obtainReadyTensor_backing localBacking).elim id id
  have hnamedAfter : session.BackingNamed artifact slices
      ((s.participants i).obtainReadyTensor localBacking ref s.store).2.1.backing := by
    rw [hbacking]
    exact (h i).2
  exact ⟨h.update i hsound hnamedAfter, hnamed⟩

/-- One call keeps every reference to what it stands for. -/
theorem step_identified (hdistinct : session.RefsDistinct slices)
    {s : ResidencySystem ι LocalVbufRangeMaterializer} (h : session.Identified artifact slices s)
    (call : SessionCall ι) (hslices : ∀ r ∈ call.slices, r ∈ slices) (hreads : call.Reads artifact) :
    session.Identified artifact slices (session.step s call) := by
  cases call with
  | request i slice byteBudget =>
      have hslice : slice ∈ slices := hslices slice (List.mem_singleton.2 rfl)
      cases hresolve : session.resolve slice with
      | error message =>
          simp only [step, hresolve]
          exact h
      | ok resolved =>
          obtain ⟨number, tensor⟩ := resolved
          have hnamed : session.BackingNamed artifact slices ((s.participants i).request
              localBacking number.tensorRef tensor byteBudget s.store).2.1.backing := by
            rcases @ResidentTensorMaterializer.request_backing _ (s.participants i) s.store
              number.tensorRef localBacking tensor byteBudget with hbacking | hbacking
            · rw [hbacking]
              exact (h i).2
            · rw [hbacking]
              exact (h i).2.request byteBudget (hdistinct.sliceKey_eq hslice hresolve)
          simp only [step, hresolve]
          exact h.update i
            (ResidentTensorMaterializer.request_sound localBacking tensor byteBudget (h i).1) hnamed
  | obtain i slice =>
      cases hresolve : session.resolve slice with
      | error message =>
          simp only [step, hresolve]
          exact h
      | ok resolved =>
          simp only [step, hresolve]
          exact (h.obtain i resolved.1.tensorRef).1
  | release i slice =>
      cases hresolve : session.resolve slice with
      | error message =>
          simp only [step, hresolve]
          exact h
      | ok resolved =>
          obtain ⟨number, tensor⟩ := resolved
          have hnamed : session.BackingNamed artifact slices ((s.participants i).release
              localBacking number.tensorRef s.store).1.backing := by
            rcases @ResidentTensorMaterializer.release_backing _ (s.participants i) s.store
              number.tensorRef localBacking with hbacking | hbacking
            · rw [hbacking]
              exact (h i).2
            · rw [hbacking]
              exact (h i).2.release number.tensorRef
          simp only [step, hresolve]
          exact h.update i (ResidentTensorMaterializer.release_sound localBacking (h i).1) hnamed
  | finish i tensorRef source =>
      exact h.update i ⟨(h i).1.1.withBacking _, (h i).1.2⟩ ((h i).2.finish tensorRef hreads)
  | evict tensorRef =>
      exact fun i => ⟨⟨(h i).1.1, (s.store.evict_shrinks tensorRef).allGood (h i).1.2⟩, (h i).2⟩
  | clear =>
      exact fun i => ⟨⟨(h i).1.1, (TensorResidencyStore.clearEntries_shrinks s.store.entries.keys
        s.store).allGood (h i).1.2⟩, (h i).2⟩

theorem run_identified (hdistinct : session.RefsDistinct slices) (calls : List (SessionCall ι))
    {s : ResidencySystem ι LocalVbufRangeMaterializer} (h : session.Identified artifact slices s)
    (hslices : ∀ call ∈ calls, ∀ r ∈ call.slices, r ∈ slices)
    (hreads : ∀ call ∈ calls, call.Reads artifact) :
    session.Identified artifact slices (session.run s calls) := by
  induction calls generalizing s with
  | nil => exact h
  | cons call rest ih =>
      have hstep := step_identified hdistinct h call (hslices call List.mem_cons_self)
        (hreads call List.mem_cons_self)
      exact ih hstep (fun other hother => hslices other (List.mem_cons_of_mem call hother))
        (fun other hother => hreads other (List.mem_cons_of_mem call hother))

theorem Identified.obtained_eq {s : ResidencySystem ι LocalVbufRangeMaterializer}
    (h : session.Identified artifact slices s) {i : ι} {slice : SliceRequest}
    (hslice : slice ∈ slices) {tensor : MaterializedTensor}
    (hobtained : session.obtained s i slice = some tensor) :
    session.slice artifact slice = some tensor := by
  unfold obtained at hobtained
  cases hresolve : session.resolve slice with
  | error message =>
      rw [hresolve] at hobtained
      cases hobtained
  | ok resolved =>
      rw [hresolve] at hobtained
      exact (h.obtain i resolved.1.tensorRef).2 tensor hobtained slice hslice resolved.1 resolved.2
        hresolve rfl

/-- A generation emits the tokens of the artifact, as far as it comes. -/
theorem Generates.tokens_prefix (hdistinct : session.RefsDistinct slices) {i : ι} {α : Type}
    {s : ResidencySystem ι LocalVbufRangeMaterializer} {client : Client α}
    {calls : List (SessionCall ι)} {tokens : List UInt32} {ended : Bool}
    (hgenerates : session.Generates i s client calls tokens ended)
    (h : session.Identified artifact slices s)
    (hslices : ∀ call ∈ calls, ∀ r ∈ call.slices, r ∈ slices)
    (hreads : ∀ call ∈ calls, call.Reads artifact) :
    tokens <+: client.tokens (session.slice artifact) ∧
      (ended = true → tokens = client.tokens (session.slice artifact)) := by
  induction hgenerates with
  | stop s client => exact ⟨List.nil_prefix, fun hended => by cases hended⟩
  | done s result => exact ⟨List.prefix_refl [], fun _ => rfl⟩
  | call s client call rest ih =>
      exact ih (step_identified hdistinct h call (hslices call List.mem_cons_self)
          (hreads call List.mem_cons_self))
        (fun other hother => hslices other (List.mem_cons_of_mem call hother))
        (fun other hother => hreads other (List.mem_cons_of_mem call hother))
  | @fetch s slice next tensor calls tokens ended hobtained rest ih =>
      have hslice : slice ∈ slices :=
        hslices (.obtain i slice) List.mem_cons_self slice (List.mem_singleton.2 rfl)
      have htokens : (Client.fetch slice next).tokens (session.slice artifact) =
          (next tensor).tokens (session.slice artifact) := by
        rw [Client.tokens, h.obtained_eq hslice hobtained]
      rw [htokens]
      exact ih (step_identified hdistinct h (.obtain i slice) (hslices _ List.mem_cons_self) trivial)
        (fun other hother => hslices other (List.mem_cons_of_mem _ hother))
        (fun other hother => hreads other (List.mem_cons_of_mem _ hother))
  | emit s token next rest ih =>
      obtain ⟨hbegins, hended⟩ := ih h hslices hreads
      refine ⟨List.prefix_cons_inj token |>.2 hbegins, ?_⟩
      intro hdone
      rw [Client.tokens, ← hended hdone]

end Names

/-- Different slices of a run have different references exactly when none of their
numbers meet; then every slice that is obtained has the bytes of the artifact,
and every generation emits the tokens of the artifact, whatever the capacity of
the store and whatever was resident. -/
theorem residency_identity (session : VbufGenerationSession) (slices : List SliceRequest) :
    (session.RefsDistinct slices ↔ session.NoneMeet slices) ∧
    (session.NoneMeet slices →
      ∀ (ι : Type) [DecidableEq ι] (artifact : UInt64 → UInt64 → List UInt8)
        (maxResidentBytes : UInt64) (replacementPolicy : ResidencyReplacementPolicy)
        (before : List (SessionCall ι)),
      (∀ call ∈ before, ∀ r ∈ call.slices, r ∈ slices) →
      (∀ call ∈ before, call.Reads artifact) →
      let s := session.run (initial maxResidentBytes replacementPolicy) before
      (∀ i, ∀ r ∈ slices, ∀ tensor, session.obtained s i r = some tensor →
        session.slice artifact r = some tensor) ∧
      (∀ (A S : Type) (kernels : Kernels A S) (config : VbufGenerationConfig) (i : ι)
        (calls : List (SessionCall ι)) (tokens : List UInt32) (ended : Bool),
        session.Generates i s (session.generate kernels config) calls tokens ended →
        (∀ call ∈ calls, ∀ r ∈ call.slices, r ∈ slices) →
        (∀ call ∈ calls, call.Reads artifact) →
        tokens <+: (session.generate kernels config).tokens (session.slice artifact) ∧
          (ended = true →
            tokens = (session.generate kernels config).tokens (session.slice artifact)))) := by
  refine ⟨refsDistinct_iff_noneMeet, ?_⟩
  intro hnone ι _ artifact maxResidentBytes replacementPolicy before hslices hreads s
  have hdistinct := refsDistinct_iff_noneMeet.2 hnone
  have h : session.Identified artifact slices s :=
    run_identified hdistinct before (initial_identified maxResidentBytes replacementPolicy) hslices
      hreads
  refine ⟨fun i r hr tensor hobtained => h.obtained_eq hr hobtained, ?_⟩
  intro A S kernels config i calls tokens ended hgenerates hcalls hcallReads
  exact hgenerates.tokens_prefix hdistinct h hcalls hcallReads

/-! ### Slices that meet -/

/-- A model of one dense block, with 2000 tokens. -/
def exampleDirectory : List DirectoryTensor :=
  [⟨"token_embd.weight", 0, [2048, 2000], [], 4096, 16384000⟩,
    ⟨"blk.0.attn_norm.weight", 0, [2048], [], 16388096, 8192⟩,
    ⟨"blk.0.attn_q.weight", 0, [2048, 3072], [], 16396288, 25165824⟩,
    ⟨"blk.0.attn_kv_a_mqa.weight", 0, [2048, 576], [], 41562112, 4718592⟩,
    ⟨"blk.0.attn_kv_a_norm.weight", 0, [512], [], 46280704, 2048⟩,
    ⟨"blk.0.attn_kv_b.weight", 0, [512, 4096], [], 46282752, 8388608⟩,
    ⟨"blk.0.attn_output.weight", 0, [2048, 2048], [], 54671360, 16777216⟩,
    ⟨"blk.0.ffn_norm.weight", 0, [2048], [], 71448576, 8192⟩,
    ⟨"blk.0.ffn_gate.weight", 0, [2048, 64], [], 71456768, 524288⟩,
    ⟨"blk.0.ffn_up.weight", 0, [2048, 64], [], 71981056, 524288⟩,
    ⟨"blk.0.ffn_down.weight", 0, [64, 2048], [], 72505344, 524288⟩,
    ⟨"output_norm.weight", 0, [2048], [], 73029632, 8192⟩,
    ⟨"output.weight", 0, [2048, 2000], [], 73037824, 16384000⟩]

/-- Arithmetic that gives token 7. -/
def exampleKernels : Kernels Unit Unit where
  initialState := ()
  embedding := fun _ => some ()
  attention := fun _ _ _ _ => some ((), ())
  denseLayer := fun _ _ _ _ => some ()
  route := fun _ _ _ => some []
  moeLayer := fun _ _ _ _ _ => some ()
  greedy := fun _ _ _ => some 7

def exampleSession : VbufGenerationSession where
  metadata := loadMetadata exampleDirectory
  plans := [⟨(loadMetadata exampleDirectory).filterMap (blockAlias "blk.0." 10000), 0, 10000⟩]

/-- The slices that the prompt [7] asks for. -/
def exampleSlices : List SliceRequest :=
  (exampleSession.generate exampleKernels ⟨1, 1, [7], none⟩).requests
    (exampleSession.slice fun _ _ => [])

/-- The numbers and tensors of slices. -/
def found (session : VbufGenerationSession) (slices : List SliceRequest) :
    List (SliceNumber × PersistentTensorRef) :=
  slices.flatMap fun slice => (session.resolve slice).toOption.toList

/-- The references of slices differ when no two of them are listed. -/
theorem refsDistinct_of_nodup {session : VbufGenerationSession} {slices : List SliceRequest}
    (h : ((session.found slices).map fun resolved => resolved.1.tensorRef).Nodup) :
    session.RefsDistinct slices := by
  have hfound : ∀ r ∈ slices, ∀ number tensor, session.resolve r = .ok (number, tensor) →
      (number, tensor) ∈ session.found slices := by
    intro r hr number tensor hresolve
    refine List.mem_flatMap.2 ⟨r, hr, ?_⟩
    rw [hresolve]
    exact List.mem_singleton.2 rfl
  intro r hr r' hr' number tensor number' tensor' hresolve hresolve' hkey hsame
  cases List.inj_on_of_nodup_map h (hfound r hr number tensor hresolve)
    (hfound r' hr' number' tensor' hresolve') hsame
  exact hkey rfl

/-- No slices of the prompt [7] meet, so its token comes whatever the store keeps. -/
theorem residency_identity_token7 :
    exampleSession.NoneMeet exampleSlices ∧ exampleSlices.length = 13 ∧
      ∀ (maxResidentBytes : UInt64) (replacementPolicy : ResidencyReplacementPolicy)
        (calls : List (SessionCall Unit)) (tokens : List UInt32),
        exampleSession.Generates () (initial maxResidentBytes replacementPolicy)
          (exampleSession.generate exampleKernels ⟨1, 1, [7], none⟩) calls tokens true →
        (∀ call ∈ calls, ∀ r ∈ call.slices, r ∈ exampleSlices) →
        (∀ call ∈ calls, call.Reads fun _ _ => []) → tokens = [7] := by
  obtain ⟨hiff, hruns⟩ := residency_identity exampleSession exampleSlices
  have hnone := hiff.1 (refsDistinct_of_nodup (by decide +kernel))
  refine ⟨hnone, by decide +kernel, ?_⟩
  intro maxResidentBytes replacementPolicy calls tokens hrun hslices hreads
  obtain ⟨-, htokens⟩ := hruns hnone Unit (fun _ _ => []) maxResidentBytes replacementPolicy []
    (fun _ hcall => (by cases hcall)) (fun _ hcall => (by cases hcall))
  rw [(htokens _ _ exampleKernels ⟨1, 1, [7], none⟩ () calls tokens true hrun hslices hreads).2 rfl]
  decide +kernel

/-- The prompt [1500] asks for an embedding row and for the output norm under one
reference. -/
theorem residency_identity_fails_token1500 :
    VbufGenerationSession.create exampleDirectory 1 = .ok exampleSession ∧
      .embeddingRow 1500 ∈ (exampleSession.generate exampleKernels ⟨1, 1, [1500], none⟩).requests
        (exampleSession.slice (fun _ _ => [])) ∧
      .outputNorm 0 ∈ (exampleSession.generate exampleKernels ⟨1, 1, [1500], none⟩).requests
        (exampleSession.slice (fun _ _ => [])) ∧
      ∃ number tensor number' tensor',
        exampleSession.resolve (.embeddingRow 1500) = .ok (number, tensor) ∧
        exampleSession.resolve (.outputNorm 0) = .ok (number', tensor') ∧
        sliceKey tensor ≠ sliceKey tensor' ∧ number.tensorRef = number'.tensorRef := by
  refine ⟨by decide +kernel, by decide +kernel, by decide +kernel, .embedding 1500,
    ⟨1001500, "token_embd.weight", ⟨0, [2048, 1], [], 8192⟩, 12292096⟩, .outputNorm 0,
    ⟨11, "output_norm.weight", ⟨0, [2048], [], 8192⟩, 73029632⟩, ?_⟩
  exact ⟨by decide +kernel, by decide +kernel, by decide +kernel, by decide +kernel⟩

end VbufGenerationSession

end VBuf.Ggml
