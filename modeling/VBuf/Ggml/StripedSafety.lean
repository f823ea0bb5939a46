import VBuf.Ggml.StripedMaterializer

/-!
# A striped read is a single read

The two stripes tile the buffer, and only their own threads write to them until both are
joined.  So a stripe whose read has succeeded keeps its bytes, and what the worker publishes
is what one read of the whole range would have given, however the threads and the callers
interleave.
-/

namespace VBuf.Ggml

open VBuf.Lib

/-! ### The stripes -/

/-- The bytes of a range of the source. -/
def contentAt (content : Nat → UInt8) (offset length : Nat) : List UInt8 :=
  (List.range length).map fun i => content (offset + i)

@[simp] theorem contentAt_length (content : Nat → UInt8) (offset length : Nat) :
    (contentAt content offset length).length = length := by
  simp [contentAt]

theorem contentAt_add (content : Nat → UInt8) (offset m n : Nat) :
    contentAt content offset (m + n) =
      contentAt content offset m ++ contentAt content (offset + m) n := by
  simp [contentAt, List.range_add, Nat.add_assoc]

/-- A read that succeeds with its full length leaves the bytes of the source. -/
def RangeSource.Right (content : Nat → UInt8) (source : RangeSource) : Prop :=
  ∀ offset length bytes result, source.reads offset length bytes result → result.success = true →
    result.returnedBytes = length → bytes = contentAt content offset.toNat length.toNat

/-- A read returns. -/
def RangeSource.Returns (source : RangeSource) : Prop :=
  ∀ offset length : UInt64, ∃ bytes result, bytes.length = length.toNat ∧
    source.reads offset length bytes result

/-- The plan of two stripes that is split there. -/
def twoStripes (offset length split : UInt64) (sourceA sourceB : RangeSource) :
    RangeStripingPlan where
  tensorOffset := offset
  tensorLength := length
  stripes :=
    [⟨"A", some sourceA, offset, 0, split⟩,
      ⟨"B", some sourceB, offset + split, split, length - split⟩]

/-- An accepted plan has two stripes that are not empty. -/
theorem twoWay_eq_some {offset length alignment : UInt64} {sourceA sourceB : Option RangeSource}
    {plan : RangeStripingPlan}
    (h : RangeStripingPlan.twoWay offset length sourceA sourceB alignment = some plan) :
    ∃ a b split, sourceA = some a ∧ sourceB = some b ∧ split ≠ 0 ∧ split < length ∧
      plan = twoStripes offset length split a b := by
  unfold RangeStripingPlan.twoWay at h
  split at h
  · cases h
  next haccepted =>
    rw [not_or, not_or] at haccepted
    dsimp only at h
    split at h
    · cases h
    next hsplit =>
      rw [not_or, ge_iff_le, UInt64.not_le] at hsplit
      split at h
      · cases h
        obtain ⟨hA, hB, -⟩ := haccepted
        rw [Option.isNone_iff_eq_none] at hA hB
        obtain ⟨a, rfl⟩ := Option.ne_none_iff_exists'.1 hA
        obtain ⟨b, rfl⟩ := Option.ne_none_iff_exists'.1 hB
        exact ⟨a, b, _, rfl, rfl, hsplit.1, hsplit.2, rfl⟩
      · cases h

/-- The part of a stripe holds the bytes of the source. -/
def Written (content : Nat → UInt8) (plan : RangeStripingPlan) (stripe : RangeStripe)
    (data : List UInt8) : Prop :=
  slice data stripe.destinationOffset.toNat stripe.length.toNat =
    contentAt content (plan.tensorOffset.toNat + stripe.destinationOffset.toNat) stripe.length.toNat

/-- The stripes lie apart and cover the buffer, and their reads are right. -/
structure Tiled (content : Nat → UInt8) (plan : RangeStripingPlan) : Prop where
  inside : ∀ (i : Nat) (stripe : RangeStripe), plan.stripes[i]? = some stripe →
    stripe.destinationOffset.toNat + stripe.length.toNat ≤ plan.tensorLength.toNat
  apart : ∀ (i j : Nat) (stripe other : RangeStripe), plan.stripes[i]? = some stripe →
    plan.stripes[j]? = some other → i ≠ j →
    stripe.destinationOffset.toNat + stripe.length.toNat ≤ other.destinationOffset.toNat ∨
      other.destinationOffset.toNat + other.length.toNat ≤ stripe.destinationOffset.toNat
  right : ∀ (i : Nat) (stripe : RangeStripe) (source : RangeSource),
    plan.stripes[i]? = some stripe → stripe.source = some source →
    ∀ bytes result, source.reads stripe.sourceOffset stripe.length bytes result →
      result.success = true → result.returnedBytes = stripe.length →
      bytes = contentAt content (plan.tensorOffset.toNat + stripe.destinationOffset.toNat)
        stripe.length.toNat
  covers : ∀ data : List UInt8, data.length = plan.tensorLength.toNat →
    (∀ (i : Nat) (stripe : RangeStripe), plan.stripes[i]? = some stripe →
      Written content plan stripe data) →
    data = contentAt content plan.tensorOffset.toNat plan.tensorLength.toNat

section TwoStripes

variable {offset length split : UInt64} {a b : RangeSource} {content : Nat → UInt8}

theorem stripes_twoStripes {i : Nat} {stripe : RangeStripe}
    (h : (twoStripes offset length split a b).stripes[i]? = some stripe) :
    (i = 0 ∧ stripe = ⟨"A", some a, offset, 0, split⟩) ∨
      (i = 1 ∧ stripe = ⟨"B", some b, offset + split, split, length - split⟩) := by
  match i, h with
  | 0, h =>
      cases h
      exact Or.inl ⟨rfl, rfl⟩
  | 1, h =>
      cases h
      exact Or.inr ⟨rfl, rfl⟩
  | _ + 2, h => cases h

/-- An accepted plan tiles its range. -/
theorem twoStripes_tiled (hsplit : split < length) (hfits : offset.toNat + length.toNat ≤ 2 ^ 64)
    (ha : a.Right content) (hb : b.Right content) :
    Tiled content (twoStripes offset length split a b) := by
  have hlt : split.toNat < length.toNat := UInt64.lt_iff_toNat_lt.1 hsplit
  have hrest : (length - split).toNat = length.toNat - split.toNat :=
    UInt64.toNat_sub_of_le _ _ (UInt64.le_of_lt hsplit)
  have hstart : (offset + split).toNat = offset.toNat + split.toNat := by
    rw [UInt64.toNat_add]
    exact Nat.mod_eq_of_lt (by omega)
  have hzero : (0 : UInt64).toNat = 0 := rfl
  constructor
  · intro i stripe hstripe
    rcases stripes_twoStripes hstripe with ⟨-, rfl⟩ | ⟨-, rfl⟩
    · show (0 : UInt64).toNat + split.toNat ≤ length.toNat
      omega
    · show split.toNat + (length - split).toNat ≤ length.toNat
      omega
  · intro i j stripe other hstripe hother hij
    rcases stripes_twoStripes hstripe with ⟨rfl, rfl⟩ | ⟨rfl, rfl⟩ <;>
      rcases stripes_twoStripes hother with ⟨rfl, rfl⟩ | ⟨rfl, rfl⟩
    · exact absurd rfl hij
    · left
      show (0 : UInt64).toNat + split.toNat ≤ split.toNat
      omega
    · right
      show (0 : UInt64).toNat + split.toNat ≤ split.toNat
      omega
    · exact absurd rfl hij
  · intro i stripe source hstripe hsource bytes result hreads hsuccess hfull
    rcases stripes_twoStripes hstripe with ⟨-, rfl⟩ | ⟨-, rfl⟩
    · cases hsource
      exact ha _ _ _ _ hreads hsuccess hfull
    · cases hsource
      have hbytes := hb _ _ _ _ hreads hsuccess hfull
      rwa [hstart] at hbytes
  · intro data hlength hwritten
    have hfirst := hwritten 0 _ rfl
    have hsecond := hwritten 1 _ rfl
    unfold Written at hfirst hsecond
    dsimp only [twoStripes] at hfirst hsecond hlength ⊢
    rw [hrest] at hsecond
    -- The buffer is the two parts one after the other.
    have hwhole : data = slice data 0 split.toNat ++
        slice data split.toNat (length.toNat - split.toNat) := by
      have happend := slice_add data 0 split.toNat (length.toNat - split.toNat)
      rw [Nat.zero_add] at happend
      rw [← happend, slice, List.drop_zero, List.take_of_length_le (by omega)]
    rw [hwhole]
    calc slice data 0 split.toNat ++ slice data split.toNat (length.toNat - split.toNat)
        = contentAt content offset.toNat split.toNat ++
            contentAt content (offset.toNat + split.toNat) (length.toNat - split.toNat) := by
          rw [← hsecond]
          exact congrArg (· ++ _) hfirst
      _ = contentAt content offset.toNat length.toNat := by
          rw [← contentAt_add]
          congr 1
          omega

end TwoStripes

namespace StripedMaterializer

/-! ### The invariant -/

section Invariant

variable (content : Nat → UInt8) (plan : RangeStripingPlan)

/-- All stripe threads have ended. -/
def AllDone (m : StripedMaterializer) : Prop :=
  ∀ i, i < plan.stripes.length → ∃ result, m.threads i = .done result

/-- The view of the tensor can be assigned. -/
def Assignable (m : StripedMaterializer) : Prop :=
  ∀ tensor ∈ m.tensor, tensor.view.dimensions.length ≤ ggmlMaxDims

/-- Before a request is accepted. -/
structure Idle (m : StripedMaterializer) : Prop where
  state : m.state = .notRequested
  inflight : m.inflightBytes = 0
  readyBytes : m.readyBytes = 0
  threads : ∀ i, m.threads i = .absent

/-- While the worker runs: a stripe whose read succeeded keeps its bytes. -/
structure Running (m : StripedMaterializer) : Prop where
  state : m.state = .inFlight
  inflight : m.inflightBytes = plan.tensorLength
  readyBytes : m.readyBytes = 0
  tensor : ∃ tensor, m.tensor = some tensor ∧ tensor.view.payloadLen = plan.tensorLength
  owner : ∃ data, m.owner = some data ∧ data.length = plan.tensorLength.toNat ∧
    ∀ (i : Nat) (stripe : RangeStripe), plan.stripes[i]? = some stripe →
      succeeded stripe (m.threads i) = true → Written content plan stripe data

/-- After the worker has published: the tensor is ready, was ready, or has failed. -/
structure Ended (m : StripedMaterializer) : Prop where
  inflight : m.inflightBytes = 0
  outcome :
    (complete plan m = true ∧ Assignable m ∧
      ((m.state = .ready ∧ m.readyBytes = plan.tensorLength ∧ ∃ ready, m.ready = some ready ∧
          m.owner = some ready.payload ∧
          ready.payload = contentAt content plan.tensorOffset.toNat plan.tensorLength.toNat) ∨
        (m.state = .released ∧ m.readyBytes = 0))) ∨
    (¬ (complete plan m = true ∧ Assignable m) ∧ m.state = .failed ∧ m.readyBytes = 0)

/-- What holds at every step. -/
structure Inv (m : StripedMaterializer) : Prop where
  idle : m.worker = .absent → Idle m
  running : m.worker ≠ .absent → m.worker ≠ .finished → Running content plan m
  done : m.worker = .joined ∨ m.worker = .finished → AllDone plan m
  ended : m.worker = .finished → Ended content plan m
  beyond : ∀ i, plan.stripes.length ≤ i → m.threads i = .absent

end Invariant

section Steps

variable {content : Nat → UInt8} {plan : RangeStripingPlan} {m m' : StripedMaterializer}

theorem inv_fresh (content : Nat → UInt8) (plan : RangeStripingPlan) : Inv content plan fresh where
  idle := fun _ => ⟨rfl, rfl, rfl, fun _ => rfl⟩
  running := fun hne _ => absurd rfl hne
  done := fun h => by rcases h with h | h <;> cases h
  ended := fun h => by cases h
  beyond := fun _ _ => rfl

/-- The state tells whether the worker runs. -/
theorem Inv.worker_of_state (h : Inv content plan m) :
    (m.state = .notRequested → m.worker = .absent) ∧ (m.state = .ready → m.worker = .finished) := by
  constructor
  · intro hstate
    by_contra hworker
    by_cases hfinished : m.worker = .finished
    · rcases (h.ended hfinished).outcome with ⟨-, -, ⟨hready, -⟩ | ⟨hreleased, -⟩⟩ | ⟨-, hfailed, -⟩
      · cases hready.symm.trans hstate
      · cases hreleased.symm.trans hstate
      · cases hfailed.symm.trans hstate
    · cases (h.running hworker hfinished).state.symm.trans hstate
  · intro hstate
    by_contra hworker
    by_cases habsent : m.worker = .absent
    · cases (h.idle habsent).state.symm.trans hstate
    · cases (h.running habsent hworker).state.symm.trans hstate

/-- While a stripe thread is active, the worker waits for it. -/
theorem Inv.active (h : Inv content plan m) {i : Nat} (habsent : m.threads i ≠ .absent)
    (hdone : ∀ result, m.threads i ≠ .done result) :
    i < plan.stripes.length ∧ m.worker ≠ .absent ∧ m.worker ≠ .joined ∧ m.worker ≠ .finished := by
  have hi : i < plan.stripes.length := by
    by_contra hbeyond
    exact habsent (h.beyond i (Nat.le_of_not_lt hbeyond))
  refine ⟨hi, ?_, ?_, ?_⟩
  · intro hworker
    exact habsent ((h.idle hworker).threads i)
  · intro hworker
    obtain ⟨result, hresult⟩ := h.done (Or.inl hworker) i hi
    exact hdone result hresult
  · intro hworker
    obtain ⟨result, hresult⟩ := h.done (Or.inr hworker) i hi
    exact hdone result hresult

/-- The same, where the thread is known. -/
theorem Inv.active_of_thread (h : Inv content plan m) {i : Nat} {thread : StripeThread}
    (hthread : m.threads i = thread) (habsent : thread ≠ .absent)
    (hdone : ∀ result, thread ≠ .done result) :
    i < plan.stripes.length ∧ m.worker ≠ .absent ∧ m.worker ≠ .joined ∧ m.worker ≠ .finished := by
  subst hthread
  exact h.active habsent hdone

/-- While the worker runs, the invariant is what it relies on. -/
theorem Inv.of_running (hrunning : Running content plan m) (hstarted : m.worker ≠ .absent)
    (hfinished : m.worker ≠ .finished) (hdone : m.worker = .joined → AllDone plan m)
    (hbeyond : ∀ i, plan.stripes.length ≤ i → m.threads i = .absent) : Inv content plan m := by
  refine ⟨fun hidle => absurd hidle hstarted, fun _ _ => hrunning, ?_,
    fun hends => absurd hends hfinished, hbeyond⟩
  intro hends
  rcases hends with hends | hends
  · exact hdone hends
  · exact absurd hends hfinished

/-- A step of an active stripe thread keeps the invariant when it keeps what the worker
relies on. -/
theorem Inv.of_thread (h : Inv content plan m) {i : Nat} {thread : StripeThread}
    (hthread : m.threads i = thread) (habsent : thread ≠ .absent)
    (hdone : ∀ result, thread ≠ .done result) (hworker : m'.worker = m.worker)
    (hthreads : ∀ j, j ≠ i → m'.threads j = m.threads j)
    (hrunning : Running content plan m → Running content plan m') : Inv content plan m' := by
  obtain ⟨hi, hstarted, hjoined, hfinished⟩ := h.active_of_thread hthread habsent hdone
  have hkept := hrunning (h.running hstarted hfinished)
  rw [← hworker] at hstarted hjoined hfinished
  refine Inv.of_running hkept hstarted hfinished (fun hends => absurd hends hjoined) ?_
  intro j hj
  rw [hthreads j (by omega)]
  exact h.beyond j hj

/-- The worker still runs when no stripe has newly succeeded and the members are kept. -/
theorem Running.of_threads (h : Running content plan m) (hstate : m'.state = m.state)
    (hinflight : m'.inflightBytes = m.inflightBytes) (hready : m'.readyBytes = m.readyBytes)
    (htensor : m'.tensor = m.tensor) (howner : m'.owner = m.owner)
    (hsucceeded : ∀ i stripe, succeeded stripe (m'.threads i) = true →
      succeeded stripe (m.threads i) = true) : Running content plan m' := by
  obtain ⟨data, hdata, hlength, hwritten⟩ := h.owner
  constructor
  · rw [hstate, h.state]
  · rw [hinflight, h.inflight]
  · rw [hready, h.readyBytes]
  · rw [htensor]
    exact h.tensor
  · refine ⟨data, howner.trans hdata, hlength, ?_⟩
    intro i stripe hstripe hsuccess
    exact hwritten i stripe hstripe (hsucceeded i stripe hsuccess)

/-- A thread that has not newly succeeded adds nothing. -/
theorem succeeded_setThread {i : Nat} {thread : StripeThread}
    (hthread : ∀ stripe, succeeded stripe thread = true → succeeded stripe (m.threads i) = true)
    (j : Nat) (stripe : RangeStripe)
    (h : succeeded stripe ((setThread i thread m).threads j) = true) :
    succeeded stripe (m.threads j) = true := by
  by_cases hij : j = i
  · subst hij
    rw [setThread_self] at h
    exact hthread stripe h
  · rwa [setThread_of_ne hij] at h

/-- A stripe thread overwrites only its own part. -/
theorem Running.overwrite (h : Running content plan m) (htiled : Tiled content plan) {i : Nat}
    {stripe : RangeStripe} {bytes : List UInt8} {thread : StripeThread}
    (hthread : m.threads i = .reading) (hstripe : plan.stripes[i]? = some stripe)
    (hbytes : bytes.length = stripe.length.toNat)
    (hright : succeeded stripe thread = true →
      bytes = contentAt content (plan.tensorOffset.toNat + stripe.destinationOffset.toNat)
        stripe.length.toNat) :
    Running content plan (setThread i thread (overwrite stripe bytes m)) := by
  obtain ⟨data, hdata, hlength, hwritten⟩ := h.owner
  have hinside := htiled.inside i stripe hstripe
  have hfits : stripe.destinationOffset.toNat + bytes.length ≤ data.length := by omega
  refine ⟨h.state, h.inflight, h.readyBytes, h.tensor, ?_⟩
  refine ⟨patch data stripe.destinationOffset.toNat bytes, ?_, ?_, ?_⟩
  · show m.owner.map _ = _
    rw [hdata]
    rfl
  · rw [patch_length hfits, hlength]
  · intro j other hother hsuccess
    by_cases hij : j = i
    · -- The bytes of this stripe have just been written.
      subst hij
      cases hstripe.symm.trans hother
      rw [setThread_self] at hsuccess
      unfold Written
      rw [← hbytes, slice_patch_self (by omega), hright hsuccess, contentAt_length]
    · -- Another stripe that has succeeded keeps its bytes.
      rw [setThread_of_ne hij] at hsuccess
      have hkept := hwritten j other hother hsuccess
      unfold Written at hkept ⊢
      rw [slice_patch_disjoint hfits, hkept]
      rcases htiled.apart j i other stripe hother hstripe hij with hbefore | hbehind
      · exact Or.inl hbefore
      · right
        rwa [hbytes]

/-- An accepted request finds the state before any request, and starts the worker. -/
theorem request_cases (plan : RangeStripingPlan) (tensorRef : UInt32)
    (tensor : PersistentTensorRef) (byteBudget : UInt64) (memory : Option (List UInt8))
    (m : StripedMaterializer) :
    (request plan tensorRef tensor byteBudget memory m).2 = m ∨
      ∃ bytes, memory = some bytes ∧ m.state = .notRequested ∧
        tensor.view.payloadLen = plan.tensorLength ∧
        (request plan tensorRef tensor byteBudget memory m).2 =
          { m with
            tensorRef
            tensor := some tensor
            state := .inFlight
            owner := some bytes
            inflightBytes := tensor.view.payloadLen
            worker := .spawning 0 } := by
  unfold request
  split
  · exact Or.inl rfl
  next haccepted =>
    rw [not_or, not_or, not_or, not_not, not_not, not_not] at haccepted
    split
    · exact Or.inl rfl
    · cases memory with
      | none => exact Or.inl rfl
      | some bytes => exact Or.inr ⟨bytes, rfl, haccepted.1, haccepted.2.2.2, rfl⟩

/-- A request keeps the invariant. -/
theorem inv_request (h : Inv content plan m) {tensorRef : UInt32} {tensor : PersistentTensorRef}
    {byteBudget : UInt64} {memory : Option (List UInt8)}
    (hmemory : ∀ bytes ∈ memory, bytes.length = tensor.view.payloadLen.toNat) :
    Inv content plan (request plan tensorRef tensor byteBudget memory m).2 := by
  rcases request_cases plan tensorRef tensor byteBudget memory m with
    hsame | ⟨bytes, hbytes, hstate, hlen, hnew⟩
  · rw [hsame]
    exact h
  rw [hnew]
  obtain ⟨-, -, hready, habsent⟩ := h.idle (h.worker_of_state.1 hstate)
  refine Inv.of_running ?_ WorkerThread.noConfusion WorkerThread.noConfusion
    (fun hjoined => WorkerThread.noConfusion hjoined) fun i _ => habsent i
  refine ⟨rfl, hlen, hready, ⟨tensor, rfl, hlen⟩, bytes, rfl, ?_, ?_⟩
  · rw [hmemory bytes hbytes, hlen]
  · intro i stripe _ hsuccess
    dsimp only at hsuccess
    rw [habsent i] at hsuccess
    cases hsuccess

/-- A release keeps the invariant. -/
theorem inv_release (h : Inv content plan m) (tensorRef : UInt32) :
    Inv content plan (release tensorRef m) := by
  unfold release
  split
  · exact h
  next haccepted =>
    rw [not_or, not_not, not_not] at haccepted
    have hworker := h.worker_of_state.2 haccepted.2
    have hended := h.ended hworker
    constructor
    · intro hidle
      cases hworker.symm.trans hidle
    · intro _ hrunning
      exact absurd hworker hrunning
    · intro _
      exact h.done (Or.inr hworker)
    · intro _
      refine ⟨hended.inflight, ?_⟩
      rcases hended.outcome with ⟨hcomplete, hassign, -⟩ | ⟨-, hfailed, -⟩
      · exact Or.inl ⟨hcomplete, hassign, Or.inr ⟨rfl, rfl⟩⟩
      · cases hfailed.symm.trans haccepted.2
    · exact h.beyond

/-- All stripe threads have succeeded when the read is complete. -/
theorem complete_iff : complete plan m = true ↔
    ∀ (i : Nat) (stripe : RangeStripe), plan.stripes[i]? = some stripe →
      succeeded stripe (m.threads i) = true := by
  unfold complete
  rw [List.all_eq_true]
  constructor
  · intro hall i stripe hstripe
    exact hall (stripe, i) (List.mem_zipIdx_iff_getElem?.2 hstripe)
  · intro hall item hitem
    exact hall item.2 item.1 (List.mem_zipIdx_iff_getElem?.1 hitem)

/-- The view is assigned when it has no more dimensions than a tensor may have. -/
theorem assignView_eq_some {view : TensorView} {payload : List UInt8} {t : MaterializedTensor}
    (h : MaterializedTensor.assignView view payload = some t) :
    view.dimensions.length ≤ ggmlMaxDims ∧ t.payload = payload := by
  unfold MaterializedTensor.assignView at h
  split at h
  · cases h
  next hdims =>
    cases h
    exact ⟨Nat.le_of_not_lt hdims, rfl⟩

/-- What the worker publishes. -/
theorem inv_publish (h : Inv content plan m) (htiled : Tiled content plan)
    (hworker : m.worker = .joined) : Inv content plan (publish plan m) := by
  have hrunning : Running content plan m := by
    refine h.running ?_ ?_
    · rw [hworker]
      exact WorkerThread.noConfusion
    · rw [hworker]
      exact WorkerThread.noConfusion
  obtain ⟨tensor, htensor, hlen⟩ := hrunning.tensor
  obtain ⟨data, hdata, hlength, hwritten⟩ := hrunning.owner
  have hdone := h.done (Or.inl hworker)
  -- The failures are one case.
  have hfailed : ¬ (complete plan m = true ∧ Assignable m) →
      Inv content plan { m with
        inflightBytes := 0, owner := none, state := .failed, worker := .finished } := by
    intro hnot
    refine ⟨?_, ?_, fun _ => hdone, fun _ => ⟨rfl, Or.inr ⟨hnot, rfl, hrunning.readyBytes⟩⟩,
      h.beyond⟩
    · intro hidle
      cases hidle
    · intro _ hne
      exact absurd rfl hne
  unfold publish
  dsimp only
  split
  next hincomplete =>
    refine hfailed fun hboth => ?_
    rw [hincomplete] at hboth
    cases hboth.1
  next hcomplete =>
    rw [Bool.not_eq_false] at hcomplete
    split
    next other bytes hother hbytes =>
      cases htensor.symm.trans hother
      cases hdata.symm.trans hbytes
      split
      next hview =>
        refine hfailed fun hboth => ?_
        have hdims := hboth.2 tensor htensor
        unfold MaterializedTensor.assignView at hview
        rw [if_neg (Nat.not_lt.2 hdims)] at hview
        cases hview
      next ready hview =>
        obtain ⟨hdims, hpayload⟩ := assignView_eq_some hview
        have hassign : Assignable m := by
          intro other hother
          cases htensor.symm.trans hother
          exact hdims
        have hcontent := htiled.covers data hlength fun i stripe hstripe =>
          hwritten i stripe hstripe (complete_iff.1 hcomplete i stripe hstripe)
        have hbytes : UInt64.ofNat data.length = plan.tensorLength := by
          rw [hlength, UInt64.ofNat_toNat]
        refine ⟨?_, ?_, fun _ => hdone, fun _ => ⟨rfl, Or.inl ⟨hcomplete, hassign, Or.inl ⟨rfl,
          hbytes, ready, rfl, ?_, ?_⟩⟩⟩, h.beyond⟩
        · intro hidle
          cases hidle
        · intro _ hne
          exact absurd rfl hne
        · rw [hpayload]
          exact hdata
        · rw [hpayload, hcontent]
    next hnone =>
      exact absurd hdata (hnone tensor data htensor)

/-- The worker runs in each place but the first and the last. -/
theorem Inv.running_of_worker (h : Inv content plan m) {worker : WorkerThread}
    (hworker : m.worker = worker) (hstarted : worker ≠ .absent) (hfinished : worker ≠ .finished) :
    Running content plan m := by
  subst hworker
  exact h.running hstarted hfinished

/-- Every step keeps the invariant. -/
theorem inv_step (htiled : Tiled content plan) (h : Inv content plan m) (hstep : Step plan m m') :
    Inv content plan m' := by
  cases hstep with
  | request tensorRef tensor byteBudget memory hmemory => exact inv_request h hmemory
  | release tensorRef => exact inv_release h tensorRef
  -- The steps of the worker write nothing and leave the stripe threads where they are.
  | @spawn i hworker hi =>
      have hrunning := h.running_of_worker hworker WorkerThread.noConfusion WorkerThread.noConfusion
      refine Inv.of_running ?_ WorkerThread.noConfusion WorkerThread.noConfusion
        (fun hjoined => WorkerThread.noConfusion hjoined) ?_
      · refine hrunning.of_threads rfl rfl rfl rfl rfl (succeeded_setThread ?_)
        intro stripe hsuccess
        cases hsuccess
      · intro j hj
        show (setThread i .starting m).threads j = .absent
        rw [setThread_of_ne (by omega)]
        exact h.beyond j hj
  | gather hworker =>
      have hrunning := h.running_of_worker hworker WorkerThread.noConfusion WorkerThread.noConfusion
      exact Inv.of_running (hrunning.of_threads rfl rfl rfl rfl rfl fun _ _ hsuccess => hsuccess)
        WorkerThread.noConfusion WorkerThread.noConfusion
        (fun hjoined => WorkerThread.noConfusion hjoined) h.beyond
  | start hworker hready =>
      have hrunning := h.running_of_worker hworker WorkerThread.noConfusion WorkerThread.noConfusion
      exact Inv.of_running (hrunning.of_threads rfl rfl rfl rfl rfl fun _ _ hsuccess => hsuccess)
        WorkerThread.noConfusion WorkerThread.noConfusion
        (fun hjoined => WorkerThread.noConfusion hjoined) h.beyond
  | join hworker hdone =>
      have hrunning := h.running_of_worker hworker WorkerThread.noConfusion WorkerThread.noConfusion
      exact Inv.of_running (hrunning.of_threads rfl rfl rfl rfl rfl fun _ _ hsuccess => hsuccess)
        WorkerThread.noConfusion WorkerThread.noConfusion (fun _ => hdone) h.beyond
  -- The steps of a stripe thread: it succeeds only where its read ends, with the bytes in place.
  | @arrive i hthread =>
      refine h.of_thread hthread StripeThread.noConfusion (fun _ => StripeThread.noConfusion) rfl
        (fun j hj => setThread_of_ne hj _ m) fun hrunning =>
          hrunning.of_threads rfl rfl rfl rfl rfl (succeeded_setThread ?_)
      intro stripe hsuccess
      cases hsuccess
  | @begin i hthread hgo =>
      refine h.of_thread hthread StripeThread.noConfusion (fun _ => StripeThread.noConfusion) rfl
        (fun j hj => setThread_of_ne hj _ m) fun hrunning =>
          hrunning.of_threads rfl rfl rfl rfl rfl (succeeded_setThread ?_)
      intro stripe hsuccess
      cases hsuccess
  | @record i result hthread =>
      refine h.of_thread hthread StripeThread.noConfusion (fun _ => StripeThread.noConfusion) rfl
        (fun j hj => setThread_of_ne hj _ m) fun hrunning =>
          hrunning.of_threads rfl rfl rfl rfl rfl (succeeded_setThread ?_)
      intro stripe hsuccess
      rw [hthread]
      exact hsuccess
  | @write i stripe bytes hthread hstripe hbytes =>
      refine h.of_thread hthread StripeThread.noConfusion (fun _ => StripeThread.noConfusion) rfl
        (fun j _ => rfl) fun hrunning => ?_
      have hkept : Running content plan (setThread i .reading (overwrite stripe bytes m)) :=
        hrunning.overwrite htiled hthread hstripe hbytes fun hsuccess => Bool.noConfusion hsuccess
      -- The thread stays where it is.
      have hsame : setThread i .reading (overwrite stripe bytes m) = overwrite stripe bytes m := by
        rw [setThread, ← hthread]
        show { overwrite stripe bytes m with
          threads := Function.update m.threads i (m.threads i) } = _
        rw [Function.update_eq_self]
        rfl
      rwa [hsame] at hkept
  | @finish i stripe source bytes result hthread hstripe hsource hreads hbytes =>
      refine h.of_thread hthread StripeThread.noConfusion (fun _ => StripeThread.noConfusion) rfl
        (fun j hj => setThread_of_ne hj _ _) fun hrunning => ?_
      refine hrunning.overwrite htiled hthread hstripe hbytes ?_
      intro hsuccess
      simp only [succeeded, Bool.and_eq_true, beq_iff_eq] at hsuccess
      exact htiled.right i stripe source hstripe hsource bytes result hreads hsuccess.1 hsuccess.2
  | publish hworker => exact inv_publish h htiled hworker

/-- And every run. -/
theorem inv_steps (htiled : Tiled content plan) (hsteps : Steps plan fresh m) :
    Inv content plan m := by
  induction hsteps with
  | refl => exact inv_fresh content plan
  | tail _ hstep ih => exact inv_step htiled ih hstep

end Steps

end StripedMaterializer

end VBuf.Ggml
