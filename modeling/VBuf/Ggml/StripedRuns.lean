import Mathlib.Algebra.Order.BigOperators.Group.Finset
import VBuf.Ggml.StripedSafety

/-!
# Runs of the striped materializer

Every run keeps what one read of the range would give, and from every state in which the
worker runs it can come to its end: the worker never waits for a thread that cannot move.
-/

namespace VBuf.Ggml

open VBuf.Lib

namespace StripedMaterializer

/-! ### The worker comes to its end -/

/-- Whether a stripe thread has counted itself in `ready_workers`. -/
def arrived : StripeThread → Nat
  | .absent | .starting => 0
  | _ => 1

/-- The steps that a stripe thread still has to make. -/
def threadRemaining : StripeThread → Nat
  | .absent => 5
  | .starting => 4
  | .spinning => 3
  | .reading => 2
  | .stored _ => 1
  | .done _ => 0

/-- The places that the worker still has to pass. -/
def workerRemaining : WorkerThread → Nat
  | .absent => 5
  | .spawning _ => 4
  | .gathering => 3
  | .joining => 2
  | .joined => 1
  | .finished => 0

/-- The steps that are left, without the overwriting of the buffer. -/
def remaining (plan : RangeStripingPlan) (m : StripedMaterializer) : Nat :=
  workerRemaining m.worker +
    ∑ i ∈ Finset.range plan.stripes.length, threadRemaining (m.threads i)

/-- What the worker and the stripe threads owe each other. -/
structure Live (plan : RangeStripingPlan) (m : StripedMaterializer) : Prop where
  counted : m.readyWorkers = ∑ i ∈ Finset.range plan.stripes.length, arrived (m.threads i)
  spawned : ∀ k, m.worker = .spawning k →
    k ≤ plan.stripes.length ∧ ∀ i, k ≤ i → m.threads i = .absent
  present : ∀ i, i < plan.stripes.length → m.threads i = .absent →
    m.worker = .absent ∨ ∃ k, m.worker = .spawning k ∧ k ≤ i
  going : m.worker = .joining → m.go = true

section Live

variable {content : Nat → UInt8} {plan : RangeStripingPlan} {m m' : StripedMaterializer}

/-- The thread of a stripe counts once in a sum over all of them. -/
theorem sum_setThread (f : StripeThread → Nat) (m : StripedMaterializer) (thread : StripeThread)
    {i : Nat} (hi : i < plan.stripes.length) :
    ∑ j ∈ Finset.range plan.stripes.length, f ((setThread i thread m).threads j) + f (m.threads i) =
      ∑ j ∈ Finset.range plan.stripes.length, f (m.threads j) + f thread := by
  have hmem : i ∈ Finset.range plan.stripes.length := Finset.mem_range.2 hi
  have hrest : ∑ j ∈ (Finset.range plan.stripes.length).erase i,
      f ((setThread i thread m).threads j) =
      ∑ j ∈ (Finset.range plan.stripes.length).erase i, f (m.threads j) := by
    refine Finset.sum_congr rfl fun j hj => ?_
    rw [setThread_of_ne (Finset.ne_of_mem_erase hj)]
  rw [← Finset.sum_erase_add _ _ hmem, ← Finset.sum_erase_add _ (fun j => f (m.threads j)) hmem,
    hrest, setThread_self]
  omega

theorem live_fresh (plan : RangeStripingPlan) : Live plan fresh where
  counted := (Finset.sum_eq_zero fun _ _ => rfl).symm
  spawned := fun _ hworker => WorkerThread.noConfusion hworker
  present := fun _ _ _ => Or.inl rfl
  going := fun hworker => WorkerThread.noConfusion hworker

/-- A stripe thread that is there moves on. -/
theorem Live.of_thread (h : Live plan m) {i : Nat} {thread : StripeThread}
    (hi : i < plan.stripes.length) (habsent : m.threads i ≠ .absent) (hthread : thread ≠ .absent)
    (hworker : m'.worker = m.worker) (hgo : m'.go = m.go)
    (hthreads : m'.threads = (setThread i thread m).threads)
    (hcounted : m'.readyWorkers + arrived (m.threads i) = m.readyWorkers + arrived thread) :
    Live plan m' := by
  have hkept : ∀ j, m'.threads j = .absent ↔ m.threads j = .absent := by
    intro j
    rw [hthreads]
    by_cases hij : j = i
    · subst hij
      rw [setThread_self]
      exact iff_of_false hthread habsent
    · rw [setThread_of_ne hij]
  constructor
  · have hsum := sum_setThread arrived m thread hi
    rw [hthreads]
    have := h.counted
    omega
  · intro k hk
    rw [hworker] at hk
    refine ⟨(h.spawned k hk).1, fun j hj => (hkept j).2 ((h.spawned k hk).2 j hj)⟩
  · intro j hj hjabsent
    rw [hworker]
    exact h.present j hj ((hkept j).1 hjabsent)
  · intro hjoining
    rw [hworker] at hjoining
    rw [hgo]
    exact h.going hjoining

/-- The same for a thread that the worker waits for. -/
theorem Live.of_active (h : Live plan m) (hinv : Inv content plan m) {i : Nat}
    {old thread : StripeThread} (hold : m.threads i = old) (habsent : old ≠ .absent)
    (hdone : ∀ result, old ≠ .done result) (hthread : thread ≠ .absent)
    (hworker : m'.worker = m.worker) (hgo : m'.go = m.go)
    (hthreads : m'.threads = (setThread i thread m).threads)
    (hcounted : m'.readyWorkers + arrived old = m.readyWorkers + arrived thread) :
    Live plan m' := by
  have hi := (hinv.active_of_thread hold habsent hdone).1
  subst hold
  exact h.of_thread hi habsent hthread hworker hgo hthreads hcounted

/-- The worker moves on when all threads are there. -/
theorem Live.of_worker (h : Live plan m) (hpresent : ∀ i, i < plan.stripes.length →
    m.threads i ≠ .absent) (hthreads : m'.threads = m.threads)
    (hcounted : m'.readyWorkers = m.readyWorkers) (hspawned : ∀ k, m'.worker ≠ .spawning k)
    (hgo : m'.worker = .joining → m'.go = true) : Live plan m' := by
  constructor
  · rw [hcounted, hthreads, h.counted]
  · intro k hk
    exact absurd hk (hspawned k)
  · intro i hi habsent
    rw [hthreads] at habsent
    exact absurd habsent (hpresent i hi)
  · exact hgo

/-- All threads are there once the worker has started them. -/
theorem Live.all_present (h : Live plan m) (hworker : m.worker ≠ .absent)
    (hspawned : ∀ k, m.worker = .spawning k → plan.stripes.length ≤ k) :
    ∀ i, i < plan.stripes.length → m.threads i ≠ .absent := by
  intro i hi habsent
  rcases h.present i hi habsent with hnone | ⟨k, hk, hki⟩
  · exact hworker hnone
  · have := hspawned k hk
    omega

theorem Live.present_of_worker (h : Live plan m) {worker : WorkerThread}
    (hworker : m.worker = worker) (habsent : worker ≠ .absent)
    (hspawned : ∀ k, worker = .spawning k → plan.stripes.length ≤ k) :
    ∀ i, i < plan.stripes.length → m.threads i ≠ .absent := by
  subst hworker
  exact h.all_present habsent hspawned

theorem publish_kept (plan : RangeStripingPlan) (m : StripedMaterializer) :
    (publish plan m).worker = .finished ∧ (publish plan m).threads = m.threads ∧
      (publish plan m).readyWorkers = m.readyWorkers ∧ (publish plan m).tensor = m.tensor ∧
      (publish plan m).state ≠ .released := by
  unfold publish
  dsimp only
  split
  · exact ⟨rfl, rfl, rfl, rfl, MaterializationState.noConfusion⟩
  · split
    · split <;> exact ⟨rfl, rfl, rfl, rfl, MaterializationState.noConfusion⟩
    · exact ⟨rfl, rfl, rfl, rfl, MaterializationState.noConfusion⟩

/-- Every step keeps what the threads owe each other. -/
theorem live_step (hinv : Inv content plan m) (h : Live plan m) (hstep : Step plan m m') :
    Live plan m' := by
  cases hstep with
  | request tensorRef tensor byteBudget memory _ =>
      rcases request_cases plan tensorRef tensor byteBudget memory m with
        hsame | ⟨bytes, -, hstate, -, hnew⟩
      · rwa [hsame]
      -- No thread is there before the request, and the worker is to start all of them.
      rw [hnew]
      have habsent := (hinv.idle (hinv.worker_of_state.1 hstate)).threads
      refine ⟨h.counted, ?_, ?_, WorkerThread.noConfusion⟩
      · intro k hk
        cases hk
        exact ⟨Nat.zero_le _, fun i _ => habsent i⟩
      · intro i _ _
        exact Or.inr ⟨0, rfl, Nat.zero_le i⟩
  | release tensorRef =>
      unfold release
      split
      · exact h
      · exact ⟨h.counted, h.spawned, h.present, h.going⟩
  | @spawn i hworker hi =>
      obtain ⟨-, habsent⟩ := h.spawned i hworker
      constructor
      · have hsum := sum_setThread arrived m .starting hi
        rw [habsent i (Nat.le_refl i)] at hsum
        exact h.counted.trans (Nat.add_right_cancel hsum).symm
      · intro k hk
        cases hk
        refine ⟨hi, fun j hj => ?_⟩
        show (setThread i .starting m).threads j = .absent
        rw [setThread_of_ne (by omega)]
        exact habsent j (by omega)
      · intro j hj hjabsent
        refine Or.inr ⟨i + 1, rfl, ?_⟩
        by_contra hlt
        rcases Nat.lt_or_ge j i with hji | hij
        · -- A thread that was started before is still there.
          have hkept : m.threads j = .absent := by
            rwa [← setThread_of_ne (by omega : j ≠ i) .starting m]
          rcases h.present j hj hkept with hnone | ⟨k, hk, hkj⟩
          · cases hworker.symm.trans hnone
          · cases hworker.symm.trans hk
            omega
        · obtain rfl : j = i := by omega
          have hself : (setThread j .starting m).threads j = .absent := hjabsent
          rw [setThread_self] at hself
          cases hself
      · exact WorkerThread.noConfusion
  | gather hworker =>
      refine h.of_worker (h.present_of_worker hworker WorkerThread.noConfusion ?_) rfl rfl
        (fun _ => WorkerThread.noConfusion) WorkerThread.noConfusion
      intro k hk
      cases hk
      exact Nat.le_refl _
  | start hworker _ =>
      refine h.of_worker (h.present_of_worker hworker WorkerThread.noConfusion ?_) rfl rfl
        (fun _ => WorkerThread.noConfusion) fun _ => rfl
      exact fun _ => WorkerThread.noConfusion
  | join hworker _ =>
      refine h.of_worker (h.present_of_worker hworker WorkerThread.noConfusion ?_) rfl rfl
        (fun _ => WorkerThread.noConfusion) WorkerThread.noConfusion
      exact fun _ => WorkerThread.noConfusion
  | publish hworker =>
      obtain ⟨hfinished, hthreads, hcounted, -⟩ := publish_kept plan m
      refine h.of_worker (h.present_of_worker hworker WorkerThread.noConfusion ?_) hthreads hcounted
        (fun k hk => ?_) fun hk => ?_
      · exact fun _ => WorkerThread.noConfusion
      · cases hfinished.symm.trans hk
      · cases hfinished.symm.trans hk
  | arrive hthread =>
      exact h.of_active hinv hthread StripeThread.noConfusion (fun _ => StripeThread.noConfusion)
        StripeThread.noConfusion rfl rfl rfl rfl
  | begin hthread _ =>
      exact h.of_active hinv hthread StripeThread.noConfusion (fun _ => StripeThread.noConfusion)
        StripeThread.noConfusion rfl rfl rfl rfl
  | write _ _ _ => exact ⟨h.counted, h.spawned, h.present, h.going⟩
  | @finish i _ _ _ result hthread _ _ _ _ =>
      exact @Live.of_active _ _ _ _ h hinv i _ (.stored result) hthread StripeThread.noConfusion
        (fun _ => StripeThread.noConfusion) StripeThread.noConfusion rfl rfl rfl rfl
  | record hthread =>
      exact h.of_active hinv hthread StripeThread.noConfusion (fun _ => StripeThread.noConfusion)
        StripeThread.noConfusion rfl rfl rfl rfl

/-- A thread that moves on has less left to do. -/
theorem remaining_setThread_lt (m : StripedMaterializer) (thread : StripeThread) {i : Nat}
    (hi : i < plan.stripes.length)
    (hthread : threadRemaining thread < threadRemaining (m.threads i)) :
    ∑ j ∈ Finset.range plan.stripes.length, threadRemaining ((setThread i thread m).threads j) <
      ∑ j ∈ Finset.range plan.stripes.length, threadRemaining (m.threads j) := by
  have hsum := sum_setThread threadRemaining m thread hi
  omega

/-- While the worker runs, it or a stripe thread can do what is left. -/
theorem exists_step (hreturns : ∀ (i : Nat) (stripe : RangeStripe), plan.stripes[i]? = some stripe →
      ∃ source, stripe.source = some source ∧ source.Returns)
    (h : Live plan m) (hstarted : m.worker ≠ .absent) (hfinished : m.worker ≠ .finished) :
    ∃ m', Step plan m m' ∧ m'.worker ≠ .absent ∧ remaining plan m' < remaining plan m := by
  cases hworker : m.worker with
  | absent => exact absurd hworker hstarted
  | finished => exact absurd hworker hfinished
  | spawning k =>
      obtain ⟨hk, habsent⟩ := h.spawned k hworker
      rcases Nat.lt_or_eq_of_le hk with hlt | rfl
      · refine ⟨_, .spawn hworker hlt, WorkerThread.noConfusion, ?_⟩
        have hless := remaining_setThread_lt m .starting hlt (by
          rw [habsent k (Nat.le_refl k)]
          decide)
        unfold remaining
        rw [hworker]
        exact Nat.add_lt_add_left hless 4
      · refine ⟨_, .gather hworker, WorkerThread.noConfusion, ?_⟩
        unfold remaining
        rw [hworker]
        exact Nat.add_lt_add_right (Nat.lt_succ_self 3) _
  | gathering =>
      have hpresent := h.all_present hstarted fun k hk => by cases hworker.symm.trans hk
      by_cases hall : ∀ i ∈ Finset.range plan.stripes.length, arrived (m.threads i) = 1
      · -- All have arrived: the worker lets them go.
        have hready : m.readyWorkers = plan.stripes.length := by
          rw [h.counted, Finset.sum_const_nat hall, Finset.card_range, Nat.mul_one]
        refine ⟨_, .start hworker hready, WorkerThread.noConfusion, ?_⟩
        unfold remaining
        rw [hworker]
        exact Nat.add_lt_add_right (Nat.lt_succ_self 2) _
      · -- One is still to arrive.
        push Not at hall
        obtain ⟨i, hi, hnot⟩ := hall
        rw [Finset.mem_range] at hi
        cases hthread : m.threads i with
        | absent => exact absurd hthread (hpresent i hi)
        | starting =>
            refine ⟨_, .arrive hthread, hstarted, ?_⟩
            refine Nat.add_lt_add_left (remaining_setThread_lt m _ hi ?_) _
            rw [hthread]
            decide
        | spinning => exact absurd (by rw [hthread]; rfl) hnot
        | reading => exact absurd (by rw [hthread]; rfl) hnot
        | stored _ => exact absurd (by rw [hthread]; rfl) hnot
        | done _ => exact absurd (by rw [hthread]; rfl) hnot
  | joining =>
      have hpresent := h.all_present hstarted fun k hk => by cases hworker.symm.trans hk
      by_cases hall : AllDone plan m
      · refine ⟨_, .join hworker hall, WorkerThread.noConfusion, ?_⟩
        unfold remaining
        rw [hworker]
        exact Nat.add_lt_add_right (Nat.lt_succ_self 1) _
      · -- The worker waits for a thread that can move on.
        unfold AllDone at hall
        push Not at hall
        obtain ⟨i, hi, hnot⟩ := hall
        cases hthread : m.threads i with
        | absent => exact absurd hthread (hpresent i hi)
        | starting =>
            refine ⟨_, .arrive hthread, hstarted, ?_⟩
            refine Nat.add_lt_add_left (remaining_setThread_lt m _ hi ?_) _
            rw [hthread]
            decide
        | spinning =>
            refine ⟨_, .begin hthread (h.going hworker), hstarted, ?_⟩
            refine Nat.add_lt_add_left (remaining_setThread_lt m _ hi ?_) _
            rw [hthread]
            decide
        | reading =>
            have hstripe := List.getElem?_eq_getElem hi
            obtain ⟨source, hsource, hreturn⟩ := hreturns i _ hstripe
            obtain ⟨bytes, result, hbytes, hreads⟩ := hreturn plan.stripes[i].sourceOffset
              plan.stripes[i].length
            refine ⟨_, .finish hthread hstripe hsource hreads hbytes, hstarted, ?_⟩
            refine Nat.add_lt_add_left (remaining_setThread_lt (overwrite _ bytes m) _ hi ?_) _
            show 1 < threadRemaining (m.threads i)
            rw [hthread]
            decide
        | stored result =>
            refine ⟨_, .record hthread, hstarted, ?_⟩
            refine Nat.add_lt_add_left (remaining_setThread_lt m _ hi ?_) _
            rw [hthread]
            exact Nat.zero_lt_one
        | done result => exact absurd hthread (hnot result)
  | joined =>
      obtain ⟨hend, hthreads, -⟩ := publish_kept plan m
      refine ⟨_, .publish hworker, ?_, ?_⟩
      · rw [hend]
        exact WorkerThread.noConfusion
      · unfold remaining
        rw [hend, hthreads, hworker]
        exact Nat.add_lt_add_right (Nat.lt_succ_self 0) _

/-- So the worker can come to its end. -/
theorem exists_finished (htiled : Tiled content plan)
    (hreturns : ∀ (i : Nat) (stripe : RangeStripe), plan.stripes[i]? = some stripe →
      ∃ source, stripe.source = some source ∧ source.Returns)
    (hinv : Inv content plan m) (h : Live plan m) (hstarted : m.worker ≠ .absent) :
    ∃ m', Steps plan m m' ∧ m'.worker = .finished := by
  -- By induction on the steps that are left.
  induction hleft : remaining plan m using Nat.strong_induction_on generalizing m with
  | _ left ih =>
      by_cases hfinished : m.worker = .finished
      · exact ⟨m, .refl, hfinished⟩
      obtain ⟨next, hstep, hnext, hless⟩ := exists_step hreturns h hstarted hfinished
      obtain ⟨m', hsteps, hend⟩ := ih _ (hleft ▸ hless) (inv_step htiled hinv hstep)
        (live_step hinv h hstep) hnext rfl
      exact ⟨m', .head hstep hsteps, hend⟩

/-- Every run keeps both invariants. -/
theorem live_steps (htiled : Tiled content plan) (hsteps : Steps plan fresh m) :
    Live plan m := by
  induction hsteps with
  | refl => exact live_fresh plan
  | tail hbefore hstep ih => exact live_step (inv_steps htiled hbefore) ih hstep

end Live

/-! ### One read -/

section OneRead

variable {content : Nat → UInt8} {plan : RangeStripingPlan} {m : StripedMaterializer}

/-- Both stripe reads have succeeded with their full length. -/
def BothRead (plan : RangeStripingPlan) (m : StripedMaterializer) : Prop :=
  ∀ (i : Nat) (stripe : RangeStripe), plan.stripes[i]? = some stripe →
    ∃ result, m.threads i = .done result ∧ result.success = true ∧
      result.returnedBytes = stripe.length

/-- The sources of the stripes are there, and their reads return. -/
def ReadsReturn (plan : RangeStripingPlan) : Prop :=
  ∀ (i : Nat) (stripe : RangeStripe), plan.stripes[i]? = some stripe →
    ∃ source, stripe.source = some source ∧ source.Returns

/-- Once the stripe threads have ended, `complete` tells whether both reads succeeded. -/
theorem complete_iff_bothRead (hdone : AllDone plan m) :
    complete plan m = true ↔ BothRead plan m := by
  rw [complete_iff]
  constructor
  · intro hall i stripe hstripe
    obtain ⟨hi, -⟩ := List.getElem?_eq_some_iff.1 hstripe
    obtain ⟨result, hresult⟩ := hdone i hi
    have hsuccess := hall i stripe hstripe
    rw [hresult] at hsuccess
    simp only [succeeded, Bool.and_eq_true, beq_iff_eq] at hsuccess
    exact ⟨result, hresult, hsuccess⟩
  · intro hboth i stripe hstripe
    obtain ⟨result, hresult, hsuccess, hfull⟩ := hboth i stripe hstripe
    rw [hresult]
    simp [succeeded, hsuccess, hfull]

/-- The request is as one read of the whole range. -/
structure AsOneRead (content : Nat → UInt8) (offset length : UInt64) (plan : RangeStripingPlan)
    (m : StripedMaterializer) : Prop where
  ends : ReadsReturn plan → m.worker ≠ .absent → ∃ m', Steps plan m m' ∧ m'.worker = .finished
  published : m.worker = .joined →
    ((publish plan m).state = .ready ↔ BothRead plan m ∧ Assignable m)
  outcome : m.worker = .finished →
    (BothRead plan m ∧ Assignable m ∧ (m.state = .ready ∨ m.state = .released)) ∨
      (¬ (BothRead plan m ∧ Assignable m) ∧ m.state = .failed)
  payload : ∀ tensorRef, stateOf tensorRef m = .ready → ∃ t,
    obtainReadyTensor tensorRef m = some t ∧
      t.payload = contentAt content offset.toNat length.toNat
  visible : ∀ tensorRef t, obtainReadyTensor tensorRef m = some t →
    stateOf tensorRef m = .ready ∧ BothRead plan m ∧ ∃ data, m.owner = some data ∧
      ∀ (i : Nat) (stripe : RangeStripe), plan.stripes[i]? = some stripe →
        Written content plan stripe data
  held : m.inflightBytes + m.readyBytes =
    if m.state = .inFlight ∨ m.state = .ready then length else 0

/-- What is held is the length while the tensor is in flight or ready. -/
theorem Inv.held (h : Inv content plan m) : m.inflightBytes + m.readyBytes =
    if m.state = .inFlight ∨ m.state = .ready then plan.tensorLength else 0 := by
  by_cases habsent : m.worker = .absent
  · obtain ⟨hstate, hinflight, hready, -⟩ := h.idle habsent
    rw [hinflight, hready, hstate]
    rfl
  by_cases hfinished : m.worker = .finished
  · obtain ⟨hinflight, houtcome⟩ := h.ended hfinished
    rw [hinflight, UInt64.zero_add]
    rcases houtcome with ⟨-, -, ⟨hstate, hready, -⟩ | ⟨hstate, hready⟩⟩ | ⟨-, hstate, hready⟩
    all_goals
      rw [hready, hstate]
      rfl
  · have hrunning := h.running habsent hfinished
    rw [hrunning.inflight, hrunning.readyBytes, hrunning.state, UInt64.add_zero]
    rfl

/-- A ready tensor is what the buffer holds. -/
theorem Inv.ready (h : Inv content plan m) (hstate : m.state = .ready) :
    BothRead plan m ∧ ∃ ready, m.ready = some ready ∧ m.owner = some ready.payload ∧
      ready.payload = contentAt content plan.tensorOffset.toNat plan.tensorLength.toNat := by
  have hworker := h.worker_of_state.2 hstate
  have hdone := h.done (Or.inr hworker)
  rcases (h.ended hworker).outcome with ⟨hcomplete, -, hready | hreleased⟩ | ⟨-, hfailed, -⟩
  · exact ⟨(complete_iff_bothRead hdone).1 hcomplete, hready.2.2⟩
  · cases hreleased.1.symm.trans hstate
  · cases hfailed.symm.trans hstate

theorem obtainReadyTensor_of_ready {tensorRef : UInt32} (h : stateOf tensorRef m = .ready) :
    m.state = .ready ∧ obtainReadyTensor tensorRef m = m.ready := by
  unfold stateOf at h
  split at h
  next href =>
    refine ⟨h, ?_⟩
    rw [obtainReadyTensor, if_neg (not_or.2 ⟨not_not.2 href, not_not.2 h⟩)]
  · cases h

theorem stateOf_of_obtainReadyTensor {tensorRef : UInt32} {t : MaterializedTensor}
    (h : obtainReadyTensor tensorRef m = some t) : stateOf tensorRef m = .ready := by
  unfold obtainReadyTensor at h
  split at h
  · cases h
  next hready =>
    rw [not_or, not_not, not_not] at hready
    rw [stateOf, if_pos hready.1, hready.2]

/-- A part of the content holds the bytes of the source. -/
theorem written_contentAt {stripe : RangeStripe}
    (hinside : stripe.destinationOffset.toNat + stripe.length.toNat ≤ plan.tensorLength.toNat) :
    Written content plan stripe
      (contentAt content plan.tensorOffset.toNat plan.tensorLength.toNat) := by
  unfold Written
  refine List.ext_getElem? fun i => ?_
  rcases Nat.lt_or_ge i stripe.length.toNat with hi | hi
  · rw [getElem?_slice hi]
    unfold contentAt
    rw [List.getElem?_map, List.getElem?_map, List.getElem?_range (by omega),
      List.getElem?_range hi, Option.map_some, Option.map_some, Nat.add_assoc]
  · rw [List.getElem?_eq_none, List.getElem?_eq_none]
    · rwa [contentAt_length]
    · rw [slice_length]
      omega

theorem Inv.asOneRead (htiled : Tiled content plan) (h : Inv content plan m)
    (hlive : Live plan m) : AsOneRead content plan.tensorOffset plan.tensorLength plan m := by
  constructor
  · intro hreturns hstarted
    exact exists_finished htiled hreturns h hlive hstarted
  · intro hworker
    have hdone := h.done (Or.inl hworker)
    obtain ⟨hend, hthreads, -, htensor, hreleased⟩ := publish_kept plan m
    have hcomplete : complete plan (publish plan m) = complete plan m := by
      rw [complete, hthreads, complete]
    have hassign : Assignable (publish plan m) ↔ Assignable m := by
      rw [Assignable, htensor, Assignable]
    rw [← complete_iff_bothRead hdone, ← hcomplete, ← hassign]
    -- What the worker publishes is what the invariant says of its end.
    rcases ((inv_publish h htiled hworker).ended hend).outcome with
      ⟨hall, hassigned, hready | hgone⟩ | ⟨hnot, hfailed, -⟩
    · exact iff_of_true hready.1 ⟨hall, hassigned⟩
    · exact absurd hgone.1 hreleased
    · refine iff_of_false (fun hready => ?_) hnot
      cases hfailed.symm.trans hready
  · intro hworker
    have hdone := h.done (Or.inr hworker)
    rw [← complete_iff_bothRead hdone]
    rcases (h.ended hworker).outcome with ⟨hcomplete, hassign, hready | hreleased⟩ | hfailed
    · exact Or.inl ⟨hcomplete, hassign, Or.inl hready.1⟩
    · exact Or.inl ⟨hcomplete, hassign, Or.inr hreleased.1⟩
    · exact Or.inr ⟨hfailed.1, hfailed.2.1⟩
  · intro tensorRef hstate
    obtain ⟨hready, hobtain⟩ := obtainReadyTensor_of_ready hstate
    obtain ⟨-, ready, hsome, -, hpayload⟩ := h.ready hready
    exact ⟨ready, hobtain.trans hsome, hpayload⟩
  · intro tensorRef t hobtain
    have hstate := stateOf_of_obtainReadyTensor hobtain
    obtain ⟨hboth, ready, -, howner, hpayload⟩ := h.ready (obtainReadyTensor_of_ready hstate).1
    refine ⟨hstate, hboth, ready.payload, howner, ?_⟩
    intro i stripe hstripe
    rw [hpayload]
    exact written_contentAt (htiled.inside i stripe hstripe)
  · exact h.held

/-- Two stripes are as one read: whatever the order of the threads and the calls, the request
ends ready exactly when both reads succeeded, with the bytes of the range. -/
theorem striped_asOneRead {offset length alignment : UInt64} {sourceA sourceB : Option RangeSource}
    (hplan : RangeStripingPlan.twoWay offset length sourceA sourceB alignment = some plan)
    (hfits : offset.toNat + length.toNat ≤ 2 ^ 64)
    (hright : ∀ source, sourceA = some source ∨ sourceB = some source → source.Right content)
    (hsteps : Steps plan fresh m) : AsOneRead content offset length plan m := by
  obtain ⟨a, b, split, rfl, rfl, -, hsplit, rfl⟩ := twoWay_eq_some hplan
  have htiled := twoStripes_tiled hsplit hfits (hright a (Or.inl rfl)) (hright b (Or.inr rfl))
  exact (inv_steps htiled hsteps).asOneRead htiled (live_steps htiled hsteps)

/-! ### A run -/

/-- A source that always reads what it is asked for. -/
def countingSource : RangeSource where
  reads := fun offset length bytes result =>
    bytes = contentAt UInt8.ofNat offset.toNat length.toNat ∧ result = ⟨true, length⟩

theorem countingSource_right : countingSource.Right UInt8.ofNat :=
  fun _ _ _ _ hreads _ _ => hreads.1

/-- Three bytes in stripes of one and of two. -/
def threeBytes : RangeStripingPlan := twoStripes 4 3 1 countingSource countingSource

/-- A run of it in which the second stripe is read first. -/
theorem steps_threeBytes : ∃ m, Steps threeBytes fresh m ∧ stateOf 7 m = .ready := by
  let tensor : PersistentTensorRef := ⟨0, "w", ⟨0, [3], [], 3⟩, 4⟩
  refine ⟨_, ((((((((((((((Relation.ReflTransGen.refl
    |>.tail (.request 7 tensor 3 (some [0, 0, 0]) fun bytes hbytes => by cases hbytes; rfl))
    |>.tail (@Step.spawn threeBytes _ 0 rfl (by decide)))
    |>.tail (@Step.spawn threeBytes _ 1 rfl (by decide)))
    |>.tail (.gather rfl))
    |>.tail (@Step.arrive threeBytes _ 1 rfl))
    |>.tail (@Step.arrive threeBytes _ 0 rfl))
    |>.tail (.start rfl rfl))
    |>.tail (@Step.begin threeBytes _ 0 rfl rfl))
    |>.tail (@Step.begin threeBytes _ 1 rfl rfl))
    |>.tail (@Step.finish threeBytes _ 1 _ countingSource [5, 6] ⟨true, 2⟩ rfl rfl rfl
      ⟨rfl, rfl⟩ rfl))
    |>.tail (@Step.finish threeBytes _ 0 _ countingSource [4] ⟨true, 1⟩ rfl rfl rfl
      ⟨rfl, rfl⟩ rfl))
    |>.tail (@Step.record threeBytes _ 0 _ rfl))
    |>.tail (@Step.record threeBytes _ 1 _ rfl))
    |>.tail (.join rfl ?_)) |>.tail (.publish rfl), ?_⟩
  · intro i hi
    match i, hi with
    | 0, _ => exact ⟨_, rfl⟩
    | 1, _ => exact ⟨_, rfl⟩
  · rfl

theorem striped_asOneRead_threeBytes :
    ∃ m, Steps threeBytes fresh m ∧ stateOf 7 m = .ready ∧
      AsOneRead UInt8.ofNat 4 3 threeBytes m := by
  obtain ⟨m, hsteps, hready⟩ := steps_threeBytes
  refine ⟨m, hsteps, hready, @striped_asOneRead _ _ _ 4 3 1 (some countingSource)
    (some countingSource) rfl (by decide) ?_ hsteps⟩
  intro source hsource
  rcases hsource with hsource | hsource
  · cases hsource
    exact countingSource_right
  · cases hsource
    exact countingSource_right

end OneRead

end StripedMaterializer

end VBuf.Ggml
