import VBuf.Ggml.LocalMaterializer

/-!
# The counters of the local materializer

A run interleaves requests, workers that finish, obtains and releases in any
order.  The counters follow the entries that are in flight and ready.  An entry
whose worker finishes after its last release stays ready for good.
-/

namespace VBuf.Ggml

open VBuf.Lib

/-- A step of a run.  The sources of a worker are what it finds when it reads, so
a worker can fail; a request joins the stale worker of its reference, which has
nothing left to do. -/
inductive LocalEvent
  | request (tensorRef : Nat) (tensor : PersistentTensorRef) (byteBudget : UInt64)
  | finish (tensorRef : Nat) (source fallbackSource : Option RangeReader)
  | obtain (tensorRef : Nat)
  | release (tensorRef : Nat)

namespace LocalVbufRangeMaterializer

def step (m : LocalVbufRangeMaterializer) : LocalEvent → LocalVbufRangeMaterializer
  | .request tensorRef tensor byteBudget => (m.request tensorRef tensor byteBudget).2
  | .finish tensorRef source fallbackSource => finishWorker source fallbackSource tensorRef m
  | .obtain _ => m
  | .release tensorRef => m.release tensorRef

def run (m : LocalVbufRangeMaterializer) (events : List LocalEvent) : LocalVbufRangeMaterializer :=
  events.foldl step m

/-- What an entry counts for in a state. -/
def weight (state : MaterializationState) (request : LocalRequest) : Nat :=
  if request.state = state then request.tensor.view.payloadLen.toNat else 0

/-- The sum of the lengths of the entries in a state. -/
def stateBytes (state : MaterializationState) (m : LocalVbufRangeMaterializer) : Nat :=
  AssocMap.total (fun _ => weight state) m.requests

/-- What a reference contributes to the sum of a state. -/
def contribution (state : MaterializationState) (m : LocalVbufRangeMaterializer) (tensorRef : Nat) :
    Nat :=
  match m.requests.lookup tensorRef with
  | none => 0
  | some request => weight state request

/-- The lengths add up without wrapping when a request is admitted. -/
def Adds (m : LocalVbufRangeMaterializer) : LocalEvent → Prop
  | .request tensorRef tensor byteBudget => (m.request tensorRef tensor byteBudget).1 = true →
      m.inflightBytes.toNat + m.readyBytes.toNat + tensor.view.payloadLen.toNat < 2 ^ 64
  | _ => True

/-- Every step of a run adds without wrapping. -/
def AddsAlong : LocalVbufRangeMaterializer → List LocalEvent → Prop
  | _, [] => True
  | m, event :: rest => m.Adds event ∧ AddsAlong (m.step event) rest

/-- A worker of the reference reads a non-empty range. -/
def Delivers (tensorRef : Nat) (m : LocalVbufRangeMaterializer) : LocalEvent → Prop
  | .finish ref source fallbackSource => ref = tensorRef ∧
      ∃ request, m.requests.lookup ref = some request ∧ request.state = .inFlight ∧
        request.tensor.view.payloadLen ≠ 0 ∧
        (readPayload source fallbackSource request.tensor).bind
          (MaterializedTensor.assignView request.tensor.view) ≠ none
  | _ => False

/-- A worker of the reference reads a non-empty range, and no release comes later. -/
def Strands (tensorRef : Nat) : LocalVbufRangeMaterializer → List LocalEvent → Prop
  | _, [] => False
  | m, event :: rest =>
      m.Delivers tensorRef event ∧ .release tensorRef ∉ rest ∨
        Strands tensorRef (m.step event) rest

/-! ### Sums -/

variable {m : LocalVbufRangeMaterializer} {tensorRef : Nat} {request : LocalRequest}

theorem stateBytes_insert {after : LocalVbufRangeMaterializer} {other : LocalRequest}
    (hlookup : m.requests.lookup tensorRef = some request)
    (hafter : after.requests = m.requests.insert tensorRef other) (state : MaterializationState) :
    after.stateBytes state + weight state request = weight state other + m.stateBytes state := by
  unfold stateBytes
  rw [hafter]
  exact AssocMap.total_update (fun _ => weight state) other hlookup

theorem stateBytes_insert_new {after : LocalVbufRangeMaterializer} {other : LocalRequest}
    (hlookup : m.requests.lookup tensorRef = none)
    (hafter : after.requests = m.requests.insert tensorRef other) (state : MaterializationState) :
    after.stateBytes state = weight state other + m.stateBytes state := by
  unfold stateBytes
  rw [hafter]
  exact AssocMap.total_insert_new (fun _ => weight state) other hlookup

theorem stateBytes_erase (hlookup : m.requests.lookup tensorRef = some request)
    (state : MaterializationState) (hweight : weight state request = 0) :
    stateBytes state { m with requests := m.requests.erase tensorRef } = m.stateBytes state := by
  unfold stateBytes
  rw [AssocMap.total_erase (fun _ => weight state) hlookup, hweight, Nat.zero_add]

/-! ### What a step does -/

/-- How the end of a worker or a release moves the counters and the sums. -/
inductive Retires (m after : LocalVbufRangeMaterializer) : Prop
  | stays (hinflight : after.inflightBytes = m.inflightBytes)
      (hready : after.readyBytes = m.readyBytes)
      (hsum : after.stateBytes .inFlight = m.stateBytes .inFlight)
      (hother : after.stateBytes .ready = m.stateBytes .ready)
  | fails (len : UInt64) (hinflight : after.inflightBytes = m.inflightBytes - len)
      (hready : after.readyBytes = m.readyBytes)
      (hsum : after.stateBytes .inFlight + len.toNat = m.stateBytes .inFlight)
      (hother : after.stateBytes .ready = m.stateBytes .ready)
  | delivers (len : UInt64) (hinflight : after.inflightBytes = m.inflightBytes - len)
      (hready : after.readyBytes = m.readyBytes + len)
      (hsum : after.stateBytes .inFlight + len.toNat = m.stateBytes .inFlight)
      (hother : after.stateBytes .ready = len.toNat + m.stateBytes .ready)
  | releases (len : UInt64) (hinflight : after.inflightBytes = m.inflightBytes)
      (hready : after.readyBytes = m.readyBytes - len)
      (hsum : after.stateBytes .ready + len.toNat = m.stateBytes .ready)
      (hother : after.stateBytes .inFlight = m.stateBytes .inFlight)

theorem retires_refl (m : LocalVbufRangeMaterializer) : Retires m m := .stays rfl rfl rfl rfl

theorem weight_of_ne {state : MaterializationState} (h : request.state ≠ state) :
    weight state request = 0 := if_neg h

theorem weight_of_eq {state : MaterializationState} (h : request.state = state) :
    weight state request = request.tensor.view.payloadLen.toNat := if_pos h

/-- An entry that changes its state moves its length. -/
theorem stateBytes_change {after : LocalVbufRangeMaterializer} {other : LocalRequest}
    (hlookup : m.requests.lookup tensorRef = some request)
    (hafter : after.requests = m.requests.insert tensorRef other)
    (htensor : other.tensor = request.tensor) (hne : other.state ≠ request.state) :
    after.stateBytes request.state + request.tensor.view.payloadLen.toNat =
        m.stateBytes request.state ∧
      after.stateBytes other.state =
        request.tensor.view.payloadLen.toNat + m.stateBytes other.state ∧
      ∀ state, state ≠ request.state → state ≠ other.state →
        after.stateBytes state = m.stateBytes state := by
  refine ⟨?_, ?_, ?_⟩
  · have hmove := stateBytes_insert hlookup hafter request.state
    rw [weight_of_eq rfl, weight_of_ne hne, Nat.zero_add] at hmove
    exact hmove
  · have hmove := stateBytes_insert hlookup hafter other.state
    rw [weight_of_ne (Ne.symm hne), weight_of_eq rfl, htensor, Nat.add_zero] at hmove
    exact hmove
  · intro state hold hnew
    have hmove := stateBytes_insert hlookup hafter state
    rw [weight_of_ne (Ne.symm hold), weight_of_ne (Ne.symm hnew), Nat.add_zero, Nat.zero_add] at hmove
    exact hmove

/-- A request is admitted and adds its length, or changes no sum. -/
structure Admission (m : LocalVbufRangeMaterializer) (tensor : PersistentTensorRef)
    (result : Bool × LocalVbufRangeMaterializer) : Prop where
  inflight : result.2.inflightBytes =
    if result.1 = true then m.inflightBytes + tensor.view.payloadLen else m.inflightBytes
  readyBytes : result.2.readyBytes = m.readyBytes
  inflightSum : result.2.stateBytes .inFlight =
    (if result.1 = true then tensor.view.payloadLen.toNat else 0) + m.stateBytes .inFlight
  readySum : result.2.stateBytes .ready = m.stateBytes .ready

theorem admission_refl (m : LocalVbufRangeMaterializer) (tensor : PersistentTensorRef) :
    Admission m tensor (false, m) :=
  ⟨rfl, rfl, (Nat.zero_add _).symm, rfl⟩

theorem admit_admission (hlookup : m.requests.lookup tensorRef = none)
    (tensor : PersistentTensorRef) (byteBudget : UInt64) :
    Admission m tensor (m.admitTensor tensorRef tensor byteBudget) := by
  unfold admitTensor
  simp only
  split
  · exact ⟨rfl, rfl, (Nat.zero_add _).symm, rfl⟩
  · have hsum := fun state => @stateBytes_insert_new m tensorRef
      { m with
        inflightBytes := m.inflightBytes + tensor.view.payloadLen
        requests := m.requests.insert tensorRef { tensor, state := .inFlight } }
      { tensor, state := .inFlight } hlookup rfl state
    refine ⟨rfl, rfl, hsum .inFlight, ?_⟩
    show stateBytes .ready _ = _
    rw [hsum, weight_of_ne (by simp), Nat.zero_add]

theorem request_admission (m : LocalVbufRangeMaterializer) (tensorRef : Nat)
    (tensor : PersistentTensorRef) (byteBudget : UInt64) :
    Admission m tensor (m.request tensorRef tensor byteBudget) := by
  unfold LocalVbufRangeMaterializer.request
  split
  next hlookup => exact admit_admission hlookup tensor byteBudget
  next existing hlookup =>
      split
      next => exact admission_refl m tensor
      next hstate =>
          -- The entry that is erased counts for nothing, so its erasure moves no sum.
          have herased : ∀ state, state = .inFlight ∨ state = .ready →
              stateBytes state { m with requests := m.requests.erase tensorRef } =
                m.stateBytes state := by
            intro state hcounted
            apply stateBytes_erase hlookup
            apply weight_of_ne
            intro hsame
            apply hstate
            rw [hsame]
            rcases hcounted with rfl | rfl <;> simp
          have hnone : (m.requests.erase tensorRef).lookup tensorRef = none :=
            AList.lookup_erase _ _
          obtain ⟨hinflight, hready, hsum, hother⟩ := @admit_admission
            { m with requests := m.requests.erase tensorRef } tensorRef hnone tensor byteBudget
          rw [herased _ (Or.inl rfl)] at hsum
          rw [herased _ (Or.inr rfl)] at hother
          exact ⟨hinflight, hready, hsum, hother⟩

theorem finishWorker_retires (source fallbackSource : Option RangeReader) (tensorRef : Nat)
    (m : LocalVbufRangeMaterializer) :
    Retires m (finishWorker source fallbackSource tensorRef m) := by
  unfold finishWorker
  split
  next => exact retires_refl m
  next request hlookup =>
      split
      next => exact retires_refl m
      next hstate =>
          have hinflight : request.state = .inFlight := not_not.1 hstate
          simp only
          split
          next =>
              obtain ⟨hfrom, -, hrest⟩ := @stateBytes_change m tensorRef request
                { m with
                  inflightBytes := m.inflightBytes - request.tensor.view.payloadLen
                  requests := m.requests.insert tensorRef { request with state := .failed } }
                { request with state := .failed } hlookup rfl rfl (by simp [hinflight])
              rw [hinflight] at hfrom
              exact .fails _ rfl rfl hfrom (hrest .ready (by simp [hinflight]) (by simp))
          next ready _ =>
              obtain ⟨hfrom, hto, -⟩ := @stateBytes_change m tensorRef request
                { m with
                  inflightBytes := m.inflightBytes - request.tensor.view.payloadLen
                  readyBytes := m.readyBytes + request.tensor.view.payloadLen
                  requests := m.requests.insert tensorRef
                    { request with state := .ready, ready := some ready } }
                { request with state := .ready, ready := some ready } hlookup rfl rfl
                (by simp [hinflight])
              rw [hinflight] at hfrom
              exact .delivers _ rfl rfl hfrom hto

theorem release_retires (m : LocalVbufRangeMaterializer) (tensorRef : Nat) :
    Retires m (m.release tensorRef) := by
  unfold release
  split
  next => exact retires_refl m
  next request hlookup =>
      split
      next hready =>
          obtain ⟨hfrom, -, hrest⟩ := @stateBytes_change m tensorRef request
            { m with
              readyBytes := m.readyBytes - request.tensor.view.payloadLen
              requests := m.requests.insert tensorRef
                { request with state := .released, ready := none } }
            { request with state := .released, ready := none } hlookup rfl rfl (by simp [hready])
          rw [hready] at hfrom
          exact .releases _ rfl rfl hfrom (hrest .inFlight (by simp [hready]) (by simp))
      next => exact retires_refl m

/-! ### The counters -/

/-- The counters are the sums, in 64 bits. -/
structure Counted (m : LocalVbufRangeMaterializer) : Prop where
  inflight : m.inflightBytes.toNat = m.stateBytes .inFlight % 2 ^ 64
  ready : m.readyBytes.toNat = m.stateBytes .ready % 2 ^ 64

theorem Admission.counted {tensor : PersistentTensorRef} {result : Bool × LocalVbufRangeMaterializer}
    (h : Admission m tensor result) (hm : m.Counted) : result.2.Counted := by
  obtain ⟨hinflight, hready, hsum, hother⟩ := h
  refine ⟨?_, ?_⟩
  · rw [hinflight, hsum]
    have hi := hm.inflight
    split
    · rw [UInt64.toNat_add]
      omega
    · omega
  · rw [hready, hother, hm.ready]

theorem Retires.counted {after : LocalVbufRangeMaterializer} (h : Retires m after)
    (hm : m.Counted) : after.Counted := by
  obtain ⟨hi, hr⟩ := hm
  cases h with
  | stays hinflight hready hsum hother =>
      rw [← hinflight, ← hsum] at hi
      rw [← hready, ← hother] at hr
      exact ⟨hi, hr⟩
  | fails len hinflight hready hsum hother =>
      have hlen := len.toNat_lt
      refine ⟨?_, ?_⟩
      · rw [hinflight, UInt64.toNat_sub]
        omega
      · rw [hready, hother, hr]
  | delivers len hinflight hready hsum hother =>
      have hlen := len.toNat_lt
      refine ⟨?_, ?_⟩
      · rw [hinflight, UInt64.toNat_sub]
        omega
      · rw [hready, UInt64.toNat_add]
        omega
  | releases len hinflight hready hsum hother =>
      have hlen := len.toNat_lt
      refine ⟨?_, ?_⟩
      · rw [hinflight, hother, hi]
      · rw [hready, UInt64.toNat_sub]
        omega

theorem step_counted (event : LocalEvent) (h : m.Counted) : (m.step event).Counted := by
  cases event with
  | request tensorRef tensor byteBudget =>
      exact (request_admission m tensorRef tensor byteBudget).counted h
  | finish tensorRef source fallbackSource =>
      exact (finishWorker_retires source fallbackSource tensorRef m).counted h
  | obtain tensorRef => exact h
  | release tensorRef => exact (release_retires m tensorRef).counted h

theorem fresh_counted : fresh.Counted := ⟨rfl, rfl⟩

theorem run_counted (events : List LocalEvent) (h : m.Counted) : (m.run events).Counted := by
  induction events generalizing m with
  | nil => exact h
  | cons event rest ih => exact ih (step_counted event h)

/-- The sums fit 64 bits together. -/
def Fits (m : LocalVbufRangeMaterializer) : Prop :=
  m.stateBytes .inFlight + m.stateBytes .ready < 2 ^ 64

theorem Retires.fits {after : LocalVbufRangeMaterializer} (h : Retires m after) (hm : m.Fits) :
    after.Fits := by
  unfold Fits at hm ⊢
  cases h with
  | stays hinflight hready hsum hother => omega
  | fails len hinflight hready hsum hother => omega
  | delivers len hinflight hready hsum hother => omega
  | releases len hinflight hready hsum hother => omega

/-- Only a request can make the sums outgrow 64 bits. -/
theorem step_fits (event : LocalEvent) (hcounted : m.Counted) (h : m.Fits) (hadds : m.Adds event) :
    (m.step event).Fits := by
  cases event with
  | request tensorRef tensor byteBudget =>
      obtain ⟨-, -, hsum, hother⟩ := request_admission m tensorRef tensor byteBudget
      obtain ⟨hi, hr⟩ := hcounted
      unfold Fits at h
      show stateBytes .inFlight (m.request tensorRef tensor byteBudget).2 +
        stateBytes .ready (m.request tensorRef tensor byteBudget).2 < 2 ^ 64
      rw [hsum, hother]
      split
      next hadmitted =>
          have hroom := hadds hadmitted
          omega
      next => omega
  | finish tensorRef source fallbackSource =>
      exact (finishWorker_retires source fallbackSource tensorRef m).fits h
  | obtain tensorRef => exact h
  | release tensorRef => exact (release_retires m tensorRef).fits h

theorem fresh_fits : fresh.Fits := by
  show (0 : Nat) + 0 < 2 ^ 64
  decide

/-- Where the sums fit, the counters are the sums. -/
theorem run_exact (events : List LocalEvent) (hcounted : m.Counted) (h : m.Fits)
    (hadds : AddsAlong m events) :
    (m.run events).inflightBytes.toNat = (m.run events).stateBytes .inFlight ∧
      (m.run events).readyBytes.toNat = (m.run events).stateBytes .ready := by
  induction events generalizing m with
  | nil =>
      obtain ⟨hi, hr⟩ := hcounted
      unfold Fits at h
      show m.inflightBytes.toNat = m.stateBytes .inFlight ∧
        m.readyBytes.toNat = m.stateBytes .ready
      omega
  | cons event rest ih =>
      exact ih (step_counted event hcounted) (step_fits event hcounted h hadds.1) hadds.2

/-! ### Contributions -/

theorem contribution_eq {after : LocalVbufRangeMaterializer}
    (h : after.requests.lookup tensorRef = m.requests.lookup tensorRef)
    (state : MaterializationState) :
    after.contribution state tensorRef = m.contribution state tensorRef := by
  unfold contribution
  rw [h]

theorem contribution_some (h : m.requests.lookup tensorRef = some request)
    (state : MaterializationState) : m.contribution state tensorRef = weight state request := by
  unfold contribution
  rw [h]

theorem lookup_admit_ne {ref : Nat} (hne : tensorRef ≠ ref) (tensor : PersistentTensorRef)
    (byteBudget : UInt64) :
    (m.admitTensor ref tensor byteBudget).2.requests.lookup tensorRef = m.requests.lookup tensorRef := by
  unfold admitTensor
  simp only
  split
  · rfl
  · exact AList.lookup_insert_ne hne

/-- A request leaves the other references. -/
theorem lookup_request_ne {ref : Nat} (hne : tensorRef ≠ ref) (tensor : PersistentTensorRef)
    (byteBudget : UInt64) :
    (m.request ref tensor byteBudget).2.requests.lookup tensorRef =
      m.requests.lookup tensorRef := by
  unfold LocalVbufRangeMaterializer.request
  split
  · exact lookup_admit_ne hne tensor byteBudget
  · split
    · rfl
    · rw [lookup_admit_ne hne]
      exact AList.lookup_erase_ne hne

/-- A worker leaves the other references. -/
theorem lookup_finishWorker_ne {ref : Nat} (hne : tensorRef ≠ ref)
    (source fallbackSource : Option RangeReader) :
    (finishWorker source fallbackSource ref m).requests.lookup tensorRef =
      m.requests.lookup tensorRef := by
  unfold finishWorker
  split
  · rfl
  · split
    · rfl
    · simp only
      split
      · exact AList.lookup_insert_ne hne
      · exact AList.lookup_insert_ne hne

theorem lookup_release_ne {ref : Nat} (hne : tensorRef ≠ ref) :
    (m.release ref).requests.lookup tensorRef = m.requests.lookup tensorRef := by
  unfold release
  split
  · rfl
  · split
    · exact AList.lookup_insert_ne hne
    · rfl

theorem contribution_release (m : LocalVbufRangeMaterializer) (tensorRef : Nat) :
    (m.release tensorRef).contribution .ready tensorRef = 0 := by
  unfold release
  split
  next hlookup =>
      unfold contribution
      rw [hlookup]
  next request hlookup =>
      split
      next =>
          rw [@contribution_some _ tensorRef { request with state := .released, ready := none }
            (AList.lookup_insert _)]
          exact weight_of_ne (by simp)
      next hstate =>
          rw [contribution_some hlookup]
          exact weight_of_ne hstate

/-- A worker that reads a non-empty range makes it count; any other leaves what is
ready as it is. -/
theorem contribution_finishWorker (source fallbackSource : Option RangeReader) :
    (m.Delivers tensorRef (.finish tensorRef source fallbackSource) ∧
        (finishWorker source fallbackSource tensorRef m).contribution .ready tensorRef ≠ 0) ∨
      (¬ m.Delivers tensorRef (.finish tensorRef source fallbackSource) ∧
        (finishWorker source fallbackSource tensorRef m).contribution .ready tensorRef =
          m.contribution .ready tensorRef) := by
  unfold finishWorker
  cases hlookup : m.requests.lookup tensorRef with
  | none =>
      refine Or.inr ⟨?_, rfl⟩
      intro hdelivers
      obtain ⟨-, request, hsome, -⟩ := hdelivers
      rw [hlookup] at hsome
      cases hsome
  | some request =>
      simp only
      by_cases hstate : request.state = .inFlight
      · rw [if_neg (not_not.2 hstate)]
        have hbefore : m.contribution .ready tensorRef = 0 := by
          rw [contribution_some hlookup]
          exact weight_of_ne (by simp [hstate])
        cases hread : (readPayload source fallbackSource request.tensor).bind
            (MaterializedTensor.assignView request.tensor.view) with
        | none =>
            refine Or.inr ⟨?_, ?_⟩
            · intro hdelivers
              obtain ⟨-, found, hsome, -, -, hfound⟩ := hdelivers
              rw [hlookup] at hsome
              cases hsome
              exact hfound hread
            · rw [hbefore, @contribution_some _ tensorRef { request with state := .failed }
                (AList.lookup_insert _)]
              exact weight_of_ne (by simp)
        | some ready =>
            have hafter : contribution .ready
                { m with
                  inflightBytes := m.inflightBytes - request.tensor.view.payloadLen
                  readyBytes := m.readyBytes + request.tensor.view.payloadLen
                  requests := m.requests.insert tensorRef
                    { request with state := .ready, ready := some ready } } tensorRef =
                request.tensor.view.payloadLen.toNat := by
              rw [@contribution_some _ tensorRef
                { request with state := .ready, ready := some ready } (AList.lookup_insert _)]
              exact weight_of_eq rfl
            by_cases hlen : request.tensor.view.payloadLen = 0
            · refine Or.inr ⟨?_, ?_⟩
              · intro hdelivers
                obtain ⟨-, found, hsome, -, hne, -⟩ := hdelivers
                rw [hlookup] at hsome
                cases hsome
                exact hne hlen
              · rw [hbefore]
                exact hafter.trans (by rw [hlen]; rfl)
            · refine Or.inl ⟨⟨rfl, request, hlookup, hstate, hlen, ?_⟩, ?_⟩
              · rw [hread]
                exact Option.some_ne_none ready
              · rw [hafter]
                exact fun hzero => hlen (UInt64.toNat_inj.1 hzero)
      · rw [if_pos hstate]
        refine Or.inr ⟨?_, rfl⟩
        intro hdelivers
        obtain ⟨-, found, hsome, hinflight, -⟩ := hdelivers
        rw [hlookup] at hsome
        cases hsome
        exact hstate hinflight

/-- Without a new request, a reference is ready in the end if its worker delivers
after the last release, or it was ready and is not released. -/
theorem contribution_run (events : List LocalEvent)
    (hrequest : ∀ tensor byteBudget, .request tensorRef tensor byteBudget ∉ events) :
    (m.run events).contribution .ready tensorRef ≠ 0 ↔
      Strands tensorRef m events ∨
        m.contribution .ready tensorRef ≠ 0 ∧ .release tensorRef ∉ events := by
  induction events generalizing m with
  | nil => simp [run, Strands]
  | cons event rest ih =>
      have hrest := @ih (m.step event)
        (fun tensor byteBudget hmem => hrequest tensor byteBudget (List.mem_cons_of_mem _ hmem))
      show ((m.step event).run rest).contribution .ready tensorRef ≠ 0 ↔ _
      rw [hrest, Strands]
      -- A step that is neither a delivery nor a release of the reference changes nothing.
      have hquiet : ¬ m.Delivers tensorRef event → event ≠ .release tensorRef →
          (m.step event).contribution .ready tensorRef = m.contribution .ready tensorRef →
          (Strands tensorRef (m.step event) rest ∨
            (m.step event).contribution .ready tensorRef ≠ 0 ∧ .release tensorRef ∉ rest ↔
          (m.Delivers tensorRef event ∧ .release tensorRef ∉ rest ∨
            Strands tensorRef (m.step event) rest) ∨
            m.contribution .ready tensorRef ≠ 0 ∧ .release tensorRef ∉ event :: rest) := by
        intro hnot hne hsame
        rw [hsame, List.mem_cons]
        have hne' : LocalEvent.release tensorRef ≠ event := Ne.symm hne
        tauto
      cases event with
      | request ref tensor byteBudget =>
          have hne : tensorRef ≠ ref := by
            intro heq
            subst heq
            exact hrequest tensor byteBudget List.mem_cons_self
          exact hquiet id (by simp) (contribution_eq (lookup_request_ne hne tensor byteBudget) _)
      | obtain ref => exact hquiet id (by simp) rfl
      | finish ref source fallbackSource =>
          by_cases hne : tensorRef = ref
          · subst hne
            rcases @contribution_finishWorker m tensorRef source fallbackSource with
              ⟨hdelivers, hready⟩ | ⟨hnot, hsame⟩
            · have hready' : (m.step (.finish tensorRef source fallbackSource)).contribution
                  .ready tensorRef ≠ 0 := hready
              rw [List.mem_cons]
              have hne : LocalEvent.release tensorRef ≠
                  .finish tensorRef source fallbackSource := by simp
              tauto
            · exact hquiet hnot (by simp) hsame
          · refine hquiet ?_ (by simp)
              (contribution_eq (lookup_finishWorker_ne hne source fallbackSource) _)
            intro hdelivers
            exact hne hdelivers.1.symm
      | release ref =>
          by_cases hne : tensorRef = ref
          · subst hne
            have hzero : (m.step (.release tensorRef)).contribution .ready tensorRef = 0 :=
              contribution_release m tensorRef
            rw [hzero]
            have hnot : ¬ m.Delivers tensorRef (.release tensorRef) := id
            simp only [List.mem_cons, true_or, not_true_eq_false, and_false, or_false, ne_eq,
              false_and, hnot, false_or]
          · refine hquiet id ?_ (contribution_eq (lookup_release_ne hne) _)
            intro heq
            cases heq
            exact hne rfl

/-- In every run the counters are the sums of the entries in flight and ready, in
64 bits, and as numbers where no admitted request makes the lengths wrap.  After a
release with no later request, a reference whose worker has ended counts for
nothing exactly when no worker of it delivers after its last release. -/
theorem accounting_under_any_schedule (before : List LocalEvent) :
    ((fresh.run before).inflightBytes.toNat = (fresh.run before).stateBytes .inFlight % 2 ^ 64 ∧
      (fresh.run before).readyBytes.toNat = (fresh.run before).stateBytes .ready % 2 ^ 64 ∧
      (AddsAlong fresh before →
        (fresh.run before).inflightBytes.toNat = (fresh.run before).stateBytes .inFlight ∧
          (fresh.run before).readyBytes.toNat = (fresh.run before).stateBytes .ready)) ∧
    ∀ (after : List LocalEvent) (tensorRef : Nat),
      (∀ tensor byteBudget, .request tensorRef tensor byteBudget ∉ after) →
      let released := (fresh.run before).release tensorRef
      (released.run after).state tensorRef ≠ .inFlight →
      ((released.run after).contribution .inFlight tensorRef = 0 ∧
        (released.run after).contribution .ready tensorRef = 0 ↔
        ¬ Strands tensorRef released after) := by
  refine ⟨?_, ?_⟩
  · have hcounted := run_counted before fresh_counted
    exact ⟨hcounted.inflight, hcounted.ready, run_exact before fresh_counted fresh_fits⟩
  · intro after tensorRef hrequest released hended
    have hinflight : (released.run after).contribution .inFlight tensorRef = 0 := by
      unfold contribution
      unfold state at hended
      cases hlookup : (released.run after).requests.lookup tensorRef with
      | none => rfl
      | some request =>
          rw [hlookup] at hended
          exact weight_of_ne hended
    have hready := @contribution_run released tensorRef after hrequest
    have hreleased : released.contribution .ready tensorRef = 0 :=
      contribution_release _ tensorRef
    rw [hreleased] at hready
    simp only [ne_eq, not_true_eq_false, false_and, or_false] at hready
    rw [← hready, hinflight]
    tauto

/-- A release during the read leaves the tensor ready, and its bytes counted. -/
theorem accounting_fails_release_in_flight :
    let tensor : PersistentTensorRef := ⟨0, "w", ⟨0, [4], [], 4⟩, 0⟩
    let m := ((fresh.run [.request 7 tensor 4]).release 7).run
      [.finish 7 (some (fun _ _ => some [1, 2, 3, 4])) none]
    m.state 7 = .ready ∧ m.contribution .ready 7 = 4 ∧ m.readyBytes = 4 := by
  decide

end LocalVbufRangeMaterializer

end VBuf.Ggml
