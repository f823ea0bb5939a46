import VBuf.Ggml.LocalMaterializer

/-!
# What the local materializer delivers

A request is pending until its worker has finished, whenever that is, and
delivered from then on.  So `obtain_ready` delivers a tensor exactly when its
request is admitted, and the counters are back to what the ready tensors hold.
-/

namespace VBuf.Ggml

open VBuf.Lib

namespace LocalVbufRangeMaterializer

variable {source fallbackSource : Option RangeReader} {finishing : Nat → List Nat}

/-- No worker is running. -/
def Settled (m : LocalVbufRangeMaterializer) : Prop :=
  ∀ ref request, m.requests.lookup ref = some request → request.state ≠ .inFlight

/-- `base` with a new request whose worker is running. -/
structure Pending (base : LocalVbufRangeMaterializer) (p : Nat) (tensor : PersistentTensorRef)
    (m : LocalVbufRangeMaterializer) : Prop where
  requests : ∀ q, m.requests.lookup q =
    if q = p then some { tensor, state := .inFlight } else base.requests.lookup q
  inflight : m.inflightBytes = base.inflightBytes + tensor.view.payloadLen
  readyBytes : m.readyBytes = base.readyBytes

/-- `base` with a new request whose worker has finished. -/
structure Delivered (base : LocalVbufRangeMaterializer) (p : Nat) (tensor : PersistentTensorRef)
    (ready : MaterializedTensor) (m : LocalVbufRangeMaterializer) : Prop where
  requests : ∀ q, m.requests.lookup q =
    if q = p then some ⟨tensor, .ready, some ready⟩ else base.requests.lookup q
  inflight : m.inflightBytes = base.inflightBytes
  readyBytes : m.readyBytes = base.readyBytes + tensor.view.payloadLen

/-! ### Workers -/

theorem finishWorker_of_not_inFlight {m : LocalVbufRangeMaterializer} {ref : Nat}
    (h : ∀ request, m.requests.lookup ref = some request → request.state ≠ .inFlight) :
    finishWorker source fallbackSource ref m = m := by
  unfold finishWorker
  cases hlookup : m.requests.lookup ref with
  | none => rfl
  | some request =>
      show (if request.state ≠ .inFlight then m else _) = m
      rw [if_pos (h request hlookup)]

theorem Settled.tick {m : LocalVbufRangeMaterializer} (h : m.Settled) :
    m.tick source fallbackSource finishing = { m with calls := m.calls + 1 } := by
  have hfold : ∀ refs : List Nat,
      refs.foldl (fun m ref => finishWorker source fallbackSource ref m) m = m := by
    intro refs
    induction refs with
    | nil => rfl
    | cons ref rest ih =>
        rw [List.foldl_cons, finishWorker_of_not_inFlight (h ref)]
        exact ih
  unfold LocalVbufRangeMaterializer.tick
  rw [hfold]

section Request

variable {base : LocalVbufRangeMaterializer} {p : Nat} {tensor : PersistentTensorRef}
  {ready : MaterializedTensor} {m : LocalVbufRangeMaterializer}

theorem Delivered.settled (h : Delivered base p tensor ready m) (hbase : base.Settled) :
    m.Settled := by
  intro q request hlookup
  rw [h.requests] at hlookup
  by_cases hq : q = p
  · rw [if_pos hq] at hlookup
    rw [← Option.some.inj hlookup]
    exact MaterializationState.noConfusion
  · rw [if_neg hq] at hlookup
    exact hbase q request hlookup

variable (source fallbackSource finishing) in
theorem Delivered.tick (h : Delivered base p tensor ready m) (hbase : base.Settled) :
    Delivered base p tensor ready (m.tick source fallbackSource finishing) := by
  rw [(h.settled hbase).tick]
  exact ⟨h.requests, h.inflight, h.readyBytes⟩

/-- The worker of the request finishes. -/
theorem Pending.finish (h : Pending base p tensor m)
    (hread : (readPayload source fallbackSource tensor).bind
      (MaterializedTensor.assignView tensor.view) = some ready) :
    Delivered base p tensor ready (finishWorker source fallbackSource p m) := by
  have hlookup := h.requests p
  rw [if_pos rfl] at hlookup
  simp only [finishWorker, hlookup, hread, ne_eq, not_true_eq_false, if_false]
  refine ⟨?_, ?_, ?_⟩
  · intro q
    rw [AssocMap.lookup_insert_eq]
    by_cases hq : q = p
    · rw [if_pos hq, if_pos hq]
    · rw [if_neg hq, if_neg hq, h.requests q, if_neg hq]
  · show m.inflightBytes - tensor.view.payloadLen = base.inflightBytes
    rw [h.inflight]
    exact UInt64.add_sub_cancel _ _
  · show m.readyBytes + tensor.view.payloadLen = base.readyBytes + tensor.view.payloadLen
    rw [h.readyBytes]

variable (finishing) in
/-- Before the next call the worker has finished, or not. -/
theorem Pending.tick (h : Pending base p tensor m) (hbase : base.Settled)
    (hread : (readPayload source fallbackSource tensor).bind
      (MaterializedTensor.assignView tensor.view) = some ready) :
    Pending base p tensor (m.tick source fallbackSource finishing) ∨
      Delivered base p tensor ready (m.tick source fallbackSource finishing) := by
  have hfold : ∀ (refs : List Nat) (m : LocalVbufRangeMaterializer),
      Pending base p tensor m ∨ Delivered base p tensor ready m →
      Pending base p tensor (refs.foldl (fun m ref => finishWorker source fallbackSource ref m) m) ∨
      Delivered base p tensor ready
        (refs.foldl (fun m ref => finishWorker source fallbackSource ref m) m) := by
    intro refs
    induction refs with
    | nil => exact fun _ hm => hm
    | cons ref rest ih =>
        intro m hm
        rw [List.foldl_cons]
        apply ih
        rcases hm with hm | hm
        · by_cases href : ref = p
          · rw [href]
            exact Or.inr (hm.finish hread)
          · have hother : finishWorker source fallbackSource ref m = m := by
              apply finishWorker_of_not_inFlight
              intro request hlookup
              rw [hm.requests, if_neg href] at hlookup
              exact hbase ref request hlookup
            rw [hother]
            exact Or.inl hm
        · rw [finishWorker_of_not_inFlight (hm.settled hbase ref)]
          exact Or.inr hm
  rcases hfold (finishing m.calls) m (Or.inl h) with hp | hd
  · exact Or.inl ⟨hp.requests, hp.inflight, hp.readyBytes⟩
  · exact Or.inr ⟨hd.requests, hd.inflight, hd.readyBytes⟩

/-! ### Calls -/

/-- There is room for a request: the budget of the executor is the length of the
tensor alone. -/
def Admits (m : LocalVbufRangeMaterializer) (tensor : PersistentTensorRef) : Prop :=
  m.inflightBytes + m.readyBytes + tensor.view.payloadLen ≤ tensor.view.payloadLen

/-- The tensor has no request under way. -/
def Free (m : LocalVbufRangeMaterializer) (p : Nat) : Prop :=
  ∀ request, m.requests.lookup p = some request → request.state = .released

theorem admit_pending (hroom : m.Admits tensor) (hsame : ∀ q, q ≠ p →
    m.requests.lookup q = base.requests.lookup q) (hinflight : m.inflightBytes = base.inflightBytes)
    (hready : m.readyBytes = base.readyBytes) :
    ∃ m', admitTensor p tensor tensor.view.payloadLen m = (true, m') ∧ Pending base p tensor m' := by
  have hnot : ¬ (tensor.view.payloadLen > tensor.view.payloadLen ∨
      m.inflightBytes + m.readyBytes + tensor.view.payloadLen > tensor.view.payloadLen) := by
    intro h
    rcases h with h | h
    · exact absurd h (UInt64.lt_irrefl _)
    · exact absurd h (UInt64.not_lt.2 hroom)
  unfold admitTensor
  simp only [if_neg hnot]
  refine ⟨_, rfl, ⟨?_, ?_, hready⟩⟩
  · intro q
    rw [AssocMap.lookup_insert_eq]
    by_cases hq : q = p
    · rw [if_pos hq, if_pos hq]
    · rw [if_neg hq, if_neg hq, hsame q hq]
  · show m.inflightBytes + tensor.view.payloadLen = _
    rw [hinflight]

theorem admit_refused (hroom : ¬ m.Admits tensor) :
    admitTensor p tensor tensor.view.payloadLen m = (false, m) := by
  have hover : tensor.view.payloadLen > tensor.view.payloadLen ∨
      m.inflightBytes + m.readyBytes + tensor.view.payloadLen > tensor.view.payloadLen :=
    Or.inr (UInt64.not_le.1 hroom)
  unfold admitTensor
  simp only [if_pos hover]

theorem request_pending (hfree : m.Free p) (hroom : m.Admits tensor) :
    ∃ m', request p tensor tensor.view.payloadLen m = (true, m') ∧ Pending m p tensor m' := by
  unfold request
  cases hlookup : m.requests.lookup p with
  | none => exact admit_pending hroom (fun _ _ => rfl) rfl rfl
  | some existing =>
      have hstate := hfree existing hlookup
      have hgone : ¬ (existing.state ≠ .released ∧ existing.state ≠ .failed) := fun h => h.1 hstate
      simp only [if_neg hgone]
      refine @admit_pending m p tensor { m with requests := m.requests.erase p } hroom ?_ rfl rfl
      intro q hq
      show (m.requests.erase p).lookup q = _
      rw [AssocMap.lookup_erase_eq, if_neg hq]

theorem request_refused (hfree : m.Free p) (hroom : ¬ m.Admits tensor) :
    (request p tensor tensor.view.payloadLen m).1 = false := by
  unfold request
  cases hlookup : m.requests.lookup p with
  | none =>
      show (admitTensor p tensor tensor.view.payloadLen m).1 = false
      rw [admit_refused hroom]
  | some existing =>
      have hstate := hfree existing hlookup
      have hgone : ¬ (existing.state ≠ .released ∧ existing.state ≠ .failed) := fun h => h.1 hstate
      simp only [if_neg hgone]
      rw [@admit_refused p tensor { m with requests := m.requests.erase p } hroom]

theorem state_of_free (h : m.Free p) : state p m = .notRequested ∨ state p m = .released := by
  unfold state
  cases hlookup : m.requests.lookup p with
  | none => exact Or.inl rfl
  | some request => exact Or.inr (h request hlookup)

theorem Pending.state_eq (h : Pending base p tensor m) : state p m = .inFlight := by
  unfold state
  rw [h.requests, if_pos rfl]

theorem Delivered.state_eq (h : Delivered base p tensor ready m) : state p m = .ready := by
  unfold state
  rw [h.requests, if_pos rfl]

theorem Delivered.obtain_eq (h : Delivered base p tensor ready m) :
    obtainReadyTensor p m = some ready := by
  unfold obtainReadyTensor
  rw [h.requests, if_pos rfl]
  rfl

/-! ### `obtain_ready` -/

open TensorDependencyExecutor

variable (source fallbackSource finishing) in
/-- A tensor that is ready is obtained at once. -/
theorem obtainReady_of_ready {request : LocalRequest} (hbase : base.Settled)
    (hlookup : base.requests.lookup p = some request) (hstate : request.state = .ready)
    (hready : request.ready = some ready) :
    ∃ calls, obtainReady (waveMaterializer source fallbackSource finishing) p tensor base =
      (.ok ready, { base with calls }) := by
  have hsettled : ∀ calls, Settled { base with calls } := fun _ => hbase
  have hstate' : ∀ calls, state p { base with calls } = .ready := by
    intro calls
    unfold state
    rw [hlookup]
    exact hstate
  have hobtain : ∀ calls, obtainReadyTensor p { base with calls } = some ready := by
    intro calls
    unfold obtainReadyTensor
    rw [hlookup]
    show (if request.state ≠ .ready then none else request.ready) = some ready
    rw [if_neg (not_not_intro hstate), hready]
  refine ⟨base.calls + 1 + 1, ?_⟩
  simp [obtainReady, requestReady, waveMaterializer, hbase.tick, (hsettled _).tick, hstate', hobtain]

variable (source fallbackSource finishing) in
/-- A tensor without a request is delivered when the request is admitted,
whenever its worker finishes. -/
theorem obtainReady_of_free (hbase : base.Settled) (hfree : base.Free p)
    (hroom : base.Admits tensor) (hread : (readPayload source fallbackSource tensor).bind
      (MaterializedTensor.assignView tensor.view) = some ready) :
    ∃ m', obtainReady (waveMaterializer source fallbackSource finishing) p tensor base =
      (.ok ready, m') ∧ Delivered base p tensor ready m' := by
  have hsettled : ∀ calls, Settled { base with calls } := fun _ => hbase
  obtain ⟨asked, hasked, hpending⟩ := @request_pending p tensor
    { base with calls := base.calls + 1 + 1 } hfree hroom
  have hpending' : Pending base p tensor asked :=
    ⟨hpending.requests, hpending.inflight, hpending.readyBytes⟩
  have hfirst : state p { base with calls := base.calls + 1 } = .notRequested ∨
      state p { base with calls := base.calls + 1 } = .released :=
    @state_of_free p { base with calls := base.calls + 1 } hfree
  have hrequest : requestReady (waveMaterializer source fallbackSource finishing) p tensor base =
      (some (state p (asked.tick source fallbackSource finishing)),
        asked.tick source fallbackSource finishing) := by
    simp only [requestReady, waveMaterializer, hbase.tick, (hsettled _).tick, if_pos hfirst, hasked]
  -- the worker has finished before the state is read, or `wait` joins it
  have hready : ∃ m', (if state p (asked.tick source fallbackSource finishing) = .inFlight then
        (waveMaterializer source fallbackSource finishing).wait p
          (asked.tick source fallbackSource finishing)
      else (state p (asked.tick source fallbackSource finishing),
        asked.tick source fallbackSource finishing)) = (.ready, m') ∧
      Delivered base p tensor ready m' := by
    rcases hpending'.tick finishing hbase hread with hlate | hdone
    · rw [if_pos hlate.state_eq]
      have hjoined : Delivered base p tensor ready (finishWorker source fallbackSource p
          ((asked.tick source fallbackSource finishing).tick source fallbackSource finishing)) := by
        rcases hlate.tick finishing hbase hread with hlater | hdone
        · exact hlater.finish hread
        · rwa [finishWorker_of_not_inFlight (hdone.settled hbase p)]
      refine ⟨_, ?_, hjoined⟩
      simp only [waveMaterializer, hjoined.state_eq]
    · refine ⟨_, ?_, hdone⟩
      rw [hdone.state_eq, if_neg MaterializationState.noConfusion]
  obtain ⟨m', hwait, hdelivered⟩ := hready
  refine ⟨m'.tick source fallbackSource finishing, ?_, hdelivered.tick _ _ _ hbase⟩
  have hobtain := (hdelivered.tick source fallbackSource finishing hbase).obtain_eq
  unfold obtainReady
  simp only [hrequest, hwait, ne_eq, not_true_eq_false, if_false]
  simp only [waveMaterializer, hobtain]

variable (source fallbackSource finishing) in
/-- A request that is not admitted ends `obtain_ready`. -/
theorem obtainReady_refused (hbase : base.Settled) (hfree : base.Free p)
    (hroom : ¬ base.Admits tensor) :
    ∃ detail m', obtainReady (waveMaterializer source fallbackSource finishing) p tensor base =
      (.error detail, m') := by
  have hsettled : ∀ calls, Settled { base with calls } := fun _ => hbase
  have hfirst : state p { base with calls := base.calls + 1 } = .notRequested ∨
      state p { base with calls := base.calls + 1 } = .released :=
    @state_of_free p { base with calls := base.calls + 1 } hfree
  have hrefused := @request_refused p tensor { base with calls := base.calls + 1 + 1 } hfree hroom
  refine ⟨"persistent tensor materialization request failed",
    (request p tensor tensor.view.payloadLen { base with calls := base.calls + 1 + 1 }).2, ?_⟩
  simp only [obtainReady, requestReady, waveMaterializer, hbase.tick, (hsettled _).tick,
    if_pos hfirst]
  generalize request p tensor tensor.view.payloadLen
    { base with calls := base.calls + 1 + 1 } = answer at hrefused ⊢
  obtain ⟨admitted, m'⟩ := answer
  obtain rfl : admitted = false := hrefused
  rfl

variable (source fallbackSource finishing) in
/-- A release takes the ready tensor back. -/
theorem release_spec {tensor : PersistentTensorRef} (hbase : base.Settled)
    (hlookup : base.requests.lookup p = some ⟨tensor, .ready, some ready⟩) :
    ∃ m', (waveMaterializer source fallbackSource finishing).release p base = m' ∧
      (∀ q, m'.requests.lookup q =
        if q = p then some ⟨tensor, .released, none⟩ else base.requests.lookup q) ∧
      m'.inflightBytes = base.inflightBytes ∧
      m'.readyBytes = base.readyBytes - tensor.view.payloadLen := by
  refine ⟨_, rfl, ?_⟩
  simp only [waveMaterializer, hbase.tick, release, hlookup, if_true]
  refine ⟨?_, trivial, trivial⟩
  intro q
  rw [AssocMap.lookup_insert_eq]

end Request

end LocalVbufRangeMaterializer

end VBuf.Ggml
