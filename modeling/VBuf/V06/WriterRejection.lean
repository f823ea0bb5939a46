import VBuf.V06.WriterSpec

/-!
# What a rejected block leaves behind

Every check of `writeBlock` but one comes before the first byte of the call.
The exception is the alignment of the payload start: it is computed after the
header was written, so its overflow leaves a header without a block.
`HeaderTorn` is that case; outside it a rejected call changes nothing, and a run
may drop its rejected calls.
-/

namespace VBuf.V06

open VBuf.Lib

namespace Writer

/-- The states of a writer: opened by `new`, then any calls with any result,
while the room of the sink may change between calls. -/
inductive Reachable : Writer → Prop
  | new {inner : Sink} {baseShift : Nat} {mode : StreamMode} {w : Writer}
      (opened : Writer.new inner baseShift mode = .ok w) : Reachable w
  | accepted {w w' : Writer} {call : BlockWrite} (reachable : Reachable w)
      (call_ok : writeBlock call w = .ok () w') : Reachable w'
  | failed {w w' : Writer} {call : BlockWrite} {e : WriterError} (reachable : Reachable w)
      (call_error : writeBlock call w = .error e w') : Reachable w'
  | resized {w : Writer} {inner : Sink} (reachable : Reachable w)
      (data_eq : inner.data = w.inner.data) (position_eq : inner.position = w.inner.position) :
      Reachable (w.withInner inner)

/-- The call passes every check up to its header, the sink takes the header, and
the aligned payload start is not a `u64`. -/
structure HeaderTorn (w : Writer) (call : BlockWrite) : Prop where
  valid : call.Valid w.baseShift
  keyAllowed : w.KeyAllowed call
  placed : w.FirstBlockPlaced
  start_fits : w.inner.data.length + (2 ^ w.baseShift - 1) < u64Bound
  payload_overflows :
    u64Bound ≤ call.headerEnd w.nextStart + (2 ^ call.combinedShift w.baseShift - 1)
  room : call.headerEnd w.nextStart ≤ w.inner.capacity

/-! ### Errors, stage by stage -/

/-- A failed step on the sink appends some bytes and nothing else. -/
theorem onInner_writeAll_eq_error {w w' : Writer} {e : WriterError} {bytes : List UInt8}
    (h : w.inner.AtEnd) (hrun : onInner (ByteSink.writeAll bytes) w = .error e w') :
    e = .io .sink ∧ ∃ stored s, w.inner.Appends stored s ∧ w' = w.withInner s := by
  refine ⟨onInner_eq_error hrun, ?_⟩
  unfold onInner at hrun
  cases hwrite : ByteSink.writeAll bytes w.inner with
  | ok u s =>
      rw [hwrite] at hrun
      cases hrun
  | error u s =>
      rw [hwrite] at hrun
      cases hrun
      obtain ⟨happends, -⟩ := ByteSink.writeAll_eq_error h hwrite
      exact ⟨_, s, happends, rfl⟩

theorem onInner_writeZeros_eq_error {w w' : Writer} {e : WriterError} {count : Nat}
    (h : w.inner.AtEnd) (hrun : onInner (writeZeros count) w = .error e w') :
    e = .io .sink ∧ ∃ stored s, w.inner.Appends stored s ∧ w' = w.withInner s := by
  have heq : onInner (ByteSink.writeAll (List.replicate count 0)) w = .error e w' := by
    rw [← hrun]
    unfold onInner
    rw [writeZeros_eq h]
  exact onInner_writeAll_eq_error h heq

theorem alignUp_eq_error {value alignment : Nat} {e : WriterError}
    (h : alignUp value alignment = .error e) :
    e = .arithmeticOverflow ∧ u64Bound ≤ value + (alignment - 1) := by
  unfold alignUp checkedAdd at h
  by_cases hfits : value + (alignment - 1) < u64Bound
  · rw [if_pos hfits] at h
    cases h
  · rw [if_neg hfits] at h
    cases h
    exact ⟨rfl, by omega⟩

theorem alignUp_overflow {value alignment : Nat} (h : u64Bound ≤ value + (alignment - 1)) :
    alignUp value alignment = .error .arithmeticOverflow := by
  unfold alignUp checkedAdd
  rw [if_neg (Nat.not_lt.2 h)]
  rfl

/-- The checks never report an error of the sink. -/
theorem checkBlock_eq_error {w : Writer} {call : BlockWrite} {e : WriterError}
    (h : checkBlock w call = .error e) : e ≠ .io .sink := by
  simp only [checkBlock, bind_eq_error_iff, rejectIf_eq_error_iff] at h
  rcases h with hrep | ⟨_, -, ⟨-, rfl⟩ | ⟨_, -, ⟨-, rfl⟩ | ⟨_, -, hmul | ⟨_, -, -, rfl⟩⟩⟩⟩
  · unfold validateRepresentation at hrep
    split at hrep
    next => cases hrep
    next =>
      cases hrep
      decide
  · decide
  · decide
  · unfold checkedMul at hmul
    split at hmul
    next => cases hmul
    next =>
      cases hmul
      decide
  · decide

/-- Before the header, a failure is the sink's or leaves the writer as it was. -/
theorem seekBlockStart_eq_error {w w' : Writer} {e : WriterError} (h : w.Inv)
    (hrun : seekBlockStart w = .error e w') :
    (e = .io .sink ∧ ∃ stored s, w.inner.Appends stored s ∧ w' = w.withInner s) ∨
      (e ≠ .io .sink ∧ w' = w) := by
  rw [seekBlockStart, run_bind_eq_error_iff] at hrun
  rcases hrun with hpad | ⟨_, w₁, hpad, hrest⟩
  · simp only [padToBlockStart, run_bind_eq_error_iff, run_get_eq_ok_iff] at hpad
    rcases hpad with hget | ⟨_, _, ⟨rfl, rfl⟩, hpad⟩
    · cases hget
    · by_cases hzero : w.blocksWritten = 0
      · rw [if_pos hzero, liftResult_eq_error_iff, rejectIf_eq_error_iff] at hpad
        obtain ⟨⟨-, rfl⟩, rfl⟩ := hpad
        right
        exact ⟨by decide, rfl⟩
      · rw [if_neg hzero] at hpad
        simp only [run_bind_eq_error_iff, liftResult_eq_error_iff, liftResult_eq_ok_iff] at hpad
        rcases hpad with ⟨halign, rfl⟩ | ⟨_, _, ⟨-, rfl⟩, hzeros⟩
        · right
          refine ⟨?_, rfl⟩
          rw [(alignUp_eq_error halign).1]
          decide
        · left
          exact onInner_writeZeros_eq_error h.atEnd hzeros
  · -- After the padding the position is a multiple of `baseStep`.
    exfalso
    simp only [run_bind_eq_error_iff, run_get_eq_ok_iff] at hrest
    rcases hrest with hget | ⟨_, _, ⟨rfl, rfl⟩, hcheck⟩
    · cases hget
    · rw [liftResult_eq_error_iff, rejectIf_eq_error_iff] at hcheck
      have hok := (seekBlockStart_eq_ok_iff h).2 ((padToBlockStart_eq_ok_iff h).1 hpad)
      simp only [seekBlockStart, run_bind_eq_ok_iff, run_get_eq_ok_iff, liftResult_eq_ok_iff,
        rejectIf_eq_ok_iff, hpad, EStateM.Result.ok.injEq] at hok
      obtain ⟨_, _, ⟨-, rfl⟩, _, _, ⟨rfl, rfl⟩, haligned, -⟩ := hok
      exact haligned hcheck.1.1

/-- Writing the header fails only in the sink. -/
theorem emitHeader_eq_error {w w' : Writer} {e : WriterError} {call : BlockWrite}
    (h : w.inner.AtEnd) (hrun : emitHeader call w = .error e w') :
    e = .io .sink ∧ ∃ stored s, w.inner.Appends stored s ∧ w' = w.withInner s := by
  rw [emitHeader, run_bind_eq_error_iff] at hrun
  rcases hrun with hanchor | ⟨_, w₁, hanchor, hcount⟩
  · exact onInner_writeAll_eq_error h hanchor
  · obtain ⟨s, happends, rfl⟩ := (onInner_writeAll_eq_ok_iff h).1 hanchor
    by_cases hlarge : 65535 < call.count
    · rw [if_pos hlarge] at hcount
      obtain ⟨he, stored, t, hstored, rfl⟩ := onInner_writeAll_eq_error happends.atEnd hcount
      exact ⟨he, _, t, happends.trans hstored, rfl⟩
    · rw [if_neg hlarge] at hcount
      cases hcount

/-- After the header, a failure is the sink's, or the payload start overflows
and nothing more was written. -/
theorem emitPayload_eq_error {w w' : Writer} {e : WriterError} {call : BlockWrite}
    (h : w.inner.AtEnd) (hblocks : w.blocksWritten + 1 < u64Bound)
    (hrun : emitPayload call w = .error e w') :
    (e = .io .sink ∧ ∃ stored s, w.inner.Appends stored s ∧ w' = w.withInner s) ∨
      (e = .arithmeticOverflow ∧ w' = w ∧
        u64Bound ≤ w.inner.data.length + (2 ^ call.combinedShift w.baseShift - 1)) := by
  have hpos : w.inner.position = w.inner.data.length := h
  simp only [emitPayload, run_bind_eq_error_iff, run_get_eq_ok_iff, liftResult_eq_error_iff,
    liftResult_eq_ok_iff, ByteSink.streamPosition] at hrun
  rcases hrun with hget | ⟨_, _, ⟨rfl, rfl⟩, ⟨halign, rfl⟩ | ⟨start, _, ⟨-, rfl⟩, hrest⟩⟩
  · cases hget
  · right
    obtain ⟨he, hover⟩ := alignUp_eq_error halign
    rw [hpos] at hover
    exact ⟨he, rfl, hover⟩
  · left
    rcases hrest with hzeros | ⟨_, w₁, hzeros, hrest⟩
    · exact onInner_writeZeros_eq_error h hzeros
    · obtain ⟨s, hpad, rfl⟩ := (onInner_writeZeros_eq_ok_iff h).1 hzeros
      rcases hrest with hpayload | ⟨_, w₂, hpayload, hrest⟩
      · obtain ⟨he, stored, t, hstored, rfl⟩ := onInner_writeAll_eq_error hpad.atEnd hpayload
        exact ⟨he, _, t, hpad.trans hstored, rfl⟩
      · -- The block counter cannot overflow, and the last assignment cannot fail.
        exfalso
        obtain ⟨t, -, rfl⟩ := (onInner_writeAll_eq_ok_iff hpad.atEnd).1 hpayload
        rcases hrest with hget | ⟨_, _, ⟨rfl, rfl⟩, ⟨hcounter, -⟩ | ⟨_, _, -, hset⟩⟩
        · cases hget
        · have hok : checkedAdd w.blocksWritten 1 = .ok (w.blocksWritten + 1) :=
            checkedAdd_eq_ok_iff.2 ⟨hblocks, rfl⟩
          have hcounter : checkedAdd w.blocksWritten 1 = .error e := hcounter
          rw [hok] at hcounter
          cases hcounter
        · cases hset

theorem Inv.blocksWritten_lt {w : Writer} (h : w.Inv) : w.blocksWritten + 1 < u64Bound := by
  have hblocks := h.blocksWritten_le
  have hle := w.inner.length_le
  have hcap := w.inner.capacity_lt
  unfold u64Bound at *
  omega

/-- The header of a torn block: where it ends. -/
private theorem headerEnd_eq {w : Writer} {call : BlockWrite} {s t : Sink}
    (hgap : w.inner.Appends w.gap s) (hheader : s.Appends call.headerBytes t) :
    t.data.length = call.headerEnd w.nextStart := by
  rw [hheader.data_eq, List.length_append, hgap.data_eq, List.length_append, length_add_gap]
  rfl

/-- The three ways in which a call fails: in the sink, before it wrote anything,
or torn. -/
theorem writeBlock_eq_error {w w' : Writer} {e : WriterError} {call : BlockWrite} (h : w.Inv)
    (hrun : writeBlock call w = .error e w') :
    (e = .io .sink ∧ ∃ stored s, w.inner.Appends stored s ∧ w' = w.withInner s) ∨
      (e ≠ .io .sink ∧ w' = w) ∨
      (e = .arithmeticOverflow ∧ w.HeaderTorn call ∧
        ∃ s, w.inner.Appends (w.gap ++ call.headerBytes) s ∧ w' = w.withInner s) := by
  simp only [writeBlock, run_bind_eq_error_iff, run_get_eq_ok_iff, liftResult_eq_error_iff,
    liftResult_eq_ok_iff] at hrun
  rcases hrun with hget | ⟨_, _, ⟨rfl, rfl⟩, ⟨hcheck, rfl⟩ | ⟨_, _, ⟨hcheck, rfl⟩, hrest⟩⟩
  · cases hget
  · right
    left
    exact ⟨checkBlock_eq_error hcheck, rfl⟩
  · rcases hrest with hseek | ⟨_, w₁, hseek, hrest⟩
    · rcases seekBlockStart_eq_error h hseek with hsink | hsame
      · exact Or.inl hsink
      · exact Or.inr (Or.inl hsame)
    · obtain ⟨hplaced, hstart, s, hgap, rfl⟩ := (seekBlockStart_eq_ok_iff h).1 hseek
      rcases hrest with hheader | ⟨_, w₂, hheader, hpayload⟩
      · left
        obtain ⟨he, stored, t, hstored, rfl⟩ :=
          @emitHeader_eq_error (w.withInner s) _ _ _ hgap.atEnd hheader
        exact ⟨he, _, t, hgap.trans hstored, rfl⟩
      · obtain ⟨t, hstored, rfl⟩ := (@emitHeader_eq_ok_iff (w.withInner s) _ hgap.atEnd _).1 hheader
        have hlength := headerEnd_eq hgap hstored
        have happends := hgap.trans hstored
        rcases @emitPayload_eq_error (w.withInner t) _ _ _ hstored.atEnd h.blocksWritten_lt
          hpayload with ⟨he, stored, u, hu, rfl⟩ | ⟨he, rfl, hover⟩
        · exact Or.inl ⟨he, _, u, happends.trans hu, rfl⟩
        · right
          right
          obtain ⟨hvalid, hkey⟩ := checkBlock_eq_ok_iff.1 hcheck
          have hover : u64Bound ≤ t.data.length + (2 ^ call.combinedShift w.baseShift - 1) := hover
          have hroom : t.data.length ≤ w.inner.capacity := by
            rw [← happends.capacity_eq]
            exact t.length_le
          rw [hlength] at hover hroom
          exact ⟨he, ⟨hvalid, hkey, hplaced, hstart, hover, hroom⟩, t, happends, rfl⟩

/-- A torn call does fail, after it wrote its header. -/
theorem HeaderTorn.writeBlock_eq {w : Writer} {call : BlockWrite} (h : w.Inv)
    (htorn : w.HeaderTorn call) :
    ∃ s, w.inner.Appends (w.gap ++ call.headerBytes) s ∧
      writeBlock call w = .error .arithmeticOverflow (w.withInner s) := by
  have hheaderEnd : call.headerEnd w.nextStart =
      w.inner.data.length + (w.gap ++ call.headerBytes).length := by
    rw [List.length_append, ← Nat.add_assoc, length_add_gap]
    rfl
  obtain ⟨t, happends⟩ := @ByteSink.exists_appends _ w.inner (w.gap ++ call.headerBytes) (by
    rw [← hheaderEnd]
    exact htorn.room)
  -- The stages up to the header succeed, and the alignment after them overflows.
  obtain ⟨s, hgap, hheader⟩ := happends.split
  have hlength : t.data.length = call.headerEnd w.nextStart := headerEnd_eq hgap hheader
  have hseek := (seekBlockStart_eq_ok_iff h).2 ⟨htorn.placed, htorn.start_fits, s, hgap, rfl⟩
  have hemit := (@emitHeader_eq_ok_iff (w.withInner s) _ hgap.atEnd call).2 ⟨t, hheader, rfl⟩
  have hcheck : checkBlock w call = .ok () :=
    checkBlock_eq_ok_iff.2 ⟨htorn.valid, htorn.keyAllowed⟩
  have hpos : t.position = t.data.length := hheader.atEnd
  have halign : alignUp t.position (2 ^ (w.baseShift + call.options.payloadShift)) =
      .error .arithmeticOverflow := by
    rw [hpos, hlength]
    exact alignUp_overflow htorn.payload_overflows
  refine ⟨t, happends, ?_⟩
  simp only [writeBlock, emitPayload, run_bind_eq_error_iff, run_get_eq_ok_iff,
    liftResult_eq_ok_iff, liftResult_eq_error_iff]
  refine Or.inr ⟨w, w, ⟨rfl, rfl⟩, Or.inr ⟨(), w, ⟨hcheck, rfl⟩, Or.inr ⟨(), _, hseek,
    Or.inr ⟨(), _, hemit, Or.inr ⟨_, _, ⟨rfl, rfl⟩, Or.inl ⟨?_, rfl⟩⟩⟩⟩⟩⟩
  exact halign

theorem Inv.withInner {w : Writer} (h : w.Inv) {s : Sink} {bytes : List UInt8}
    (happends : w.inner.Appends bytes s) : (w.withInner s).Inv := by
  have hblocks := h.blocksWritten_le
  refine { h with atEnd := happends.atEnd, blocksWritten_le := ?_ }
  show 8 * w.blocksWritten ≤ s.data.length
  rw [happends.data_eq, List.length_append]
  omega

/-- The invariant holds in every reachable state. -/
theorem Reachable.inv {w : Writer} (h : w.Reachable) : w.Inv := by
  induction h with
  | new hopened =>
      obtain ⟨hshift, -, s, happends, rfl⟩ := new_eq_ok_iff.1 hopened
      exact ⟨hshift.1, hshift.2, rfl, rfl, happends.atEnd, Nat.zero_le _⟩
  | accepted _ hcall ih =>
      obtain ⟨-, -, -, -, s, happends, rfl⟩ := (writeBlock_eq_ok_iff ih).1 hcall
      exact afterBlock_inv ih happends (eight_le_encoded_length _ _)
  | failed _ hcall ih =>
      rcases writeBlock_eq_error ih hcall with ⟨-, stored, s, happends, rfl⟩ | ⟨-, rfl⟩ |
        ⟨-, -, s, happends, rfl⟩
      · exact ih.withInner happends
      · exact ih
      · exact ih.withInner happends
  | @resized w inner _ hdata hposition ih =>
      refine { ih with atEnd := ?_, blocksWritten_le := ?_ }
      · have hpos : w.inner.position = w.inner.data.length := ih.atEnd
        show inner.position = inner.data.length
        rw [hdata, hposition, hpos]
      · show 8 * w.blocksWritten ≤ inner.data.length
        rw [hdata]
        exact ih.blocksWritten_le

/-! ### Runs -/

/-- One event of a writer's life: a call, or a change of the sink's room. -/
inductive Event
  | write (call : BlockWrite)
  | resize (capacity : Nat)

/-- The sink gets another capacity, if the bytes it holds fit and it is legal. -/
def resize (capacity : Nat) (w : Writer) : Writer :=
  if h : w.inner.data.length ≤ capacity ∧ capacity < u64Bound then
    w.withInner { w.inner with capacity, length_le := h.1, capacity_lt := h.2 }
  else w

/-- The state after an event, whatever the call returned. -/
def step (w : Writer) : Event → Writer
  | .write call =>
      match writeBlock call w with
      | .ok () w' => w'
      | .error _ w' => w'
  | .resize capacity => w.resize capacity

/-- The event is a call that fails, and not in the sink. -/
def rejects (w : Writer) : Event → Bool
  | .write call =>
      match writeBlock call w with
      | .ok () _ => false
      | .error e _ => decide (e ≠ .io .sink)
  | .resize _ => false

/-- The state after a run of events. -/
def run (w : Writer) : List Event → Writer
  | [] => w
  | event :: rest => (w.step event).run rest

/-- The run without its rejected calls. -/
def dropRejected (w : Writer) : List Event → List Event
  | [] => []
  | event :: rest =>
      if w.rejects event then (w.step event).dropRejected rest
      else event :: (w.step event).dropRejected rest

/-- No call of the run is torn. -/
def NeverTorn (w : Writer) : List Event → Prop
  | [] => True
  | event :: rest => (∀ call, event = .write call → ¬ w.HeaderTorn call) ∧
      (w.step event).NeverTorn rest

theorem step_reachable {w : Writer} (h : w.Reachable) (event : Event) : (w.step event).Reachable := by
  cases event with
  | write call =>
      show (match writeBlock call w with | .ok () w' => w' | .error _ w' => w').Reachable
      cases hrun : writeBlock call w with
      | ok u w' => exact Reachable.accepted h hrun
      | error e w' => exact Reachable.failed h hrun
  | resize capacity =>
      show (w.resize capacity).Reachable
      unfold resize
      split
      next => exact Reachable.resized h rfl rfl
      next => exact h

/-- A call that is not torn and fails outside the sink changes nothing. -/
theorem writeBlock_error_unchanged {w w' : Writer} {call : BlockWrite} {e : WriterError}
    (h : w.Reachable) (hwhole : ¬ w.HeaderTorn call) (hrun : writeBlock call w = .error e w')
    (he : e ≠ .io .sink) : w' = w := by
  rcases writeBlock_eq_error h.inv hrun with ⟨hsink, -⟩ | ⟨-, hsame⟩ | ⟨-, htorn, -⟩
  · exact absurd hsink he
  · exact hsame
  · exact absurd htorn hwhole

/-- Dropping the rejected calls of a run without torn calls keeps its result. -/
theorem run_dropRejected {w : Writer} {events : List Event} (h : w.Reachable)
    (hwhole : w.NeverTorn events) : w.run (w.dropRejected events) = w.run events := by
  induction events generalizing w with
  | nil => rfl
  | cons event rest ih =>
      have hrest := ih (step_reachable h event) hwhole.2
      rw [dropRejected, run]
      cases hreject : w.rejects event with
      | false =>
          rw [if_neg (by decide), run]
          exact hrest
      | true =>
          -- The rejected event is a call, and it left the state alone.
          rw [if_pos rfl]
          cases event with
          | resize capacity => cases hreject
          | write call =>
              simp only [rejects] at hreject
              have hsame : w.step (.write call) = w := by
                simp only [step]
                cases hrun : writeBlock call w with
                | ok u w' =>
                    rw [hrun] at hreject
                    cases hreject
                | error e w' =>
                    rw [hrun] at hreject
                    exact writeBlock_error_unchanged h (hwhole.1 call rfl) hrun
                      (of_decide_eq_true hreject)
              rw [hsame] at hrest ⊢
              exact hrest

/-- Rejected blocks.  In a reachable state a call leaves the writer as it was
under every error but the sink's exactly when it is not torn; and a run without
torn calls ends, and finishes, as if its rejected calls had not been made. -/
theorem rejected_block_leaves_writer {w : Writer} (hreach : w.Reachable) :
    (∀ call, (∀ e w', writeBlock call w = .error e w' → e ≠ .io .sink → w' = w) ↔
      ¬ w.HeaderTorn call) ∧
      ∀ events, w.NeverTorn events →
        w.run (w.dropRejected events) = w.run events ∧
          finish (w.run (w.dropRejected events)) = finish (w.run events) := by
  refine ⟨?_, ?_⟩
  · intro call
    constructor
    · intro hkeeps htorn
      obtain ⟨s, happends, hrun⟩ := htorn.writeBlock_eq hreach.inv
      have hsame := hkeeps _ _ hrun (by decide)
      -- The torn state is longer by at least the anchor.
      have hlonger := congrArg (fun v : Writer => v.inner.data.length) hsame
      simp only [withInner_inner, happends.data_eq, List.length_append,
        call.headerBytes_length] at hlonger
      split at hlonger <;> omega
    · intro hwhole e w' hrun he
      exact writeBlock_error_unchanged hreach hwhole hrun he
  · intro events hwhole
    have hrun := run_dropRejected hreach hwhole
    exact ⟨hrun, by rw [hrun]⟩

/-- An empty sink that may grow to the last `u64` position. -/
def widestSink : Sink where
  data := []
  position := 0
  capacity := 2 ^ 64 - 1
  length_le := Nat.zero_le _
  capacity_lt := by decide

/-- An empty array whose payload is aligned to `2 ^ 63` from base shift 3. -/
def farAlignedWrite : BlockWrite where
  options := { keyId := 0, physical := .array, continuation := false, payloadShift := 60 }
  semantic := .opaqueBytes
  bitWidth := 8
  count := 0
  payload := []

theorem farAlignedWrite_valid : farAlignedWrite.Valid 3 :=
  ⟨by decide, by decide, by decide, by decide, by decide, by decide⟩

theorem farAlignedWrite_payloadStart :
    farAlignedWrite.payloadStart 3 (roundUp 24 (2 ^ 3)) = 2 ^ 63 := by
  decide +kernel

/-- A writer on such a sink: the header takes 24 bytes, and the data region starts there. -/
theorem exists_widestWriter :
    ∃ s₀ : Sink, s₀.data.length = 24 ∧ s₀.capacity = 2 ^ 64 - 1 ∧
      new widestSink 3 .knownSize = .ok ⟨s₀, 3, 2 ^ 3, dataStart 3, .knownSize, 0, none⟩ := by
  obtain ⟨s₀, hopen⟩ := @ByteSink.exists_appends _ widestSink
    (headerBytes 3 .knownSize ++ List.replicate (dataStart 3 - 24) 0) (by decide +kernel)
  refine ⟨s₀, ?_, hopen.capacity_eq, new_eq_ok_iff.2 ⟨by decide, ⟨rfl, rfl⟩, s₀, hopen, rfl⟩⟩
  rw [hopen.data_eq]
  decide +kernel

/-- The same block with a byte of payload that its count does not announce. -/
def refusedWrite : BlockWrite := { farAlignedWrite with payload := [0] }

/-- A call that fails its checks returns at once. -/
theorem writeBlock_of_checkBlock {w : Writer} {call : BlockWrite} {e : WriterError}
    (h : checkBlock w call = .error e) : writeBlock call w = .error e w := by
  simp only [writeBlock, run_bind_eq_error_iff, run_get_eq_ok_iff, liftResult_eq_error_iff,
    liftResult_eq_ok_iff]
  exact Or.inr ⟨w, w, ⟨rfl, rfl⟩, Or.inl ⟨h, rfl⟩⟩

/-- A refused block before the first such block, whose payload starts at a `u64`. -/
theorem rejected_block_leaves_writer_refused :
    ∃ w, new widestSink 3 .knownSize = .ok w ∧
      writeBlock refusedWrite w = .error .payloadLengthMismatch w ∧
      (∀ e w', writeBlock farAlignedWrite w = .error e w' → e ≠ .io .sink → w' = w) ∧
      w.rejects (.write refusedWrite) = true ∧
      finish (w.run (w.dropRejected [.write refusedWrite, .write farAlignedWrite])) =
        finish (w.run [.write refusedWrite, .write farAlignedWrite]) := by
  obtain ⟨s₀, hlen₀, -, hnew⟩ := exists_widestWriter
  let w : Writer := ⟨s₀, 3, 2 ^ 3, dataStart 3, .knownSize, 0, none⟩
  have hwhole : ¬ w.HeaderTorn farAlignedWrite := by
    intro htorn
    have hoverflows : u64Bound ≤
        farAlignedWrite.headerEnd (roundUp s₀.data.length (2 ^ 3)) + (2 ^ 63 - 1) :=
      htorn.payload_overflows
    rw [hlen₀] at hoverflows
    exact absurd hoverflows (by decide +kernel)
  have hrefused : writeBlock refusedWrite w = .error .payloadLengthMismatch w :=
    writeBlock_of_checkBlock rfl
  have hinvalid : ¬ w.HeaderTorn refusedWrite := fun htorn =>
    absurd htorn.valid.payload_lt (by decide)
  have hstep : w.step (.write refusedWrite) = w := by
    simp only [step, hrefused]
  obtain ⟨hcall, hrun⟩ := rejected_block_leaves_writer (Reachable.new hnew)
  refine ⟨w, hnew, hrefused, (hcall farAlignedWrite).2 hwhole, ?_, (hrun _ ?_).2⟩
  · simp only [rejects, hrefused]
    rfl
  · refine ⟨fun call heq => ?_, ?_⟩
    · cases heq
      exact hinvalid
    · rw [hstep]
      refine ⟨fun call heq => ?_, trivial⟩
      cases heq
      exact hwhole

/-- The second such block is rejected after its header was written: the state
that the rejected call leaves holds eight more bytes. -/
theorem farAlignedWrite_tears :
    ∃ w₀ w₁ w₂ : Writer, new widestSink 3 .knownSize = .ok w₀ ∧
      writeBlock farAlignedWrite w₀ = .ok () w₁ ∧
      writeBlock farAlignedWrite w₁ = .error .arithmeticOverflow w₂ ∧
      w₂.inner.data.length = w₁.inner.data.length + 8 := by
  obtain ⟨s₀, hlen₀, hcap₀, hnew⟩ := exists_widestWriter
  let w₀ : Writer := ⟨s₀, 3, 2 ^ 3, dataStart 3, .knownSize, 0, none⟩
  have hinv₀ : w₀.Inv := (Reachable.new hnew).inv
  -- The first block ends at its payload start, `2 ^ 63`.
  have hstart₀ : w₀.nextStart = 24 := by
    show roundUp s₀.data.length (2 ^ 3) = 24
    rw [hlen₀]
    decide
  have hend : w₀.inner.data.length + (w₀.gap ++
      (farAlignedWrite.paddedHeader 3 w₀.nextStart ++ farAlignedWrite.payload)).length = 2 ^ 63 := by
    have hpayload := farAlignedWrite.encoded_length 3 w₀.nextStart
    have hgrows := farAlignedWrite.lt_payloadEnd 3 w₀.nextStart
    have hgap := w₀.length_add_gap
    have hfar : farAlignedWrite.payloadEnd 3 w₀.nextStart = 2 ^ 63 := by
      rw [hstart₀]
      exact farAlignedWrite_payloadStart
    rw [List.length_append, hpayload]
    omega
  obtain ⟨s₁, hfirst⟩ := @ByteSink.exists_appends _ w₀.inner (w₀.gap ++
    (farAlignedWrite.paddedHeader 3 w₀.nextStart ++ farAlignedWrite.payload)) (by
      rw [hend]
      show 2 ^ 63 ≤ s₀.capacity
      rw [hcap₀]
      decide)
  have hwrite : writeBlock farAlignedWrite w₀ = .ok () (w₀.afterBlock farAlignedWrite s₁) := by
    refine (writeBlock_eq_ok_iff hinv₀).2 ⟨farAlignedWrite_valid, ?_, fun _ => ?_, ⟨?_, ?_⟩, s₁,
      hfirst, rfl⟩
    · intro key hkey
      cases hkey
    · show s₀.data.length = dataStart 3
      rw [hlen₀]
      decide
    · show s₀.data.length + (2 ^ 3 - 1) < u64Bound
      rw [hlen₀]
      decide
    · show farAlignedWrite.headerEnd (roundUp s₀.data.length (2 ^ 3)) + (2 ^ 63 - 1) < u64Bound
      rw [hlen₀]
      decide +kernel
  have hlen₁ : s₁.data.length = 2 ^ 63 := by
    rw [hfirst.data_eq, List.length_append]
    exact hend
  -- The second one puts its header there, and its payload start would be `2 ^ 64`.
  have hinv₁ := (Reachable.accepted (Reachable.new hnew) hwrite).inv
  have hstart₁ : (w₀.afterBlock farAlignedWrite s₁).nextStart = 2 ^ 63 := by
    show roundUp s₁.data.length (2 ^ 3) = 2 ^ 63
    rw [hlen₁]
    decide
  have htorn : (w₀.afterBlock farAlignedWrite s₁).HeaderTorn farAlignedWrite := by
    refine ⟨farAlignedWrite_valid, ?_, ?_, ?_, ?_, ?_⟩
    · intro key hkey
      cases hkey
    · intro hzero
      cases hzero
    · show s₁.data.length + (2 ^ 3 - 1) < u64Bound
      rw [hlen₁]
      decide
    · rw [hstart₁]
      show u64Bound ≤ farAlignedWrite.headerEnd (2 ^ 63) + (2 ^ 63 - 1)
      decide +kernel
    · rw [hstart₁]
      show farAlignedWrite.headerEnd (2 ^ 63) ≤ s₁.capacity
      rw [hfirst.capacity_eq]
      show _ ≤ s₀.capacity
      rw [hcap₀]
      decide +kernel
  obtain ⟨s₂, hsecond, hfails⟩ := htorn.writeBlock_eq hinv₁
  refine ⟨w₀, _, _, hnew, hwrite, hfails, ?_⟩
  have hgap : (w₀.afterBlock farAlignedWrite s₁).gap.length = 0 := by
    have hsum := (w₀.afterBlock farAlignedWrite s₁).length_add_gap
    have hinner : (w₀.afterBlock farAlignedWrite s₁).inner.data.length = 2 ^ 63 := hlen₁
    omega
  have hheader : farAlignedWrite.headerBytes.length = 8 := by decide
  rw [withInner_inner, hsecond.data_eq, List.length_append, List.length_append, hgap, hheader]

end Writer

end VBuf.V06
