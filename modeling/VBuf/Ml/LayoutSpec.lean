import VBuf.Ml.Layout
import VBuf.V06.WriterSpec

/-!
# Planned and emitted positions

`Placed` is the placement that the canonical encoding gives a list of requests,
over unbounded positions.  The planner computes it as long as no sum wraps, and
the layout writer succeeds exactly when the canonical writer does and the plan
is that placement.
-/

namespace VBuf.Ml

open VBuf.Lib VBuf.V06

theorem wrappingSub_eq {a b : Nat} (hle : b ≤ a) (ha : a < u64Bound) :
    wrappingSub a b = a - b := by
  have hsum : a + (u64Bound - b) = a - b + u64Bound := by omega
  rw [wrappingSub, hsum, Nat.add_mod_right, Nat.mod_eq_of_lt (by omega)]

/-- The subtraction undoes a sum that reaches `2 ^ 64` and no more. -/
theorem wrappingSub_wrappingAdd_one {value alignment : Nat} (hpos : 0 < alignment)
    (hfits : value + (alignment - 1) < u64Bound) :
    wrappingSub (wrappingAdd value alignment) 1 = value + (alignment - 1) := by
  unfold wrappingSub wrappingAdd
  unfold u64Bound at hfits ⊢
  omega

theorem wrappingAlignUp_eq {value shift : Nat} (hshift : shift ≤ 63)
    (hfits : value + (2 ^ shift - 1) < u64Bound) :
    wrappingAlignUp value (2 ^ shift) = roundUp value (2 ^ shift) := by
  have hpow := Nat.two_pow_pos shift
  have hlt : 2 ^ shift < u64Bound := Nat.pow_lt_pow_right (by decide) (by omega)
  rw [wrappingAlignUp, wrappingSub_wrappingAdd_one hpow hfits, wrappingSub_eq hpow hlt]
  exact and_complement64_eq_roundUp (by omega) hfits

theorem layoutAdd_eq_ok_iff {a b r : Nat} {detail : String} :
    layoutAdd a b detail = .ok r ↔ a + b < u64Bound ∧ r = a + b := by
  unfold layoutAdd
  by_cases h : a + b < u64Bound <;> simp [h, eq_comm]

theorem trailingZeros_two_pow {bit : Nat} (hbit : bit < 64) : trailingZeros (2 ^ bit) = bit := by
  have hfind : (List.range 64).find? (fun i => (2 ^ bit).testBit i) = some bit := by
    rw [List.find?_range_eq_some]
    refine ⟨?_, List.mem_range.2 hbit, ?_⟩
    · simp
    · intro j hj
      have hne : bit ≠ j := by omega
      simp [hne]
  rw [trailingZeros, hfind, Option.getD_some]

theorem trailingZeros_two_pow_of_ge {bit : Nat} (hbit : 64 ≤ bit) :
    trailingZeros (2 ^ bit) = 64 := by
  have hfind : (List.range 64).find? (fun i => (2 ^ bit).testBit i) = none := by
    rw [List.find?_eq_none]
    intro i hi
    have hne : bit ≠ i := by
      have hlt := List.mem_range.1 hi
      omega
    simp [hne]
  rw [trailingZeros, hfind, Option.getD_none]

/-- The shift is the one that writes the alignment as a refinement of the base
step. -/
theorem payloadShift_eq_ok_iff {baseShift alignment shift : Nat} :
    payloadShift baseShift alignment = .ok shift ↔
      (3 ≤ baseShift ∧ baseShift ≤ 8) ∧ baseShift + shift ≤ 63 ∧
        alignment = 2 ^ (baseShift + shift) := by
  simp only [payloadShift, bind_eq_ok_iff, rejectIf_eq_ok_iff, not_not, not_or, not_lt,
    pure_eq_ok_iff, exists_const]
  constructor
  · intro h
    obtain ⟨hbase, ⟨hle, ⟨bit, rfl⟩, -⟩, hshift, rfl⟩ := h
    have hbit : baseShift ≤ bit := (Nat.pow_le_pow_iff_right (by decide)).1 hle
    rcases Nat.lt_or_ge bit 64 with hlt | hge
    · rw [trailingZeros_two_pow hlt] at hshift ⊢
      exact ⟨hbase, hshift, by rw [Nat.add_sub_cancel' hbit]⟩
    · rw [trailingZeros_two_pow_of_ge hge] at hshift
      omega
  · intro h
    obtain ⟨hbase, hshift, rfl⟩ := h
    rw [trailingZeros_two_pow (by omega), Nat.add_sub_cancel_left]
    exact ⟨hbase, ⟨Nat.pow_le_pow_right (by decide) (by omega), ⟨_, rfl⟩,
      Nat.mod_eq_zero_of_dvd (pow_dvd_pow 2 (by omega))⟩, hshift, rfl⟩

/-! ### Placements -/

/-- The bytes before the payload padding. -/
def PlacementLengthRequest.headerSize (request : PlacementLengthRequest) : Nat :=
  if 65535 < request.count then 16 else 8

/-- The entry puts the request where the canonical writer would at `position`. -/
structure PlacedAt (baseShift position : Nat) (request : PlacementLengthRequest)
    (entry : PlannedBlock) : Prop where
  keyId_eq : entry.keyId = request.keyId
  shift_le : baseShift + entry.payloadShift ≤ 63
  alignment_eq : request.payloadAlignment = 2 ^ (baseShift + entry.payloadShift)
  blockStart_eq : entry.blockStart = roundUp position (2 ^ baseShift)
  payloadStart_eq : entry.payloadStart =
    roundUp (entry.blockStart + request.headerSize) request.payloadAlignment
  payloadEnd_eq : entry.payloadEnd = entry.payloadStart + request.payloadLen

/-- The entries put the requests one after the other from `position` on. -/
def Placed (baseShift : Nat) :
    Nat → List (PlacementLengthRequest × Nat) → List PlannedBlock → Prop
  | _, [], [] => True
  | position, (request, requestIndex) :: rest, entry :: entries =>
      entry.requestIndex = requestIndex ∧ PlacedAt baseShift position request entry ∧
        Placed baseShift entry.payloadEnd rest entries
  | _, _, _ => False

/-- Where the last entry ends. -/
def placedEnd : Nat → List PlannedBlock → Nat
  | position, [] => position
  | _, entry :: entries => placedEnd entry.payloadEnd entries

/-- The two roundings that place a request at `position` stay below `2 ^ 64`, which is
what the canonical writer checks. -/
structure PlacementLengthRequest.FitsAt (baseShift position : Nat)
    (request : PlacementLengthRequest) : Prop where
  start_fits : position + (2 ^ baseShift - 1) < u64Bound
  payload_fits : roundUp position (2 ^ baseShift) + request.headerSize +
    (request.payloadAlignment - 1) < u64Bound

namespace LayoutPlan

/-- The entry that one iteration computes. -/
def plannedEntry (baseShift : Nat) (request : PlacementLengthRequest) (requestIndex shift : Nat)
    (state : Cursor) : PlannedBlock :=
  let blockStart := wrappingAlignUp state.cursor (2 ^ baseShift)
  let headerEnd := blockStart + request.headerSize
  let payloadStart := wrappingAlignUp headerEnd (2 ^ (baseShift + shift))
  { requestIndex
    keyId := request.keyId
    occurrence := state.occurrences request.keyId
    payloadShift := shift
    blockStart
    payloadStart
    payloadEnd := payloadStart + request.payloadLen
    blockPadding := wrappingSub blockStart state.cursor
    innerPadding := wrappingSub payloadStart headerEnd }

/-- The loop variables after it. -/
def nextCursor (request : PlacementLengthRequest) (entry : PlannedBlock) (state : Cursor) :
    Cursor where
  cursor := entry.payloadEnd
  occurrences := fun key =>
    if key = request.keyId then state.occurrences request.keyId + 1 else state.occurrences key
  payloadBytes := state.payloadBytes + request.payloadLen
  headerBytes := wrappingAdd state.headerBytes request.headerSize

/-- What one accepted iteration does. -/
theorem planBlock_eq_ok_iff {baseShift requestIndex : Nat} {request : PlacementLengthRequest}
    {state : Cursor} {entry : PlannedBlock} {next : Cursor} :
    planBlock baseShift request requestIndex state = .ok (entry, next) ↔
      ∃ shift, payloadShift baseShift request.payloadAlignment = .ok shift ∧
        state.occurrences request.keyId ≤ 65535 ∧
        wrappingAlignUp state.cursor (2 ^ baseShift) + request.headerSize < u64Bound ∧
        entry.payloadEnd < u64Bound ∧ state.payloadBytes + request.payloadLen < u64Bound ∧
        entry = plannedEntry baseShift request requestIndex shift state ∧
        next = nextCursor request entry state := by
  simp only [planBlock, bind_eq_ok_iff, rejectIf_eq_ok_iff, layoutAdd_eq_ok_iff, pure_eq_ok_iff,
    not_lt, exists_const, Prod.mk.injEq]
  constructor
  · intro h
    obtain ⟨shift, hshift, hocc, _, ⟨hheader, rfl⟩, _, ⟨hpayload, rfl⟩, _, ⟨hbytes, rfl⟩, rfl, rfl⟩ := h
    exact ⟨shift, hshift, hocc, hheader, hpayload, hbytes, rfl, rfl⟩
  · intro h
    obtain ⟨shift, hshift, hocc, hheader, hpayload, hbytes, rfl, rfl⟩ := h
    exact ⟨shift, hshift, hocc, _, ⟨hheader, rfl⟩, _, ⟨hpayload, rfl⟩, _, ⟨hbytes, rfl⟩, rfl, rfl⟩

/-- Without a wrapping sum one iteration places its request. -/
theorem planBlock_placedAt {baseShift requestIndex : Nat} {request : PlacementLengthRequest}
    {state next : Cursor} {entry : PlannedBlock} (hfits : request.FitsAt baseShift state.cursor)
    (hplan : planBlock baseShift request requestIndex state = .ok (entry, next)) :
    entry.requestIndex = requestIndex ∧ PlacedAt baseShift state.cursor request entry ∧
      next.cursor = entry.payloadEnd := by
  obtain ⟨shift, hshift, -, -, -, -, rfl, rfl⟩ := planBlock_eq_ok_iff.1 hplan
  obtain ⟨hbase, hle, halign⟩ := payloadShift_eq_ok_iff.1 hshift
  have hstart : wrappingAlignUp state.cursor (2 ^ baseShift) =
      roundUp state.cursor (2 ^ baseShift) := wrappingAlignUp_eq (by omega) hfits.start_fits
  have hpayload := hfits.payload_fits
  rw [halign, ← hstart] at hpayload
  refine ⟨rfl, ⟨rfl, hle, halign, hstart, ?_, rfl⟩, rfl⟩
  rw [halign]
  exact wrappingAlignUp_eq (by omega) hpayload

end LayoutPlan

/-! ### The layout writer -/

/-- The requests with their indices, in placement order. -/
def orderedRequests (requests : List PlacementRequest) : List (PlacementRequest × Nat) :=
  requests.zipIdx.insertionSort
    (fun a b => LayoutPlan.SortsBefore (a.1.lengthRequest, a.2) (b.1.lengthRequest, b.2))

theorem sorted_lengthRequest (requests : List PlacementRequest) :
    LayoutPlan.sorted (requests.map PlacementRequest.lengthRequest) =
      (orderedRequests requests).map (fun pair => (pair.1.lengthRequest, pair.2)) := by
  rw [LayoutPlan.sorted, orderedRequests, List.zipIdx_map]
  symm
  apply List.map_insertionSort
  intro a _ b _
  exact Iff.rfl

theorem getElem?_of_mem_orderedRequests {requests : List PlacementRequest}
    {pair : PlacementRequest × Nat} (h : pair ∈ orderedRequests requests) :
    requests[pair.2]? = some pair.1 := by
  have hmem := (List.mem_insertionSort _).1 h
  exact List.mem_zipIdx_iff_getElem?.1 hmem

/-- The call of a request, its payload shift read off the alignment. -/
def PlacementRequest.call (baseShift : Nat) (request : PlacementRequest) : BlockWrite :=
  request.toWrite (request.payloadAlignment.log2 - baseShift)

/-- The calls of the layout writer. -/
def layoutCalls (baseShift : Nat) (requests : List PlacementRequest) : List BlockWrite :=
  (orderedRequests requests).map (fun pair => pair.1.call baseShift)

theorem PlacementRequest.toWrite_eq_call {baseShift shift : Nat} {request : PlacementRequest}
    (h : payloadShift baseShift request.payloadAlignment = .ok shift) :
    request.toWrite shift = request.call baseShift := by
  obtain ⟨-, -, halign⟩ := payloadShift_eq_ok_iff.1 h
  rw [call, halign, Nat.log2_two_pow, Nat.add_sub_cancel_left]

/-- A request that the canonical writer takes at a position is planned there. -/
theorem PlacementRequest.fitsAt {baseShift position shift : Nat} {request : PlacementRequest}
    (h : payloadShift baseShift request.payloadAlignment = .ok shift)
    (hfits : (request.call baseShift).FitsAt baseShift position) :
    request.lengthRequest.FitsAt baseShift position := by
  obtain ⟨-, -, halign⟩ := payloadShift_eq_ok_iff.1 h
  have hpayload := hfits.payload_fits
  rw [← request.toWrite_eq_call h, BlockWrite.headerEnd, BlockWrite.headerBytes_length] at hpayload
  refine ⟨hfits.start_fits, ?_⟩
  show _ + _ + (request.payloadAlignment - 1) < _
  rw [halign]
  exact hpayload

/-- A placed entry ends where the canonical block ends. -/
theorem PlacedAt.payloadEnd_call {baseShift position : Nat} {request : PlacementRequest}
    {entry : PlannedBlock} (h : PlacedAt baseShift position request.lengthRequest entry) :
    entry.payloadStart =
        (request.call baseShift).payloadStart baseShift (roundUp position (2 ^ baseShift)) ∧
      entry.payloadEnd =
        (request.call baseShift).payloadEnd baseShift (roundUp position (2 ^ baseShift)) := by
  have halign : request.payloadAlignment = 2 ^ (baseShift + entry.payloadShift) := h.alignment_eq
  have hstart : entry.payloadStart =
      (request.call baseShift).payloadStart baseShift (roundUp position (2 ^ baseShift)) := by
    rw [h.payloadStart_eq, h.blockStart_eq, BlockWrite.payloadStart, BlockWrite.headerEnd,
      BlockWrite.headerBytes_length]
    show roundUp _ request.payloadAlignment = roundUp _ (2 ^ (baseShift + (_ - baseShift)))
    rw [halign, Nat.log2_two_pow, Nat.add_sub_cancel_left]
    rfl
  refine ⟨hstart, ?_⟩
  rw [h.payloadEnd_eq, hstart]
  rfl

/-- A writer that took the call of a planned request stands at the planned end:
no sum of the plan wrapped. -/
theorem position_of_writeBlock {request : PlacementRequest} {requestIndex : Nat}
    {state next : LayoutPlan.Cursor} {entry : PlannedBlock} {w w' : Writer} (h : w.Inv)
    (hposition : state.cursor = w.inner.data.length)
    (hplan : LayoutPlan.planBlock w.baseShift request.lengthRequest requestIndex state =
      .ok (entry, next))
    (hwrite : Writer.writeBlock (request.call w.baseShift) w = .ok () w') :
    entry.requestIndex = requestIndex ∧
      PlacedAt w.baseShift state.cursor request.lengthRequest entry ∧
      next.cursor = entry.payloadEnd ∧ w'.inner.data.length = entry.payloadEnd ∧ w'.Inv ∧
      w'.baseShift = w.baseShift ∧ w'.mode = w.mode := by
  obtain ⟨shift, hshift, -⟩ := LayoutPlan.planBlock_eq_ok_iff.1 hplan
  obtain ⟨-, -, -, hfits, s, happends, rfl⟩ := (Writer.writeBlock_eq_ok_iff h).1 hwrite
  obtain ⟨hindex, hplaced, hnext⟩ := LayoutPlan.planBlock_placedAt
    (request.fitsAt hshift (hposition ▸ hfits)) hplan
  refine ⟨hindex, hplaced, hnext, ?_,
    Writer.afterBlock_inv h happends (w.eight_le_encoded_length _), rfl, rfl⟩
  have hlt := (request.call w.baseShift).lt_payloadEnd w.baseShift w.nextStart
  have hgap := w.length_add_gap
  show s.data.length = _
  rw [hplaced.payloadEnd_call.2, hposition, happends.data_eq, List.length_append,
    List.length_append, BlockWrite.encoded_length]
  show _ = (request.call w.baseShift).payloadEnd w.baseShift w.nextStart
  omega

/-- One request through both loops: the layout writer takes its entry exactly
when the canonical writer takes its call. -/
theorem writeEntry_eq_ok_iff {requests : List PlacementRequest} {request : PlacementRequest}
    {requestIndex : Nat} {state next : LayoutPlan.Cursor} {entry : PlannedBlock} {w w' : Writer}
    (h : w.Inv) (hposition : state.cursor = w.inner.data.length)
    (hrequest : requests[requestIndex]? = some request)
    (hplan : LayoutPlan.planBlock w.baseShift request.lengthRequest requestIndex state =
      .ok (entry, next)) :
    writeEntry requests entry w = .ok w' ↔
      Writer.writeBlock (request.call w.baseShift) w = .ok () w' := by
  obtain ⟨shift, hshift, -, -, -, -, hentry, -⟩ := LayoutPlan.planBlock_eq_ok_iff.1 hplan
  have hlookup : requests[entry.requestIndex]? = some request := by
    rw [hentry]
    exact hrequest
  have hcall : request.toWrite entry.payloadShift = request.call w.baseShift := by
    rw [hentry]
    exact request.toWrite_eq_call hshift
  have hpos : w.inner.streamPosition = w.inner.data.length := h.atEnd
  simp only [writeEntry, hlookup, okOr, bind_eq_ok_iff, rejectIf_eq_ok_iff, hcall, hpos, not_lt,
    Except.ok.injEq, exists_eq_left', exists_const]
  cases hwrite : Writer.writeBlock (request.call w.baseShift) w with
  | error e w₁ => simp
  | ok u w₁ =>
      obtain ⟨-, hplaced, -, hlength, hinv, -⟩ := position_of_writeBlock h hposition hplan hwrite
      have hstart : w.inner.data.length ≤ entry.blockStart := by
        rw [hplaced.blockStart_eq, hposition]
        exact le_roundUp (Nat.two_pow_pos _)
      have hend : w₁.inner.streamPosition = entry.payloadEnd := Eq.trans hinv.atEnd hlength
      simp only [hstart, hend, bind_eq_ok_iff, rejectIf_eq_ok_iff, pure_eq_ok_iff, ne_eq,
        not_true_eq_false, not_false_eq_true, exists_const, true_and, EStateM.Result.ok.injEq]

/-- All requests through both loops, by induction on the placement order. -/
theorem writeEntries_eq_ok_iff {requests : List PlacementRequest}
    {ordered : List (PlacementRequest × Nat)} {state final : LayoutPlan.Cursor}
    {entries : List PlannedBlock} {w w' : Writer} (h : w.Inv)
    (hposition : state.cursor = w.inner.data.length)
    (hlookup : ∀ pair ∈ ordered, requests[pair.2]? = some pair.1)
    (hplan : LayoutPlan.planBlocks w.baseShift
      (ordered.map (fun pair => (pair.1.lengthRequest, pair.2))) state = .ok (entries, final)) :
    writeEntries requests entries w = .ok w' ↔
      Writer.writeBlocks (ordered.map (fun pair => pair.1.call w.baseShift)) w = .ok () w' := by
  induction ordered generalizing state entries w with
  | nil =>
      obtain ⟨rfl, rfl⟩ := Prod.mk.inj (Except.ok.inj hplan)
      show Except.ok w = .ok w' ↔ EStateM.Result.ok () w = .ok () w'
      simp
  | cons pair rest ih =>
      simp only [List.map_cons, LayoutPlan.planBlocks, bind_eq_ok_iff, pure_eq_ok_iff,
        Prod.exists, Prod.mk.injEq] at hplan
      obtain ⟨entry, next, hblock, tail, last, hrest, rfl, rfl⟩ := hplan
      simp only [writeEntries, List.map_cons, Writer.writeBlocks, bind_eq_ok_iff,
        run_bind_eq_ok_iff, writeEntry_eq_ok_iff h hposition (hlookup _ List.mem_cons_self) hblock]
      constructor
      · intro hrun
        obtain ⟨w₁, hwrite, htail⟩ := hrun
        obtain ⟨-, -, hnext, hlength, hinv, hbase, -⟩ :=
          position_of_writeBlock h hposition hblock hwrite
        refine ⟨(), w₁, hwrite, ?_⟩
        rw [← hbase] at hrest ⊢
        exact (ih hinv (hnext.trans hlength.symm)
          (fun p hp => hlookup p (List.mem_cons_of_mem _ hp)) hrest).1 htail
      · intro hrun
        obtain ⟨_, w₁, hwrite, htail⟩ := hrun
        obtain ⟨-, -, hnext, hlength, hinv, hbase, -⟩ :=
          position_of_writeBlock h hposition hblock hwrite
        refine ⟨w₁, hwrite, ?_⟩
        rw [← hbase] at hrest htail
        exact (ih hinv (hnext.trans hlength.symm)
          (fun p hp => hlookup p (List.mem_cons_of_mem _ hp)) hrest).2 htail

/-- After a whole run the writer stands at the planned size, and the plan is the
canonical placement. -/
theorem placed_of_writeBlocks {ordered : List (PlacementRequest × Nat)}
    {state final : LayoutPlan.Cursor} {entries : List PlannedBlock} {w w' : Writer} (h : w.Inv)
    (hposition : state.cursor = w.inner.data.length)
    (hplan : LayoutPlan.planBlocks w.baseShift
      (ordered.map (fun pair => (pair.1.lengthRequest, pair.2))) state = .ok (entries, final))
    (hwrite : Writer.writeBlocks (ordered.map (fun pair => pair.1.call w.baseShift)) w =
      .ok () w') :
    w'.Inv ∧ w'.inner.data.length = final.cursor ∧
      Placed w.baseShift state.cursor
        (ordered.map (fun pair => (pair.1.lengthRequest, pair.2))) entries := by
  induction ordered generalizing state entries w with
  | nil =>
      obtain ⟨rfl, rfl⟩ := Prod.mk.inj (Except.ok.inj hplan)
      obtain ⟨-, rfl⟩ := EStateM.Result.ok.inj hwrite
      exact ⟨h, hposition.symm, trivial⟩
  | cons pair rest ih =>
      simp only [List.map_cons, LayoutPlan.planBlocks, bind_eq_ok_iff, pure_eq_ok_iff,
        Prod.exists, Prod.mk.injEq] at hplan
      obtain ⟨entry, next, hblock, tail, last, hrest, rfl, rfl⟩ := hplan
      simp only [List.map_cons, Writer.writeBlocks, run_bind_eq_ok_iff] at hwrite
      obtain ⟨_, w₁, hfirst, htail⟩ := hwrite
      obtain ⟨hindex, hplaced, hnext, hlength, hinv, hbase, -⟩ :=
        position_of_writeBlock h hposition hblock hfirst
      rw [← hbase] at hrest htail
      obtain ⟨hinv', hend, hplacedTail⟩ := ih hinv (hnext.trans hlength.symm) hrest htail
      rw [hbase, hnext] at hplacedTail
      exact ⟨hinv', hend, hindex, hplaced, hplacedTail⟩

theorem LayoutPlan.buildLengths_eq_ok_iff {requests : List PlacementLengthRequest}
    {baseShift : Nat} {plan : LayoutPlan} :
    buildLengths requests baseShift = .ok plan ↔
      (3 ≤ baseShift ∧ baseShift ≤ 8) ∧ (requests.map (fun request => request.order)).Nodup ∧
        ∃ entries final,
          planBlocks baseShift (sorted requests) ⟨dataStart baseShift, fun _ => 0, 0, 0⟩ =
            .ok (entries, final) ∧
          plan =
            { entries
              dataRegionStart := dataStart baseShift
              finalSize := final.cursor
              payloadBytes := final.payloadBytes
              headerBytes := final.headerBytes
              paddingBytes := wrappingSub (wrappingSub (wrappingSub final.cursor 24)
                final.payloadBytes) final.headerBytes } := by
  simp only [buildLengths, bind_eq_ok_iff, rejectIf_eq_ok_iff, pure_eq_ok_iff, not_not,
    exists_const, Prod.exists]
  refine and_congr_right fun hbase => and_congr_right fun _ => ?_
  have hpow : 2 ^ baseShift ≤ 2 ^ 8 := Nat.pow_le_pow_right (by decide) hbase.2
  have hstart : wrappingAlignUp 24 (2 ^ baseShift) = dataStart baseShift := by
    apply wrappingAlignUp_eq (by omega)
    unfold u64Bound
    omega
  rw [hstart]
  simp only [eq_comm]

/-- The writer that `new` opens stands at the data region. -/
theorem new_opened {inner : Sink} {baseShift : Nat} {mode : StreamMode} {w : Writer}
    (h : Writer.new inner baseShift mode = .ok w) :
    w.Inv ∧ w.baseShift = baseShift ∧ w.inner.data.length = dataStart baseShift := by
  obtain ⟨hbase, ⟨-, hdata⟩, s, happends, rfl⟩ := Writer.new_eq_ok_iff.1 h
  have hge := dataStart_ge baseShift
  refine ⟨⟨hbase.1, hbase.2, rfl, rfl, happends.atEnd, Nat.zero_le _⟩, rfl, ?_⟩
  show s.data.length = _
  rw [happends.data_eq, hdata, List.nil_append, List.length_append, Writer.headerBytes_length,
    List.length_replicate]
  omega

/-- The layout writer succeeds exactly when the requests can be planned and the
canonical writer takes their calls, and it leaves the canonical bytes. -/
theorem write_eq_ok_iff {inner s : Sink} {baseShift : Nat} {requests : List PlacementRequest}
    {mode : StreamMode} :
    write inner baseShift requests mode = .ok s ↔
      (∃ plan, LayoutPlan.build requests baseShift = .ok plan) ∧
        Writer.writeStream inner baseShift mode (layoutCalls baseShift requests) = .ok s := by
  simp only [write, LayoutPlan.build, Writer.writeStream, bind_eq_ok_iff, mapErr_eq_ok_iff,
    rejectIf_eq_ok_iff, exists_const, not_not, layoutCalls]
  have hrun : ∀ plan w, LayoutPlan.buildLengths
        (requests.map PlacementRequest.lengthRequest) baseShift = .ok plan →
      Writer.new inner baseShift mode = .ok w → ∀ w',
      (writeEntries requests plan.entries w = .ok w' ↔ Writer.writeBlocks
        ((orderedRequests requests).map (fun pair => pair.1.call baseShift)) w = .ok () w') ∧
      (Writer.writeBlocks ((orderedRequests requests).map (fun pair => pair.1.call baseShift)) w =
        .ok () w' → w'.inner.streamPosition = plan.finalSize) := by
    intro plan w hplan hnew w'
    obtain ⟨-, -, entries, final, hblocks, rfl⟩ := LayoutPlan.buildLengths_eq_ok_iff.1 hplan
    obtain ⟨hinv, hbase, hlength⟩ := new_opened hnew
    rw [sorted_lengthRequest] at hblocks
    subst hbase
    refine ⟨writeEntries_eq_ok_iff hinv hlength.symm
      (fun pair hpair => getElem?_of_mem_orderedRequests hpair) hblocks, ?_⟩
    intro hwrite
    obtain ⟨hinv', hend, -⟩ := placed_of_writeBlocks hinv hlength.symm hblocks hwrite
    exact Eq.trans hinv'.atEnd hend
  constructor
  · intro h
    obtain ⟨plan, hplan, w, hnew, w', hentries, -, hfinish⟩ := h
    refine ⟨⟨plan, hplan⟩, w, hnew, ?_⟩
    rw [((hrun plan w hplan hnew w').1).1 hentries]
    exact hfinish
  · intro h
    obtain ⟨⟨plan, hplan⟩, w, hnew, hstream⟩ := h
    cases hwrite : Writer.writeBlocks
        ((orderedRequests requests).map (fun pair => pair.1.call baseShift)) w with
    | error e w' =>
        rw [hwrite] at hstream
        cases hstream
    | ok u w' =>
        rw [hwrite] at hstream
        obtain ⟨hiff, hend⟩ := hrun plan w hplan hnew w'
        exact ⟨plan, hplan, w, hnew, w', hiff.2 hwrite, hend hwrite, hstream⟩

end VBuf.Ml
