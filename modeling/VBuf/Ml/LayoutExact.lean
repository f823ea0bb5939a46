import VBuf.Ml.LayoutSpec
import VBuf.V06.RoundTrip

/-!
# When the planner's sums are exact

The planner checks its ends and wraps in its two alignments.  A plan is the
placement over unbounded integers, made without a sum that wraps, exactly when no
alignment sum of that placement reaches `2 ^ 64`; then its totals are exact too.
-/

namespace VBuf.Ml

open VBuf.Lib VBuf.V06

/-- An alignment below a bound that the alignment divides needs no larger sum. -/
theorem add_lt_of_roundUp_lt {value shift bound : Nat} (hbound : 2 ^ shift ∣ bound)
    (h : roundUp value (2 ^ shift) < bound) : value + (2 ^ shift - 1) < bound := by
  by_contra hlarge
  have hpow := Nat.two_pow_pos shift
  have hlt : roundUp value (2 ^ shift) < value + 2 ^ shift := roundUp_lt_add hpow
  obtain ⟨k, rfl⟩ := hbound
  obtain ⟨j, hj⟩ := dvd_roundUp value (2 ^ shift)
  rw [hj] at h hlt
  have hjk : j < k := Nat.lt_of_mul_lt_mul_left h
  have hle : 2 ^ shift * (j + 1) ≤ 2 ^ shift * k := Nat.mul_le_mul_left _ hjk
  rw [Nat.mul_succ] at hle
  have hvalue : value ≤ roundUp value (2 ^ shift) := le_roundUp hpow
  rw [hj] at hvalue
  omega

/-- Where a request ends that is placed at `position`, over unbounded integers. -/
def PlacementLengthRequest.endAt (baseShift position : Nat) (request : PlacementLengthRequest) :
    Nat :=
  roundUp (roundUp position (2 ^ baseShift) + request.headerSize) request.payloadAlignment +
    request.payloadLen

/-- The two alignment sums that place a request at `position`, as the planner adds
them, stay below `2 ^ 64`. -/
structure PlacementLengthRequest.SumsFitAt (baseShift position : Nat)
    (request : PlacementLengthRequest) : Prop where
  start_fits : position + 2 ^ baseShift < u64Bound
  payload_fits : roundUp position (2 ^ baseShift) + request.headerSize +
    request.payloadAlignment < u64Bound

/-- No alignment sum of the unbounded placement from `position` on reaches
`2 ^ 64`. -/
def SumsFit (baseShift : Nat) : Nat → List (PlacementLengthRequest × Nat) → Prop
  | _, [] => True
  | position, (request, _) :: rest =>
      request.SumsFitAt baseShift position ∧
        SumsFit baseShift (request.endAt baseShift position) rest

/-- No rounding of the unbounded placement from `position` on reaches `2 ^ 64`; a sum
may reach it, as long as one less does not. -/
def AlignmentsFit (baseShift : Nat) : Nat → List (PlacementLengthRequest × Nat) → Prop
  | _, [] => True
  | position, (request, _) :: rest =>
      request.FitsAt baseShift position ∧
        AlignmentsFit baseShift (request.endAt baseShift position) rest

/-- The entries place the requests from `position` on and below `2 ^ 64`, each with
the padding that its position leaves. -/
def ExactFrom (baseShift : Nat) :
    Nat → List (PlacementLengthRequest × Nat) → List PlannedBlock → Prop
  | _, [], [] => True
  | position, (request, requestIndex) :: rest, entry :: entries =>
      (entry.requestIndex = requestIndex ∧ PlacedAt baseShift position request entry ∧
        entry.payloadEnd < u64Bound ∧ entry.blockStart = position + entry.blockPadding ∧
        entry.payloadStart = entry.blockStart + request.headerSize + entry.innerPadding) ∧
        ExactFrom baseShift entry.payloadEnd rest entries
  | _, _, _ => False

/-- The padding before and inside the blocks. -/
def paddingOf (entries : List PlannedBlock) : Nat :=
  (entries.map fun entry => entry.blockPadding + entry.innerPadding).sum

/-- An entry from `position` on: in order, aligned and below `2 ^ 64`. -/
structure PlannedBlock.WellPlaced (baseShift position : Nat) (entry : PlannedBlock) : Prop where
  start_le : position ≤ entry.blockStart
  start_lt : entry.blockStart < entry.payloadStart
  payload_le : entry.payloadStart ≤ entry.payloadEnd
  end_lt : entry.payloadEnd < u64Bound
  start_aligned : 2 ^ baseShift ∣ entry.blockStart
  payload_aligned : 2 ^ (baseShift + entry.payloadShift) ∣ entry.payloadStart

/-- The plan is the unbounded placement of its requests: every position and every
total is the stated sum, and the blocks do not overlap. -/
structure LayoutPlan.Positioned (requests : List PlacementLengthRequest) (baseShift : Nat)
    (plan : LayoutPlan) : Prop where
  positions : ExactFrom baseShift (dataStart baseShift) (sorted requests) plan.entries
  ordered : plan.entries.Pairwise (fun a b => a.payloadEnd ≤ b.blockStart)
  placed : ∀ entry ∈ plan.entries, entry.WellPlaced baseShift (dataStart baseShift)
  final_eq : plan.finalSize = placedEnd (dataStart baseShift) plan.entries
  payload_eq : plan.payloadBytes = (requests.map fun request => request.payloadLen).sum
  header_eq : plan.headerBytes = (requests.map fun request => request.headerSize).sum
  padding_eq : plan.paddingBytes = dataStart baseShift - 24 + paddingOf plan.entries
  total_eq : plan.finalSize = 24 + plan.headerBytes + plan.payloadBytes + plan.paddingBytes
  total_lt : plan.finalSize < u64Bound

/-- The plan is that placement, and no addition on the way to it wraps. -/
structure LayoutPlan.Exact (requests : List PlacementLengthRequest) (baseShift : Nat)
    (plan : LayoutPlan) : Prop extends plan.Positioned requests baseShift where
  sums_lt : ∀ sum ∈ buildSums requests baseShift, sum.1 + sum.2 < u64Bound

theorem headerSize_pos (request : PlacementLengthRequest) : 0 < request.headerSize := by
  unfold PlacementLengthRequest.headerSize
  split <;> omega

theorem PlacedAt.payloadEnd_eq_endAt {baseShift position : Nat} {request : PlacementLengthRequest}
    {entry : PlannedBlock} (h : PlacedAt baseShift position request entry) :
    entry.payloadEnd = request.endAt baseShift position := by
  rw [h.payloadEnd_eq, h.payloadStart_eq, h.blockStart_eq, PlacementLengthRequest.endAt]

theorem PlacedAt.wellPlaced {baseShift position : Nat} {request : PlacementLengthRequest}
    {entry : PlannedBlock} (h : PlacedAt baseShift position request entry)
    (hend : entry.payloadEnd < u64Bound) : entry.WellPlaced baseShift position := by
  have halign : 0 < request.payloadAlignment := by
    rw [h.alignment_eq]
    exact Nat.two_pow_pos _
  have hstart : position ≤ entry.blockStart := by
    rw [h.blockStart_eq]
    exact le_roundUp (Nat.two_pow_pos _)
  have hpayload : entry.blockStart + request.headerSize ≤ entry.payloadStart := by
    rw [h.payloadStart_eq]
    exact le_roundUp halign
  have hheader := headerSize_pos request
  have hlast := h.payloadEnd_eq
  refine ⟨hstart, by omega, by omega, hend, ?_, ?_⟩
  · rw [h.blockStart_eq]
    exact dvd_roundUp _ _
  · rw [h.payloadStart_eq, ← h.alignment_eq]
    exact dvd_roundUp _ _

/-- An entry that ends below `2 ^ 64` needed no sum from there on. -/
theorem PlacedAt.fitsAt {baseShift position : Nat} {request : PlacementLengthRequest}
    {entry : PlannedBlock} (h : PlacedAt baseShift position request entry)
    (hend : entry.payloadEnd < u64Bound) : request.FitsAt baseShift position := by
  have hplaced := h.wellPlaced hend
  have hshift := h.shift_le
  have hbound : u64Bound = 2 ^ 64 := rfl
  constructor
  · refine add_lt_of_roundUp_lt (hbound ▸ pow_dvd_pow 2 (by omega)) ?_
    rw [← h.blockStart_eq]
    exact hplaced.start_lt.trans (hplaced.payload_le.trans_lt hend)
  · rw [h.alignment_eq, ← h.blockStart_eq]
    refine add_lt_of_roundUp_lt (hbound ▸ pow_dvd_pow 2 (by omega)) ?_
    rw [← h.alignment_eq, ← h.payloadStart_eq]
    exact hplaced.payload_le.trans_lt hend

/-- Exact entries are in order from `position` on. -/
theorem ExactFrom.wellPlaced {baseShift position : Nat}
    {requests : List (PlacementLengthRequest × Nat)} {entries : List PlannedBlock}
    (h : ExactFrom baseShift position requests entries) :
    entries.Pairwise (fun a b => a.payloadEnd ≤ b.blockStart) ∧
      ∀ entry ∈ entries, entry.WellPlaced baseShift position := by
  induction requests generalizing position entries with
  | nil =>
      cases entries with
      | nil => exact ⟨List.Pairwise.nil, fun _ hmem => absurd hmem List.not_mem_nil⟩
      | cons => exact h.elim
  | cons head rest ih =>
      cases entries with
      | nil => exact h.elim
      | cons entry entries =>
          obtain ⟨⟨-, hplaced, hend, -, -⟩, hrest⟩ := h
          obtain ⟨hordered, hall⟩ := ih hrest
          have hfirst := hplaced.wellPlaced hend
          refine ⟨List.pairwise_cons.2 ⟨fun b hb => (hall b hb).start_le, hordered⟩, ?_⟩
          intro other hmem
          rcases List.mem_cons.1 hmem with rfl | hlater
          · exact hfirst
          · have hother := hall other hlater
            exact { hother with
              start_le := hfirst.start_le.trans (hfirst.start_lt.le.trans
                (hfirst.payload_le.trans hother.start_le)) }

/-- Exact entries needed no alignment sum from `2 ^ 64` on. -/
theorem ExactFrom.alignmentsFit {baseShift position : Nat}
    {requests : List (PlacementLengthRequest × Nat)} {entries : List PlannedBlock}
    (h : ExactFrom baseShift position requests entries) :
    AlignmentsFit baseShift position requests := by
  induction requests generalizing position entries with
  | nil => trivial
  | cons head rest ih =>
      cases entries with
      | nil => exact h.elim
      | cons entry entries =>
          obtain ⟨⟨-, hplaced, hend, -, -⟩, hrest⟩ := h
          rw [hplaced.payloadEnd_eq_endAt] at hrest
          exact ⟨hplaced.fitsAt (hplaced.payloadEnd_eq_endAt ▸ hend), ih hrest⟩

theorem SumsFit.alignmentsFit {baseShift position : Nat}
    {requests : List (PlacementLengthRequest × Nat)} (h : SumsFit baseShift position requests) :
    AlignmentsFit baseShift position requests := by
  induction requests generalizing position with
  | nil => trivial
  | cons head rest ih =>
      obtain ⟨⟨hstart, hpayload⟩, hrest⟩ := h
      refine ⟨⟨lt_of_le_of_lt ?_ hstart, lt_of_le_of_lt ?_ hpayload⟩, ih hrest⟩
      · exact Nat.add_le_add_left (Nat.sub_le _ _) _
      · exact Nat.add_le_add_left (Nat.sub_le _ _) _

namespace LayoutPlan

/-- What the loop keeps: the totals do not exceed the position. -/
structure Cursor.Sound (state : Cursor) : Prop where
  fits : state.cursor < u64Bound
  total_le : state.headerBytes + state.payloadBytes ≤ state.cursor

/-- One iteration without a wrapping alignment is exact. -/
theorem planBlock_exact {baseShift requestIndex : Nat} {request : PlacementLengthRequest}
    {state next : Cursor} {entry : PlannedBlock} (hstate : state.Sound)
    (hfits : request.FitsAt baseShift state.cursor)
    (hplan : planBlock baseShift request requestIndex state = .ok (entry, next)) :
    (entry.requestIndex = requestIndex ∧ PlacedAt baseShift state.cursor request entry ∧
        entry.payloadEnd < u64Bound ∧ entry.blockStart = state.cursor + entry.blockPadding ∧
        entry.payloadStart = entry.blockStart + request.headerSize + entry.innerPadding) ∧
      next.Sound ∧ next.cursor = entry.payloadEnd ∧
      next.payloadBytes = state.payloadBytes + request.payloadLen ∧
      next.headerBytes = state.headerBytes + request.headerSize := by
  obtain ⟨hindex, hplaced, hcursor⟩ := planBlock_placedAt hfits hplan
  obtain ⟨shift, hshift, -, hheader, hend, hpayload, hentry, hnext⟩ :=
    planBlock_eq_ok_iff.1 hplan
  have hwell := hplaced.wellPlaced hend
  have hstart := hwell.start_le
  have hle : entry.blockStart + request.headerSize ≤ entry.payloadStart := by
    rw [hplaced.payloadStart_eq]
    refine le_roundUp ?_
    rw [hplaced.alignment_eq]
    exact Nat.two_pow_pos _
  have hlast := hplaced.payloadEnd_eq
  have hblock : entry.blockPadding = entry.blockStart - state.cursor := by
    have hpadding : entry.blockPadding = wrappingSub entry.blockStart state.cursor := by
      rw [hentry]
      rfl
    rw [hpadding]
    exact wrappingSub_eq hstart (by omega)
  have hinner : entry.innerPadding =
      entry.payloadStart - (entry.blockStart + request.headerSize) := by
    have hpadding : entry.innerPadding =
        wrappingSub entry.payloadStart (entry.blockStart + request.headerSize) := by
      rw [hentry]
      rfl
    rw [hpadding]
    exact wrappingSub_eq hle (by omega)
  have htotal := hstate.total_le
  have hpayloadNext : next.payloadBytes = state.payloadBytes + request.payloadLen := by
    rw [hnext]
    rfl
  have hheaderNext : next.headerBytes = state.headerBytes + request.headerSize := by
    have hwrap : next.headerBytes = wrappingAdd state.headerBytes request.headerSize := by
      rw [hnext]
      rfl
    rw [hwrap, wrappingAdd, Nat.mod_eq_of_lt (by omega)]
  refine ⟨⟨hindex, hplaced, hend, by omega, by omega⟩, ⟨by omega, by omega⟩, hcursor,
    hpayloadNext, hheaderNext⟩

/-- A run without a wrapping alignment is exact, totals included. -/
theorem planBlocks_exact {baseShift : Nat} {requests : List (PlacementLengthRequest × Nat)}
    {state final : Cursor} {entries : List PlannedBlock} (hstate : state.Sound)
    (hfits : AlignmentsFit baseShift state.cursor requests)
    (hplan : planBlocks baseShift requests state = .ok (entries, final)) :
    ExactFrom baseShift state.cursor requests entries ∧ final.cursor < u64Bound ∧
      final.cursor = placedEnd state.cursor entries ∧
      final.payloadBytes = state.payloadBytes +
        (requests.map fun request => request.1.payloadLen).sum ∧
      final.headerBytes = state.headerBytes +
        (requests.map fun request => request.1.headerSize).sum ∧
      final.cursor + state.headerBytes + state.payloadBytes =
        state.cursor + final.headerBytes + final.payloadBytes + paddingOf entries := by
  induction requests generalizing state entries with
  | nil =>
      obtain ⟨rfl, rfl⟩ := Prod.mk.inj (Except.ok.inj hplan)
      exact ⟨trivial, hstate.fits, rfl, rfl, rfl, by simp [paddingOf]⟩
  | cons head rest ih =>
      obtain ⟨request, requestIndex⟩ := head
      simp only [planBlocks, bind_eq_ok_iff, pure_eq_ok_iff, Prod.exists, Prod.mk.injEq] at hplan
      obtain ⟨entry, next, hblock, tail, last, hrest, rfl, rfl⟩ := hplan
      obtain ⟨hexact, hsound, hcursor, hpayload, hheader⟩ :=
        planBlock_exact hstate hfits.1 hblock
      have hfitsNext : AlignmentsFit baseShift next.cursor rest := by
        rw [hcursor, hexact.2.1.payloadEnd_eq_endAt]
        exact hfits.2
      obtain ⟨htail, hlt, hend, hpayloads, hheaders, htotal⟩ := ih hsound hfitsNext hrest
      rw [hcursor] at htail hend
      refine ⟨⟨hexact, htail⟩, hlt, hend, ?_, ?_, ?_⟩
      · rw [hpayloads, hpayload, List.map_cons, List.sum_cons, Nat.add_assoc]
      · rw [hheaders, hheader, List.map_cons, List.sum_cons, Nat.add_assoc]
      · have hpadding : paddingOf (entry :: tail) =
            entry.blockPadding + entry.innerPadding + paddingOf tail := by
          simp only [paddingOf, List.map_cons, List.sum_cons]
        obtain ⟨-, hplaced, -, hblockStart, hpayloadStart⟩ := hexact
        have hlast := hplaced.payloadEnd_eq
        rw [hpadding]
        omega

theorem sum_sorted (requests : List PlacementLengthRequest) (f : PlacementLengthRequest → Nat) :
    ((sorted requests).map fun pair => f pair.1).sum = (requests.map f).sum := by
  have hperm : (sorted requests).Perm requests.zipIdx := List.perm_insertionSort _ _
  have hcompose : (fun pair : PlacementLengthRequest × Nat => f pair.1) = f ∘ Prod.fst := rfl
  rw [(hperm.map _).sum_nat, hcompose, ← List.map_map, List.zipIdx_map_fst]

/-- The additions of an exact run stay below `2 ^ 64` exactly when the alignment sums of the
placement do: the header total never exceeds the position. -/
theorem loopSums_lt_iff {baseShift : Nat} {requests : List (PlacementLengthRequest × Nat)}
    {state final : Cursor} {entries : List PlannedBlock} (hstate : state.Sound)
    (hfits : AlignmentsFit baseShift state.cursor requests)
    (hplan : planBlocks baseShift requests state = .ok (entries, final)) :
    (∀ sum ∈ loopSums baseShift requests state, sum.1 + sum.2 < u64Bound) ↔
      SumsFit baseShift state.cursor requests := by
  induction requests generalizing state entries with
  | nil => simp [loopSums, SumsFit]
  | cons head rest ih =>
      obtain ⟨request, requestIndex⟩ := head
      simp only [planBlocks, bind_eq_ok_iff, pure_eq_ok_iff, Prod.exists, Prod.mk.injEq] at hplan
      obtain ⟨entry, next, hblock, tail, last, hrest, rfl, rfl⟩ := hplan
      obtain ⟨⟨-, hplaced, hend, -, -⟩, hsound, hcursor, -, hheader⟩ :=
        planBlock_exact hstate hfits.1 hblock
      have hnext : next.cursor = request.endAt baseShift state.cursor :=
        hcursor.trans hplaced.payloadEnd_eq_endAt
      have htotal : state.headerBytes + request.headerSize < u64Bound := by
        have hle := hsound.total_le
        have hlt := hsound.fits
        omega
      have hsums : (∀ sum ∈ uncheckedSums baseShift request entry state,
          sum.1 + sum.2 < u64Bound) ↔ request.SumsFitAt baseShift state.cursor := by
        rw [uncheckedSums, List.forall_mem_cons, List.forall_mem_cons, List.forall_mem_singleton,
          ← hplaced.alignment_eq, hplaced.blockStart_eq]
        exact ⟨fun h => ⟨h.1, h.2.1⟩, fun h => ⟨h.start_fits, h.payload_fits, htotal⟩⟩
      rw [loopSums, hblock]
      dsimp only
      rw [List.forall_mem_append, hsums, ih hsound (hnext ▸ hfits.2) hrest, hnext]
      rfl

/-- The loop starts behind the header. -/
theorem start_sound {baseShift : Nat} (hbase : baseShift ≤ 8) :
    (⟨dataStart baseShift, fun _ => 0, 0, 0⟩ : Cursor).Sound := by
  have hstart := dataStart_le hbase
  constructor
  · show dataStart baseShift < u64Bound
    unfold u64Bound
    omega
  · exact Nat.zero_le _

/-- A plan whose roundings fit is the unbounded placement. -/
theorem positioned_of_alignmentsFit {requests : List PlacementLengthRequest} {baseShift : Nat}
    {plan : LayoutPlan} (h : buildLengths requests baseShift = .ok plan)
    (hfits : AlignmentsFit baseShift (dataStart baseShift) (sorted requests)) :
    plan.Positioned requests baseShift := by
  obtain ⟨hbase, -, entries, final, hblocks, rfl⟩ := buildLengths_eq_ok_iff.1 h
  have hge := dataStart_ge baseShift
  have hsound := start_sound hbase.2
  obtain ⟨hexact, hlt, hend, hpayload, hheader, htotal⟩ := planBlocks_exact hsound hfits hblocks
  obtain ⟨hordered, hplaced⟩ := hexact.wellPlaced
  simp only [Nat.zero_add, Nat.add_zero, sum_sorted] at hpayload hheader htotal
  have hpadding : wrappingSub (wrappingSub (wrappingSub final.cursor 24) final.payloadBytes)
      final.headerBytes = dataStart baseShift - 24 + paddingOf entries := by
    have hhead : wrappingSub final.cursor 24 = final.cursor - 24 :=
      wrappingSub_eq (by omega) hlt
    have hbody : wrappingSub (final.cursor - 24) final.payloadBytes =
        final.cursor - 24 - final.payloadBytes := wrappingSub_eq (by omega) (by omega)
    have hrest : wrappingSub (final.cursor - 24 - final.payloadBytes) final.headerBytes =
        final.cursor - 24 - final.payloadBytes - final.headerBytes :=
      wrappingSub_eq (by omega) (by omega)
    rw [hhead, hbody, hrest]
    omega
  have hsum : final.cursor = 24 + final.headerBytes + final.payloadBytes +
      (dataStart baseShift - 24 + paddingOf entries) := by omega
  exact ⟨hexact, hordered, hplaced, hend, hpayload, hheader, hpadding,
    hsum.trans (congrArg (24 + final.headerBytes + final.payloadBytes + ·) hpadding.symm), hlt⟩

/-- A plan is the unbounded placement of its requests, made without a sum that wraps,
exactly when no alignment sum of that placement reaches `2 ^ 64`. -/
theorem layoutPlan_exact_iff {requests : List PlacementLengthRequest} {baseShift : Nat}
    {plan : LayoutPlan} (h : buildLengths requests baseShift = .ok plan) :
    plan.Exact requests baseShift ↔
      SumsFit baseShift (dataStart baseShift) (sorted requests) := by
  obtain ⟨hbase, -, entries, final, hblocks, -⟩ := buildLengths_eq_ok_iff.1 h
  have hpow : 2 ^ baseShift ≤ 2 ^ 8 := Nat.pow_le_pow_right (by decide) hbase.2
  have hfirst : 24 + 2 ^ baseShift < u64Bound := by
    unfold u64Bound
    omega
  have hstart : wrappingAlignUp 24 (2 ^ baseShift) = dataStart baseShift :=
    wrappingAlignUp_eq (by omega)
      (lt_of_le_of_lt (Nat.add_le_add_left (Nat.sub_le _ _) _) hfirst)
  have hsums : AlignmentsFit baseShift (dataStart baseShift) (sorted requests) →
      ((∀ sum ∈ buildSums requests baseShift, sum.1 + sum.2 < u64Bound) ↔
        SumsFit baseShift (dataStart baseShift) (sorted requests)) := by
    intro hfits
    rw [buildSums, List.forall_mem_cons, hstart, loopSums_lt_iff (start_sound hbase.2) hfits hblocks]
    exact and_iff_right hfirst
  constructor
  · intro hexact
    exact (hsums hexact.positions.alignmentsFit).1 hexact.sums_lt
  · intro hfits
    exact ⟨positioned_of_alignmentsFit h hfits.alignmentsFit, (hsums hfits.alignmentsFit).2 hfits⟩

/-- An empty block whose payload is aligned to half of the address space. -/
def wideRequest (order : Nat) : PlacementLengthRequest where
  layoutClass := .tensorPayload
  order
  keyId := 1
  semantic := .opaqueBytes
  physical := .array
  bitWidth := 8
  count := 0
  payloadAlignment := 2 ^ 63
  payloadLen := 0

/-- The plan of two such blocks: the second payload wraps to the front. -/
def wrappedPlan : LayoutPlan where
  entries :=
    [{ requestIndex := 0
       keyId := 1
       occurrence := 0
       payloadShift := 60
       blockStart := 24
       payloadStart := 2 ^ 63
       payloadEnd := 2 ^ 63
       blockPadding := 0
       innerPadding := 2 ^ 63 - 32 },
     { requestIndex := 1
       keyId := 1
       occurrence := 1
       payloadShift := 60
       blockStart := 2 ^ 63
       payloadStart := 0
       payloadEnd := 0
       blockPadding := 0
       innerPadding := 2 ^ 63 - 8 }]
  dataRegionStart := 24
  finalSize := 0
  payloadBytes := 0
  headerBytes := 16
  paddingBytes := 2 ^ 64 - 40

/-- Two wide blocks are planned with a payload before its own header. -/
theorem wideRequests_not_exact :
    ¬ ∀ requests baseShift plan, buildLengths requests baseShift = .ok plan →
      plan.Exact requests baseShift := by
  intro h
  have hplan : buildLengths [wideRequest 0, wideRequest 1] 3 = .ok wrappedPlan := rfl
  exact absurd (h _ _ _ hplan).total_eq (by decide)

/-- The equivalence at one wide block, which is placed as it should be. -/
theorem layoutPlan_exact_iff_wideRequest :
    ∃ plan, buildLengths [wideRequest 0] 3 = .ok plan ∧
      (plan.Exact [wideRequest 0] 3 ↔
        SumsFit 3 (dataStart 3) (sorted [wideRequest 0])) :=
  ⟨_, rfl, layoutPlan_exact_iff rfl⟩

end LayoutPlan

end VBuf.Ml
