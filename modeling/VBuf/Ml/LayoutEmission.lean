import VBuf.Ml.LayoutExact

/-!
# The emitted stream is the planned one

Legal requests whose alignment sums fit are encodable, so the layout writer takes
them all, and the reader reports each block where the plan put it.
-/

namespace VBuf.Ml

open VBuf.Lib VBuf.V06

/-- The representation is one of v0.6, and the payload has as many bytes as the
count and the width say. -/
structure PlacementRequest.Legal (request : PlacementRequest) : Prop where
  legalWidth : request.semantic.LegalWidth request.bitWidth
  legalCount : request.physical.LegalCount request.count
  payloadBits_lt : request.count * request.bitWidth < u64Bound
  payload_ge : request.count * request.bitWidth ≤ 8 * request.payload.length
  payload_lt : 8 * request.payload.length < request.count * request.bitWidth + 8

/-- The bytes of a block before its payload padding. -/
def blockHeaderSize (block : Block) : Nat := if 65535 < block.count then 16 else 8

/-- The bytes that belong to no header and no payload, from `position` on. -/
def blocksPadding : Nat → List Block → Nat
  | _, [] => 0
  | position, block :: rest =>
      (block.blockStart - position) +
        (block.payloadStart - (block.blockStart + blockHeaderSize block)) +
        blocksPadding block.payloadEnd rest

/-- The padding bytes of a stream with a plain header. -/
def streamPadding (validated : Validated) : Nat :=
  (validated.header.dataRegionStart - 24) +
    blocksPadding validated.header.dataRegionStart validated.blocks

/-- The block is where the entry says. -/
structure PlannedBlock.Emitted (entry : PlannedBlock) (block : Block) : Prop where
  keyId_eq : block.keyId = entry.keyId
  start_eq : block.blockStart = entry.blockStart
  payload_eq : block.payloadStart = entry.payloadStart
  end_eq : block.payloadEnd = entry.payloadEnd

/-- The calls of requests that are planned one after the other. -/
def requestCalls (baseShift : Nat) (ordered : List (PlacementRequest × Nat)) : List BlockWrite :=
  ordered.map fun pair => pair.1.call baseShift

/-- Their planning halves. -/
def requestLengths (ordered : List (PlacementRequest × Nat)) :
    List (PlacementLengthRequest × Nat) :=
  ordered.map fun pair => (pair.1.lengthRequest, pair.2)

theorem PlacementRequest.call_fitsAt {baseShift position shift : Nat} {request : PlacementRequest}
    (h : payloadShift baseShift request.payloadAlignment = .ok shift)
    (hfits : request.lengthRequest.FitsAt baseShift position) :
    (request.call baseShift).FitsAt baseShift position := by
  obtain ⟨-, -, halign⟩ := payloadShift_eq_ok_iff.1 h
  refine ⟨hfits.start_fits, ?_⟩
  have hpayload : roundUp position (2 ^ baseShift) + request.lengthRequest.headerSize +
      (request.payloadAlignment - 1) < u64Bound := hfits.payload_fits
  rw [halign] at hpayload
  rw [← request.toWrite_eq_call h, BlockWrite.headerEnd, BlockWrite.headerBytes_length]
  exact hpayload

theorem PlacementRequest.call_valid {baseShift shift : Nat} {request : PlacementRequest}
    (h : payloadShift baseShift request.payloadAlignment = .ok shift) (hlegal : request.Legal) :
    (request.call baseShift).Valid baseShift := by
  rw [← request.toWrite_eq_call h]
  obtain ⟨-, hshift, -⟩ := payloadShift_eq_ok_iff.1 h
  exact ⟨hlegal.legalWidth, hlegal.legalCount, hshift, hlegal.payloadBits_lt, hlegal.payload_ge,
    hlegal.payload_lt⟩

theorem PlacementRequest.call_payloadEnd {baseShift position shift : Nat}
    {request : PlacementRequest}
    (h : payloadShift baseShift request.payloadAlignment = .ok shift) :
    (request.call baseShift).payloadEnd baseShift (roundUp position (2 ^ baseShift)) =
      request.lengthRequest.endAt baseShift position := by
  obtain ⟨-, -, halign⟩ := payloadShift_eq_ok_iff.1 h
  rw [← request.toWrite_eq_call h, BlockWrite.payloadEnd, BlockWrite.payloadStart,
    BlockWrite.headerEnd, BlockWrite.headerBytes_length, PlacementLengthRequest.endAt]
  show roundUp _ (2 ^ (baseShift + shift)) + _ = roundUp _ request.payloadAlignment + _
  rw [halign]
  rfl

/-- Planned legal requests whose sums fit are encodable. -/
theorem encodable_of_planBlocks {baseShift : Nat} {ordered : List (PlacementRequest × Nat)}
    {position : Nat} {state final : LayoutPlan.Cursor} {entries : List PlannedBlock}
    (hlegal : ∀ pair ∈ ordered, pair.1.Legal)
    (hfits : AlignmentsFit baseShift position (requestLengths ordered))
    (hplan : LayoutPlan.planBlocks baseShift (requestLengths ordered) state =
      .ok (entries, final)) :
    Encodable baseShift none position (requestCalls baseShift ordered) := by
  induction ordered generalizing position state entries with
  | nil => rfl
  | cons pair rest ih =>
      simp only [requestLengths, List.map_cons, LayoutPlan.planBlocks, bind_eq_ok_iff,
        pure_eq_ok_iff, Prod.exists, Prod.mk.injEq] at hplan
      obtain ⟨entry, next, hblock, tail, last, hrest, rfl, rfl⟩ := hplan
      obtain ⟨shift, hshift, -⟩ := LayoutPlan.planBlock_eq_ok_iff.1 hblock
      obtain ⟨hhead, htail⟩ := hfits
      have hnext := ih (fun p hp => hlegal p (List.mem_cons_of_mem _ hp)) htail hrest
      rw [← PlacementRequest.call_payloadEnd hshift] at hnext
      have hkey : ∀ key, (none : Option UInt16) = some key →
          (pair.1.call baseShift).options.keyId = key := by
        intro key hnone
        cases hnone
      exact ⟨PlacementRequest.call_valid hshift (hlegal pair List.mem_cons_self), hkey,
        PlacementRequest.call_fitsAt hshift hhead, hnext⟩

/-- Exact entries are where the canonical encoding lays the blocks out, with the
same padding and the same end. -/
theorem emitted_of_exactFrom {baseShift : Nat} {ordered : List (PlacementRequest × Nat)}
    {position : Nat} {entries : List PlannedBlock}
    (h : ExactFrom baseShift position (requestLengths ordered) entries) :
    List.Forall₂ PlannedBlock.Emitted entries
        (layoutBlocks baseShift position (requestCalls baseShift ordered)) ∧
      blocksPadding position (layoutBlocks baseShift position (requestCalls baseShift ordered)) =
        paddingOf entries ∧
      blocksEnd baseShift position (requestCalls baseShift ordered) =
        placedEnd position entries := by
  induction ordered generalizing position entries with
  | nil =>
      cases entries with
      | nil => exact ⟨List.Forall₂.nil, rfl, rfl⟩
      | cons => exact h.elim
  | cons pair rest ih =>
      cases entries with
      | nil => exact h.elim
      | cons entry entries =>
          obtain ⟨⟨-, hplaced, -, hblock, hinner⟩, hrest⟩ := h
          obtain ⟨hstart, hend⟩ := hplaced.payloadEnd_call
          rw [hend] at hrest
          obtain ⟨hall, hpadding, hlast⟩ := ih hrest
          refine ⟨List.Forall₂.cons ⟨hplaced.keyId_eq.symm, hplaced.blockStart_eq.symm,
            hstart.symm, hend.symm⟩ hall, ?_, ?_⟩
          swap
          · rw [placedEnd, hend]
            exact hlast
          have hsum : paddingOf (entry :: entries) =
              entry.blockPadding + entry.innerPadding + paddingOf entries := by
            simp only [paddingOf, List.map_cons, List.sum_cons]
          rw [hsum, ← hpadding]
          simp only [requestCalls, List.map_cons, layoutBlocks, blocksPadding]
          have hfirst : roundUp position (2 ^ baseShift) - position = entry.blockPadding := by
            rw [← hplaced.blockStart_eq]
            omega
          have hsecond : (pair.1.call baseShift).payloadStart baseShift
              (roundUp position (2 ^ baseShift)) -
                (roundUp position (2 ^ baseShift) + pair.1.lengthRequest.headerSize) =
                  entry.innerPadding := by
            rw [← hstart, ← hplaced.blockStart_eq]
            omega
          exact congrArg₂ (· + ·) (congrArg₂ (· + ·) hfirst hsecond) rfl

/-- The n-th entry of a key is planned as its n-th occurrence. -/
theorem occurrence_of_planBlocks {baseShift : Nat} {requests : List (PlacementLengthRequest × Nat)}
    {state final : LayoutPlan.Cursor} {entries : List PlannedBlock}
    (hplan : LayoutPlan.planBlocks baseShift requests state = .ok (entries, final)) {i : Nat}
    {entry : PlannedBlock} (hentry : entries[i]? = some entry) :
    entry.occurrence = state.occurrences entry.keyId +
      ((entries.take i).map PlannedBlock.keyId).count entry.keyId := by
  induction requests generalizing state entries i with
  | nil =>
      obtain ⟨rfl, rfl⟩ := Prod.mk.inj (Except.ok.inj hplan)
      cases hentry
  | cons head rest ih =>
      obtain ⟨request, requestIndex⟩ := head
      simp only [LayoutPlan.planBlocks, bind_eq_ok_iff, pure_eq_ok_iff, Prod.exists,
        Prod.mk.injEq] at hplan
      obtain ⟨first, next, hblock, tail, last, hrest, rfl, rfl⟩ := hplan
      obtain ⟨shift, -, -, -, -, -, hfirst, hnext⟩ := LayoutPlan.planBlock_eq_ok_iff.1 hblock
      have hkey : first.keyId = request.keyId := by
        rw [hfirst]
        rfl
      cases i with
      | zero =>
          rw [List.getElem?_cons_zero, Option.some.injEq] at hentry
          subst hentry
          rw [hkey, hfirst]
          rfl
      | succ i =>
          rw [List.getElem?_cons_succ] at hentry
          rw [ih hrest hentry, List.take_succ_cons, List.map_cons, List.count_cons, hnext, hkey]
          show (if entry.keyId = request.keyId then _ else _) + _ = _
          by_cases hsame : entry.keyId = request.keyId
          · rw [if_pos hsame, if_pos (beq_iff_eq.2 hsame.symm), hsame]
            omega
          · rw [if_neg hsame, if_neg (fun heq => hsame (beq_iff_eq.1 heq).symm)]
            omega

/-- The emitted blocks have the planned occurrences. -/
theorem count_of_emitted {entries : List PlannedBlock} {blocks : List Block}
    (h : List.Forall₂ PlannedBlock.Emitted entries blocks) (i : Nat) (key : UInt16) :
    ((entries.take i).map PlannedBlock.keyId).count key =
      ((blocks.take i).map Block.keyId).count key := by
  have hkeys : entries.map PlannedBlock.keyId = blocks.map Block.keyId := by
    induction h with
    | nil => rfl
    | cons hhead _ ih => rw [List.map_cons, List.map_cons, ih, hhead.keyId_eq]
  rw [List.map_take, List.map_take, hkeys]

/-- What emission owes the plan: the reader accepts the stream, finds each block
where it was planned and as that occurrence of its key, and the size and the
padding are the planned ones. -/
structure FollowsPlan (plan : LayoutPlan) (validated : Validated) : Prop where
  blocks : List.Forall₂ PlannedBlock.Emitted plan.entries validated.blocks
  occurrences : ∀ i entry, plan.entries[i]? = some entry →
    entry.occurrence = ((validated.blocks.take i).map Block.keyId).count entry.keyId
  size_eq : validated.bytes.length = plan.finalSize
  padding_eq : streamPadding validated = plan.paddingBytes

/-- Writing a planned list of legal requests whose alignment sums fit succeeds on
an empty sink with room, and the stream follows the plan. -/
theorem write_followsPlan {inner : Sink} {baseShift : Nat} {requests : List PlacementRequest}
    {mode : StreamMode} {plan : LayoutPlan}
    (hplan : LayoutPlan.build requests baseShift = .ok plan)
    (hfits : AlignmentsFit baseShift (dataStart baseShift)
      (LayoutPlan.sorted (requests.map PlacementRequest.lengthRequest)))
    (hlegal : ∀ request ∈ requests, request.Legal)
    (hempty : inner.position = 0 ∧ inner.data = []) (hroom : plan.finalSize ≤ inner.capacity) :
    ∃ s, write inner baseShift requests mode = .ok s ∧
      ∀ bytes : V06.ByteSlice, bytes.toList = s.data →
        ∃ validated, parseV06 bytes.toList = .ok validated ∧ validated.bytes = bytes.toList ∧
          FollowsPlan plan validated := by
  have hexact := LayoutPlan.positioned_of_alignmentsFit hplan hfits
  obtain ⟨hbase, -, entries, final, hblocks, rfl⟩ := LayoutPlan.buildLengths_eq_ok_iff.1 hplan
  have hpositions := hexact.positions
  rw [sorted_lengthRequest] at hfits hblocks hpositions
  have hrequests : ∀ pair ∈ orderedRequests requests, pair.1.Legal := fun pair hmem =>
    hlegal _ (List.mem_of_getElem? (getElem?_of_mem_orderedRequests hmem))
  obtain ⟨hemitted, hpadding, hend⟩ := emitted_of_exactFrom hpositions
  have hencodable := encodable_of_planBlocks hrequests hfits hblocks
  -- The stream is as long as the plan is, so the sink holds it.
  have hlength : (encodeStream baseShift mode (layoutCalls baseShift requests)).length =
      final.cursor := by
    rw [encodeStream_length]
    exact hend.trans hexact.final_eq.symm
  let s : Sink :=
    { data := encodeStream baseShift mode (layoutCalls baseShift requests)
      position := (encodeStream baseShift mode (layoutCalls baseShift requests)).length
      capacity := inner.capacity
      length_le := hlength.trans_le hroom
      capacity_lt := inner.capacity_lt }
  refine ⟨s, write_eq_ok_iff.2 ⟨⟨_, hplan⟩, Writer.writeStream_eq_ok_iff.2
    ⟨hbase, hempty, hencodable, rfl, rfl, rfl⟩⟩, ?_⟩
  intro bytes hbytes
  have hshort := bytes.length_le
  rw [hbytes] at hshort ⊢
  have hpow : 2 ^ baseShift ≤ 2 ^ 8 := Nat.pow_le_pow_right (by decide) hbase.2
  have hbelow : s.data.length + (2 ^ baseShift - 1) < u64Bound := by
    unfold isizeMax at hshort
    unfold u64Bound
    omega
  have hwell := encodeStream_wellFormed hbase hbelow hencodable
  refine ⟨⟨_, _, _⟩, parseV06_eq_ok_iff.2 ⟨rfl, hwell⟩, rfl, hemitted, ?_, hlength, ?_⟩
  · intro i entry hentry
    rw [occurrence_of_planBlocks hblocks hentry, count_of_emitted hemitted]
    exact Nat.zero_add _
  · rw [hexact.padding_eq, ← hpadding]
    rfl

/-- One byte of a semantic, as an array. -/
def byteRequest (semantic : Semantic) : PlacementRequest where
  layoutClass := .tensorPayload
  order := 0
  keyId := 1
  semantic
  physical := .array
  bitWidth := 8
  count := 1
  payloadAlignment := 8
  payload := [7]

/-- The plan of that byte with the smallest base step. -/
def bytePlan : LayoutPlan where
  entries :=
    [{ requestIndex := 0
       keyId := 1
       occurrence := 0
       payloadShift := 0
       blockStart := 24
       payloadStart := 32
       payloadEnd := 33
       blockPadding := 0
       innerPadding := 0 }]
  dataRegionStart := 24
  finalSize := 33
  payloadBytes := 1
  headerBytes := 8
  paddingBytes := 0

theorem build_byteRequest (semantic : Semantic) :
    LayoutPlan.build [byteRequest semantic] 3 = .ok bytePlan := by
  cases semantic <;> rfl

theorem alignmentsFit_byteRequest (semantic : Semantic) :
    AlignmentsFit 3 (dataStart 3)
      (LayoutPlan.sorted ([byteRequest semantic].map PlacementRequest.lengthRequest)) := by
  refine ⟨⟨?_, ?_⟩, trivial⟩
  · decide
  · cases semantic <;> decide

/-- Three requests against their placement order, each with an alignment of its own. -/
def mixedRequests : List PlacementRequest :=
  [{ byteRequest .opaqueBytes with order := 2 },
    { byteRequest .unsigned with
      order := 1, bitWidth := 16, count := 3, payloadAlignment := 64, payload := [1, 0, 2, 0, 3, 0] },
    { byteRequest .float with
      layoutClass := .modelMetadata, order := 3, keyId := 2, bitWidth := 32, payloadAlignment := 32
      payload := [0, 0, 128, 63] }]

/-- Their plan with the smallest base step: padding before and inside the blocks. -/
def mixedPlan : LayoutPlan where
  entries :=
    [{ requestIndex := 2
       keyId := 2
       occurrence := 0
       payloadShift := 2
       blockStart := 24
       payloadStart := 32
       payloadEnd := 36
       blockPadding := 0
       innerPadding := 0 },
     { requestIndex := 1
       keyId := 1
       occurrence := 0
       payloadShift := 3
       blockStart := 40
       payloadStart := 64
       payloadEnd := 70
       blockPadding := 4
       innerPadding := 16 },
     { requestIndex := 0
       keyId := 1
       occurrence := 1
       payloadShift := 0
       blockStart := 72
       payloadStart := 80
       payloadEnd := 81
       blockPadding := 2
       innerPadding := 0 }]
  dataRegionStart := 24
  finalSize := 81
  payloadBytes := 11
  headerBytes := 24
  paddingBytes := 22

/-- The three blocks are written and read as planned. -/
theorem write_followsPlan_mixedRequests :
    ∃ s, write (exampleSink [] (by decide)) 3 mixedRequests .knownSize = .ok s ∧
      ∀ bytes : V06.ByteSlice, bytes.toList = s.data →
        ∃ validated, parseV06 bytes.toList = .ok validated ∧ validated.bytes = bytes.toList ∧
          FollowsPlan mixedPlan validated := by
  refine write_followsPlan (by decide +kernel) ?_ ?_ ⟨rfl, rfl⟩ (by decide)
  · exact ⟨⟨by decide, by decide⟩, ⟨by decide, by decide⟩, ⟨by decide, by decide⟩, trivial⟩
  · simp only [mixedRequests, List.forall_mem_cons]
    refine ⟨⟨?_, ?_, ?_, ?_, ?_⟩, ⟨?_, ?_, ?_, ?_, ?_⟩, ⟨?_, ?_, ?_, ?_, ?_⟩,
      List.forall_mem_nil _⟩ <;> decide

/-- The planner takes an 8-bit float, whose length matches, and the canonical
writer does not. -/
theorem write_rejects_byteFloat :
    ¬ ∀ (inner : Sink) (baseShift : Nat) (requests : List PlacementRequest) (mode : StreamMode)
      (plan : LayoutPlan), LayoutPlan.build requests baseShift = .ok plan →
      AlignmentsFit baseShift (dataStart baseShift)
        (LayoutPlan.sorted (requests.map PlacementRequest.lengthRequest)) →
      (∀ request ∈ requests, request.count * request.bitWidth < u64Bound ∧
        request.count * request.bitWidth ≤ 8 * request.payload.length ∧
        8 * request.payload.length < request.count * request.bitWidth + 8) →
      inner.position = 0 ∧ inner.data = [] → plan.finalSize ≤ inner.capacity →
      ∃ s, write inner baseShift requests mode = .ok s := by
  intro h
  obtain ⟨s, hwrite⟩ := h (exampleSink [] (by decide)) 3 [byteRequest .float] .knownSize bytePlan
    (build_byteRequest _) (alignmentsFit_byteRequest _) (by
      intro request hmem
      obtain rfl := List.mem_singleton.1 hmem
      exact ⟨by decide, by decide, by decide⟩) ⟨rfl, rfl⟩ (by decide)
  obtain ⟨-, -, hencodable, -⟩ := Writer.writeStream_eq_ok_iff.1 (write_eq_ok_iff.1 hwrite).2
  have hwidth : Semantic.float.LegalWidth 8 := hencodable.1.legalWidth
  exact absurd hwidth (by decide)

end VBuf.Ml
