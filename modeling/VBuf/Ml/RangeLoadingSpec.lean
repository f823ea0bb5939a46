import VBuf.Ml.RangeLoading

/-!
# What a read plan covers

`Merged` is the invariant of the merging loop: the reads are apart from each
other, hold the payloads seen so far, and their other bytes lie in gaps that the
mode allows.  `build_planned` carries it to the plan, and the execution of a plan
returns the bytes of each selected payload.
-/

namespace VBuf.Ml

open VBuf.Lib VBuf.Layout VBuf.V06

/-- The end of a read, over unbounded integers. -/
def PhysicalRange.finish (range : PhysicalRange) : Nat := range.offset + range.length

/-- The payload has the byte of a source at a position. -/
def TensorRef.Covers (payload : TensorRef) (source : SourceId) (position : Nat) : Prop :=
  payload.sourceId = source ∧ payload.offset ≤ position ∧ position < payload.range.stop

/-- The read contains the payload. -/
def PhysicalRange.Holds (read : PhysicalRange) (payload : TensorRef) : Prop :=
  read.sourceId = payload.sourceId ∧ read.offset ≤ payload.offset ∧
    payload.range.stop ≤ read.finish

/-- The first read is before the second: in an earlier source, or in the same one
and without a common byte. -/
def PhysicalRange.Before (a b : PhysicalRange) : Prop :=
  a.sourceId.value < b.sourceId.value ∨ a.sourceId = b.sourceId ∧ a.finish ≤ b.offset

namespace ReadPlan

/-- The position lies in a gap that the mode lets a merge read: between the end of
a payload and the start of another, at most `limit` apart, with no payload byte in
between. -/
def InGap (coalescing : Coalescing) (payloads : List TensorRef) (source : SourceId)
    (position : Nat) : Prop :=
  ∃ limit, coalescing = .gap limit ∧ ∃ a ∈ payloads, ∃ b ∈ payloads,
    a.sourceId = source ∧ b.sourceId = source ∧ a.range.stop ≤ position ∧ position < b.offset ∧
      b.offset - a.range.stop ≤ limit ∧
      ∀ c ∈ payloads, c.sourceId = source → c.range.stop ≤ a.range.stop ∨ b.offset ≤ c.offset

/-- The mode leaves the two reads apart, the first before the second. -/
def Apart (coalescing : Coalescing) (a b : PhysicalRange) : Prop :=
  a.sourceId.value < b.sourceId.value ∨
    a.sourceId = b.sourceId ∧ ¬ Joins coalescing a.finish b.offset

/-- The owner records the item's place and where it lies in its read. -/
def OwnedBy (reads : List PhysicalRange) (item : Nat × TensorRef) (owner : Owner) : Prop :=
  owner.selectionIndex = item.1 ∧ ∃ read, reads[owner.readIndex]? = some read ∧
    read.Holds item.2 ∧ read.offset + owner.relativeOffset = item.2.offset

/-- The invariant of the merging loop after the items `done`. -/
structure Merged (coalescing : Coalescing) (done : List (Nat × TensorRef)) (merge : Merge) :
    Prop where
  apart : merge.reads.Pairwise (Apart coalescing)
  starts : ∀ read ∈ merge.reads, ∃ item ∈ done,
    item.2.sourceId = read.sourceId ∧ item.2.offset = read.offset
  stops : ∀ read ∈ merge.reads, ∃ item ∈ done,
    item.2.sourceId = read.sourceId ∧ item.2.range.stop = read.finish
  owned : List.Forall₂ (OwnedBy merge.reads) done merge.owners
  covered : ∀ read ∈ merge.reads, ∀ position, read.offset ≤ position → position < read.finish →
    (∃ item ∈ done, item.2.Covers read.sourceId position) ∨
      InGap coalescing (done.map Prod.snd) read.sourceId position

variable {coalescing : Coalescing} {done : List (Nat × TensorRef)} {merge : Merge}
  {item : Nat × TensorRef}

theorem le_of_not_joins {currentEnd offset : Nat} (h : ¬ Joins coalescing currentEnd offset) :
    currentEnd ≤ offset := by
  by_contra hlt
  exact h (Or.inl (by omega))

/-- What joins a read joins each read that ends later. -/
theorem joins_mono {a b offset : Nat} (hab : a ≤ b) (h : Joins coalescing a offset) :
    Joins coalescing b offset := by
  cases h with
  | inl hlt => exact Or.inl (by omega)
  | inr hmode =>
      cases coalescing with
      | none => exact hmode.elim
      | exactAdjacent =>
          simp only at hmode
          exact Or.inr (show offset ≤ b by omega)
      | gap limit =>
          simp only at hmode
          exact Or.inr (show offset - b ≤ limit by omega)

theorem Apart.before {a b : PhysicalRange} (h : Apart coalescing a b) : a.Before b :=
  h.imp id fun hsame => ⟨hsame.1, le_of_not_joins hsame.2⟩

/-- A gap stays one when a payload at or behind all of the others comes in. -/
theorem InGap.concat {payloads : List TensorRef} {payload : TensorRef} {source : SourceId}
    {position : Nat} (h : InGap coalescing payloads source position)
    (hbehind : ∀ b ∈ payloads, b.sourceId = payload.sourceId → b.offset ≤ payload.offset) :
    InGap coalescing (payloads ++ [payload]) source position := by
  obtain ⟨limit, hmode, a, ha, b, hb, hasource, hbsource, hstart, hstop, hlimit, hfree⟩ := h
  refine ⟨limit, hmode, a, List.mem_append_left _ ha, b, List.mem_append_left _ hb, hasource,
    hbsource, hstart, hstop, hlimit, ?_⟩
  intro c hc hcsource
  rcases List.mem_append.1 hc with hold | hnew
  · exact hfree c hold hcsource
  · obtain rfl := List.mem_singleton.1 hnew
    exact Or.inr (hbehind b hb (hbsource.trans hcsource.symm))

theorem OwnedBy.concat {reads : List PhysicalRange} {owner : Owner} {read : PhysicalRange}
    (h : OwnedBy reads item owner) : OwnedBy (reads ++ [read]) item owner := by
  obtain ⟨hindex, holder, hget, hrest⟩ := h
  obtain ⟨hlt, -⟩ := List.getElem?_eq_some_iff.1 hget
  exact ⟨hindex, holder, (List.getElem?_append_left hlt).trans hget, hrest⟩

/-- An owner of the last read stays one when that read grows at its end. -/
theorem OwnedBy.grow {front : List PhysicalRange} {current grown : PhysicalRange} {owner : Owner}
    (h : OwnedBy (front ++ [current]) item owner) (hsource : grown.sourceId = current.sourceId)
    (hoffset : grown.offset = current.offset) (hfinish : current.finish ≤ grown.finish) :
    OwnedBy (front ++ [grown]) item owner := by
  obtain ⟨hindex, holder, hget, ⟨hheld, hle, hend⟩, hrelative⟩ := h
  obtain ⟨hlt, -⟩ := List.getElem?_eq_some_iff.1 hget
  rw [List.length_append, List.length_singleton] at hlt
  by_cases hfront : owner.readIndex < front.length
  · rw [List.getElem?_append_left hfront] at hget
    exact ⟨hindex, holder, (List.getElem?_append_left hfront).trans hget, ⟨hheld, hle, hend⟩,
      hrelative⟩
  · have hlast : owner.readIndex = front.length := by omega
    rw [hlast, List.getElem?_concat_length] at hget
    cases hget
    refine ⟨hindex, grown, ?_, ⟨hsource.trans hheld, ?_, ?_⟩, ?_⟩
    · rw [hlast, List.getElem?_concat_length]
    · omega
    · omega
    · omega

/-- The items seen so far start at or before the next one in its source. -/
theorem offset_le_of_sortsBefore {a b : Nat × TensorRef} (h : SortsBefore a b)
    (hsource : a.2.sourceId = b.2.sourceId) : a.2.offset ≤ b.2.offset := by
  have hvalue : a.2.sourceId.value = b.2.sourceId.value := congrArg SourceId.value hsource
  unfold SortsBefore at h
  omega

theorem Merged.nil : Merged coalescing [] ⟨[], []⟩ where
  apart := List.Pairwise.nil
  starts := fun _ hread => absurd hread List.not_mem_nil
  stops := fun _ hread => absurd hread List.not_mem_nil
  owned := List.Forall₂.nil
  covered := fun _ hread => absurd hread List.not_mem_nil

/-- The owners have the places of the items, in the order of the loop. -/
theorem map_selectionIndex {reads : List PhysicalRange} {owners : List Owner}
    (h : List.Forall₂ (OwnedBy reads) done owners) :
    owners.map Owner.selectionIndex = done.map Prod.fst := by
  induction h with
  | nil => rfl
  | cons hhead _ ih => rw [List.map_cons, List.map_cons, hhead.1, ih]

/-- Each item seen so far lies in some read. -/
theorem Merged.exists_holder (h : Merged coalescing done merge) {earlier : Nat × TensorRef}
    (hmem : earlier ∈ done) : ∃ read ∈ merge.reads, read.Holds earlier.2 := by
  obtain ⟨owner, -, -, read, hget, hholds, -⟩ := exists_of_mem_left h.owned hmem
  exact ⟨read, List.mem_of_getElem? hget, hholds⟩

/-- The new item as a read of its own. -/
theorem Merged.openRead (h : Merged coalescing done merge)
    (hsorted : ∀ earlier ∈ done, SortsBefore earlier item)
    (hapart : ∀ read ∈ merge.reads, Apart coalescing read (.ofTensorRef item.2)) :
    Merged coalescing (done ++ [item]) (merge.openRead item.1 (.ofTensorRef item.2)) where
  apart := by
    refine List.pairwise_append.2 ⟨h.apart, List.pairwise_singleton _ _, ?_⟩
    intro read hread candidate hcandidate
    obtain rfl := List.mem_singleton.1 hcandidate
    exact hapart read hread
  starts := by
    intro read hread
    rcases List.mem_append.1 hread with hold | hnew
    · obtain ⟨earlier, hmem, hstart⟩ := h.starts read hold
      exact ⟨earlier, List.mem_append_left _ hmem, hstart⟩
    · obtain rfl := List.mem_singleton.1 hnew
      exact ⟨item, List.mem_concat_self, rfl, rfl⟩
  stops := by
    intro read hread
    rcases List.mem_append.1 hread with hold | hnew
    · obtain ⟨earlier, hmem, hstop⟩ := h.stops read hold
      exact ⟨earlier, List.mem_append_left _ hmem, hstop⟩
    · obtain rfl := List.mem_singleton.1 hnew
      exact ⟨item, List.mem_concat_self, rfl, rfl⟩
  owned := by
    refine List.rel_append (h.owned.imp fun _ _ => OwnedBy.concat) ?_
    refine List.Forall₂.cons ⟨rfl, .ofTensorRef item.2, ?_, ?_, rfl⟩ List.Forall₂.nil
    · exact List.getElem?_concat_length
    · exact ⟨rfl, le_rfl, le_rfl⟩
  covered := by
    intro read hread position hstart hstop
    rcases List.mem_append.1 hread with hold | hnew
    · rcases h.covered read hold position hstart hstop with ⟨earlier, hmem, hcovers⟩ | hgap
      · exact Or.inl ⟨earlier, List.mem_append_left _ hmem, hcovers⟩
      · rw [List.map_append]
        refine Or.inr (hgap.concat ?_)
        intro b hb hsource
        obtain ⟨earlier, hmem, rfl⟩ := List.mem_map.1 hb
        exact offset_le_of_sortsBefore (hsorted earlier hmem) hsource
    · obtain rfl := List.mem_singleton.1 hnew
      exact Or.inl ⟨item, List.mem_concat_self, rfl, hstart, hstop⟩

/-- The last read grown up to the new item. -/
theorem Merged.extendRead {front : List PhysicalRange} {current grown : PhysicalRange}
    {owners : List Owner} {relative : Nat}
    (h : Merged coalescing done ⟨front ++ [current], owners⟩)
    (hsorted : ∀ earlier ∈ done, SortsBefore earlier item)
    (hsource : item.2.sourceId = current.sourceId)
    (hjoins : Joins coalescing current.finish item.2.offset)
    (hgrown : grown.sourceId = current.sourceId) (hoffset : grown.offset = current.offset)
    (hfinish : grown.finish = max current.finish item.2.range.stop)
    (hrelative : current.offset + relative = item.2.offset) :
    Merged coalescing (done ++ [item])
      ⟨front ++ [grown], owners ++ [⟨item.1, front.length, relative⟩]⟩ where
  apart := by
    obtain ⟨hfront, -, hcross⟩ := List.pairwise_append.1 h.apart
    refine List.pairwise_append.2 ⟨hfront, List.pairwise_singleton _ _, ?_⟩
    intro read hread last hlast
    obtain rfl := List.mem_singleton.1 hlast
    have hold := hcross read hread current (List.mem_singleton.2 rfl)
    unfold Apart at hold ⊢
    rw [hgrown, hoffset]
    exact hold
  starts := by
    intro read hread
    have hat : ∃ earlier ∈ done,
        earlier.2.sourceId = read.sourceId ∧ earlier.2.offset = read.offset := by
      rcases List.mem_append.1 hread with hold | hnew
      · exact h.starts read (List.mem_append_left _ hold)
      · obtain rfl := List.mem_singleton.1 hnew
        rw [hgrown, hoffset]
        exact h.starts current List.mem_concat_self
    obtain ⟨earlier, hmem, hstart⟩ := hat
    exact ⟨earlier, List.mem_append_left _ hmem, hstart⟩
  stops := by
    intro read hread
    rcases List.mem_append.1 hread with hold | hnew
    · obtain ⟨earlier, hmem, hstop⟩ := h.stops read (List.mem_append_left _ hold)
      exact ⟨earlier, List.mem_append_left _ hmem, hstop⟩
    · obtain rfl := List.mem_singleton.1 hnew
      rw [hgrown, hfinish]
      rcases Nat.le_total item.2.range.stop current.finish with hinside | hbeyond
      · obtain ⟨earlier, hmem, hid, hstop⟩ := h.stops current List.mem_concat_self
        refine ⟨earlier, List.mem_append_left _ hmem, hid, ?_⟩
        omega
      · refine ⟨item, List.mem_concat_self, hsource, ?_⟩
        omega
  owned := by
    refine List.rel_append (h.owned.imp fun _ _ howned => ?_) ?_
    · exact howned.grow hgrown hoffset (by omega)
    · refine List.Forall₂.cons ⟨rfl, grown, List.getElem?_concat_length, ?_, ?_⟩ List.Forall₂.nil
      · exact ⟨hgrown.trans hsource.symm, by omega, by omega⟩
      · rw [hoffset]
        exact hrelative
  covered := by
    -- Old gaps stay gaps: the new item starts behind every item seen so far.
    have hbehind : ∀ b ∈ done.map Prod.snd, b.sourceId = item.2.sourceId →
        b.offset ≤ item.2.offset := by
      intro b hb hid
      obtain ⟨earlier, hmem, rfl⟩ := List.mem_map.1 hb
      exact offset_le_of_sortsBefore (hsorted earlier hmem) hid
    have hkeep : ∀ read ∈ front ++ [current], ∀ position, read.offset ≤ position →
        position < read.finish →
        (∃ earlier ∈ done ++ [item], earlier.2.Covers read.sourceId position) ∨
          InGap coalescing ((done ++ [item]).map Prod.snd) read.sourceId position := by
      intro read hread position hstart hstop
      rcases h.covered read hread position hstart hstop with ⟨earlier, hmem, hcovers⟩ | hgap
      · exact Or.inl ⟨earlier, List.mem_append_left _ hmem, hcovers⟩
      · rw [List.map_append]
        exact Or.inr (hgap.concat hbehind)
    intro read hread position hstart hstop
    rcases List.mem_append.1 hread with hold | hnew
    · exact hkeep read (List.mem_append_left _ hold) position hstart hstop
    · obtain rfl := List.mem_singleton.1 hnew
      rw [hgrown]
      by_cases hcurrent : position < current.finish
      · exact hkeep current List.mem_concat_self position (by omega) hcurrent
      · by_cases hitem : item.2.offset ≤ position
        · exact Or.inl ⟨item, List.mem_concat_self, hsource, hitem, by omega⟩
        · -- Between the old end and the new item: the gap of this merge.
          right
          obtain ⟨last, hlast, hid, hstopped⟩ := h.stops current List.mem_concat_self
          have hlimit : ∃ limit, coalescing = .gap limit ∧
              item.2.offset - current.finish ≤ limit := by
            cases hjoins with
            | inl hlt => omega
            | inr hmode =>
                cases coalescing with
                | none => exact hmode.elim
                | exactAdjacent =>
                    simp only at hmode
                    omega
                | gap limit => exact ⟨limit, rfl, hmode⟩
          obtain ⟨limit, hmode, hle⟩ := hlimit
          refine ⟨limit, hmode, last.2, List.mem_map_of_mem (List.mem_append_left _ hlast), item.2,
            List.mem_map_of_mem List.mem_concat_self, hid, hsource, by omega, by omega, by omega,
            ?_⟩
          intro c hc hcsource
          rw [List.map_append] at hc
          rcases List.mem_append.1 hc with hdone | hself
          · obtain ⟨earlier, hmem, rfl⟩ := List.mem_map.1 hdone
            obtain ⟨holder, hholder, hheld, -, hend⟩ := h.exists_holder hmem
            have hholderEnd : holder.finish ≤ current.finish := by
              rcases List.mem_append.1 hholder with hfront | hlastRead
              · obtain ⟨-, -, hcross⟩ := List.pairwise_append.1 h.apart
                have hbefore :=
                  (hcross holder hfront current (List.mem_singleton.2 rfl)).before
                have hsame : holder.sourceId.value = current.sourceId.value := by
                  rw [hheld, hcsource]
                unfold PhysicalRange.Before at hbefore
                unfold PhysicalRange.finish at hbefore ⊢
                omega
              · obtain rfl := List.mem_singleton.1 hlastRead
                exact le_rfl
            exact Or.inl (by omega)
          · obtain rfl := List.mem_singleton.1 hself
            exact Or.inr le_rfl

/-- A candidate that the last read does not take in is apart from every read. -/
theorem Merged.apart_candidate {front : List PhysicalRange} {current : PhysicalRange}
    {owners : List Owner} (h : Merged coalescing done ⟨front ++ [current], owners⟩)
    (hsorted : ∀ earlier ∈ done, SortsBefore earlier item)
    (hrefused : ¬ (item.2.sourceId = current.sourceId ∧
      Joins coalescing current.finish item.2.offset)) :
    ∀ read ∈ front ++ [current], Apart coalescing read (.ofTensorRef item.2) := by
  obtain ⟨first, hfirst, hid, hstart⟩ := h.starts current List.mem_concat_self
  have hbefore := hsorted first hfirst
  have hcurrent : Apart coalescing current (.ofTensorRef item.2) := by
    by_cases hsource : item.2.sourceId = current.sourceId
    · exact Or.inr ⟨hsource.symm, fun hjoins => hrefused ⟨hsource, hjoins⟩⟩
    · left
      have hne : item.2.sourceId.value ≠ current.sourceId.value := by
        intro heq
        refine hsource ?_
        cases hitem : item.2.sourceId
        cases hread : current.sourceId
        simp_all
      have hvalue : first.2.sourceId.value = current.sourceId.value := congrArg SourceId.value hid
      unfold SortsBefore at hbefore
      change current.sourceId.value < item.2.sourceId.value
      omega
  intro read hread
  rcases List.mem_append.1 hread with hfront | hlast
  · obtain ⟨-, -, hcross⟩ := List.pairwise_append.1 h.apart
    have hearlier := hcross read hfront current (List.mem_singleton.2 rfl)
    rcases hearlier with hlt | ⟨hsame, hapart⟩
    · refine Or.inl (hlt.trans_le ?_)
      rcases hcurrent with hless | ⟨heq, -⟩
      · exact hless.le
      · exact le_of_eq (congrArg SourceId.value heq)
    · rcases hcurrent with hless | ⟨heq, hcandidate⟩
      · left
        rw [hsame]
        exact hless
      · refine Or.inr ⟨hsame.trans heq, fun hjoins => hcandidate (joins_mono ?_ hjoins)⟩
        exact (le_of_not_joins hapart).trans (Nat.le_add_right _ _)
  · obtain rfl := List.mem_singleton.1 hlast
    exact hcurrent

theorem extendRead_eq_ok_iff {index currentEnd : Nat} {current candidate : PhysicalRange}
    {next : Merge} :
    merge.extendRead index current candidate currentEnd = .ok next ↔
      candidate.offset + candidate.length < u64Bound ∧
        current.offset ≤ max currentEnd candidate.finish ∧ current.offset ≤ candidate.offset ∧
        next =
          { reads := merge.reads.dropLast ++
              [{ current with length := max currentEnd candidate.finish - current.offset }]
            owners := merge.owners ++
              [⟨index, merge.reads.length - 1, candidate.offset - current.offset⟩] } := by
  simp only [Merge.extendRead, bind_eq_ok_iff, PhysicalRange.stop_eq_ok_iff, okOr_eq_ok_iff,
    checkedSub_eq_some_iff, pure_eq_ok_iff]
  constructor
  · intro h
    obtain ⟨_, ⟨hfits, rfl⟩, _, ⟨hle, rfl⟩, _, ⟨hoffset, rfl⟩, rfl⟩ := h
    exact ⟨hfits, hle, hoffset, rfl⟩
  · intro h
    obtain ⟨hfits, hle, hoffset, rfl⟩ := h
    exact ⟨_, ⟨hfits, rfl⟩, _, ⟨hle, rfl⟩, _, ⟨hoffset, rfl⟩, rfl⟩

/-- One iteration succeeds and keeps the invariant. -/
theorem mergeTarget_merged (h : Merged coalescing done merge)
    (hsorted : ∀ earlier ∈ done, SortsBefore earlier item) :
    ∃ next, mergeTarget coalescing merge item = .ok next ∧
      Merged coalescing (done ++ [item]) next := by
  obtain ⟨reads, owners⟩ := merge
  rcases List.eq_nil_or_concat reads with rfl | ⟨front, current, rfl⟩
  · refine ⟨_, rfl, h.openRead hsorted ?_⟩
    intro read hread
    cases hread
  · rw [List.concat_eq_append] at h ⊢
    obtain ⟨first, hfirst, hid, hstart⟩ := h.starts current List.mem_concat_self
    obtain ⟨last, -, -, hstop⟩ := h.stops current List.mem_concat_self
    have hend : current.stop = .ok current.finish := by
      refine PhysicalRange.stop_eq_ok_iff.2 ⟨?_, rfl⟩
      have hfits : last.2.range.stop < u64Bound := last.2.range.fits
      unfold PhysicalRange.finish at hstop
      omega
    simp only [mergeTarget, List.getLast?_concat]
    rw [hend]
    by_cases hjoins : item.2.sourceId = current.sourceId ∧
        Joins coalescing current.finish item.2.offset
    · obtain ⟨hsource, hjoined⟩ := hjoins
      have hbefore : current.offset ≤ item.2.offset := by
        rw [← hstart]
        exact offset_le_of_sortsBefore (hsorted first hfirst) (hid.trans hsource.symm)
      have hle : current.offset ≤ max current.finish item.2.range.stop :=
        (Nat.le_add_right _ _).trans (le_max_left _ _)
      let grown : PhysicalRange :=
        { current with length := max current.finish item.2.range.stop - current.offset }
      have hgrown : grown.sourceId = current.sourceId := rfl
      refine ⟨_, ?_, h.extendRead hsorted hsource hjoined hgrown rfl ?_
        (Nat.add_sub_of_le hbefore)⟩
      · have hextend : Merge.extendRead ⟨front ++ [current], owners⟩ item.1 current
            (.ofTensorRef item.2) current.finish = .ok _ :=
          extendRead_eq_ok_iff.2 ⟨item.2.range.fits, hle, hbefore, rfl⟩
        rw [List.dropLast_concat, List.length_append, List.length_singleton,
          Nat.add_sub_cancel] at hextend
        exact (if_pos ⟨hsource, hjoined⟩).trans hextend
      · unfold PhysicalRange.finish at hle ⊢
        exact Nat.add_sub_of_le hle
    · refine ⟨_, ?_, h.openRead hsorted (h.apart_candidate hsorted hjoins)⟩
      exact if_neg hjoins

/-- The loop over sorted items succeeds and keeps the invariant. -/
theorem mergeTargets_merged {rest : List (Nat × TensorRef)} (h : Merged coalescing done merge)
    (hsorted : (done ++ rest).Pairwise SortsBefore) :
    ∃ next, mergeTargets coalescing merge rest = .ok next ∧
      Merged coalescing (done ++ rest) next := by
  induction rest generalizing done merge with
  | nil =>
      refine ⟨merge, rfl, ?_⟩
      rw [List.append_nil]
      exact h
  | cons item rest ih =>
      have hsplit : done ++ item :: rest = done ++ [item] ++ rest := by
        rw [List.append_assoc, List.singleton_append]
      obtain ⟨-, -, hcross⟩ := List.pairwise_append.1 hsorted
      obtain ⟨middle, hstep, hmiddle⟩ := mergeTarget_merged h
        (fun earlier hmem => hcross earlier hmem item List.mem_cons_self)
      rw [hsplit] at hsorted ⊢
      obtain ⟨next, hrun, hnext⟩ := ih hmiddle hsorted
      refine ⟨next, ?_, hnext⟩
      rw [mergeTargets, hstep]
      exact hrun

theorem order_pairwise (selected : List SelectedTensor) :
    (order selected).Pairwise SortsBefore := by
  have htotal : Std.Total SortsBefore := ⟨by
    intro a b
    unfold SortsBefore
    omega⟩
  have htrans : IsTrans (Nat × TensorRef) SortsBefore := ⟨by
    intro a b c
    unfold SortsBefore
    omega⟩
  exact List.pairwise_insertionSort _ _

/-- The sorted items are the places of the selection with their payloads. -/
theorem mem_order {selected : List SelectedTensor} {item : Nat × TensorRef} :
    item ∈ order selected ↔
      ∃ target, selected[item.1]? = some target ∧ target.payload = item.2 := by
  obtain ⟨index, payload⟩ := item
  rw [order, List.mem_insertionSort, List.mem_map]
  constructor
  · intro h
    obtain ⟨⟨found, place⟩, hmem, heq⟩ := h
    cases heq
    rw [List.mem_zipIdx_iff_getElem?, List.getElem?_map, Option.map_eq_some_iff] at hmem
    exact hmem
  · intro h
    refine ⟨(payload, index), ?_, rfl⟩
    rw [List.mem_zipIdx_iff_getElem?, List.getElem?_map, Option.map_eq_some_iff]
    exact h

theorem order_nodup (selected : List SelectedTensor) :
    ((order selected).map Prod.fst).Nodup := by
  have hperm := (List.perm_insertionSort SortsBefore
    ((selected.map SelectedTensor.payload).zipIdx.map Prod.swap)).map Prod.fst
  refine hperm.nodup_iff.2 ?_
  rw [List.map_map]
  have hfst : (Prod.fst ∘ Prod.swap : TensorRef × Nat → Nat) = Prod.snd := rfl
  rw [hfst, List.zipIdx_map_snd]
  exact List.nodup_range'

end ReadPlan

end VBuf.Ml
