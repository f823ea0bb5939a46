import VBuf.Ml.RangeLoadingSpec

/-!
# Executing a read plan

The owners are put back in the order of the selection, and the read of each owner
holds its payload, so the bytes cut out of the loaded reads are the payloads'.
-/

namespace VBuf.Ml

open VBuf.Lib VBuf.Layout VBuf.V06

namespace ReadPlan

/-- The planned target is the selected one, in a read that contains it. -/
def PlannedFor (reads : List PhysicalRange) (target : SelectedTensor) (planned : PlannedTarget) :
    Prop :=
  planned.selected = target ∧ ∃ read, reads[planned.physicalReadIndex]? = some read ∧
    read.Holds target.payload ∧ read.offset + planned.relativeOffset = target.payload.offset

/-- What a plan of a selection promises: each target has a read that contains it;
the reads are in order, without a common byte, and as few as the mode makes them;
they begin and end with a target; a byte of a read is a byte of a target or of a
gap that the mode allows. -/
structure Planned (selected : List SelectedTensor) (coalescing : Coalescing) (plan : ReadPlan) :
    Prop where
  targets : List.Forall₂ (PlannedFor plan.reads) selected plan.targets
  before : plan.reads.Pairwise PhysicalRange.Before
  apart : plan.reads.Pairwise (Apart coalescing)
  starts : ∀ read ∈ plan.reads, ∃ target ∈ selected,
    target.payload.sourceId = read.sourceId ∧ target.payload.offset = read.offset
  stops : ∀ read ∈ plan.reads, ∃ target ∈ selected,
    target.payload.sourceId = read.sourceId ∧ target.payload.range.stop = read.finish
  covered : ∀ read ∈ plan.reads, ∀ position, read.offset ≤ position → position < read.finish →
    (∃ target ∈ selected, target.payload.Covers read.sourceId position) ∨
      InGap coalescing (selected.map SelectedTensor.payload) read.sourceId position

variable {selected : List SelectedTensor} {coalescing : Coalescing}

/-- Owners with distinct places each end up at their place, and no other place
changes. -/
theorem placeOwners_placed {owners : List Owner} {targets : List (Option PlannedTarget)}
    (hnodup : (owners.map Owner.selectionIndex).Nodup) (hlength : targets.length = selected.length)
    (hbound : ∀ owner ∈ owners, owner.selectionIndex < selected.length) :
    ∃ placed, placeOwners selected targets owners = .ok placed ∧
      placed.length = selected.length ∧
      (∀ owner ∈ owners, ∀ target, selected[owner.selectionIndex]? = some target →
        placed[owner.selectionIndex]? =
          some (some ⟨target, owner.readIndex, owner.relativeOffset⟩)) ∧
      ∀ i, i ∉ owners.map Owner.selectionIndex → placed[i]? = targets[i]? := by
  induction owners generalizing targets with
  | nil =>
      refine ⟨targets, rfl, hlength, ?_, fun i _ => rfl⟩
      intro owner hmem
      cases hmem
  | cons owner rest ih =>
      rw [List.map_cons, List.nodup_cons] at hnodup
      have hlt := hbound owner List.mem_cons_self
      obtain ⟨target, htarget⟩ : ∃ target, selected[owner.selectionIndex]? = some target :=
        ⟨_, List.getElem?_eq_getElem hlt⟩
      obtain ⟨placed, hrun, hplaced, hat, hother⟩ := ih hnodup.2
        (List.length_set.trans hlength)
        (fun other hmem => hbound other (List.mem_cons_of_mem _ hmem))
      refine ⟨placed, ?_, hplaced, ?_, ?_⟩
      · rw [placeOwners, htarget]
        exact hrun
      · intro other hmem found hfound
        rcases List.mem_cons.1 hmem with rfl | hrest
        · rw [htarget] at hfound
          cases hfound
          rw [hother _ hnodup.1, List.getElem?_set_self (by omega)]
        · exact hat other hrest found hfound
      · intro i hi
        rw [List.map_cons, List.mem_cons, not_or] at hi
        rw [hother i hi.2, List.getElem?_set_ne (fun heq => hi.1 heq.symm)]

/-- Optional targets that are all there are the targets. -/
theorem mapM_okOr_of_forall₂ {α β : Type} {R : α → β → Prop} {items : List α}
    {options : List (Option β)} (stop : BuildStop)
    (h : List.Forall₂ (fun item option => ∃ value, option = some value ∧ R item value) items
      options) :
    ∃ values, options.mapM (okOr · stop) = .ok values ∧ List.Forall₂ R items values := by
  induction h with
  | nil => exact ⟨[], rfl, List.Forall₂.nil⟩
  | @cons item option items options hhead _ ih =>
      obtain ⟨value, rfl, hvalue⟩ := hhead
      obtain ⟨values, hrun, hvalues⟩ := ih
      refine ⟨value :: values, ?_, List.Forall₂.cons hvalue hvalues⟩
      rw [mapM_eq_ok_iff] at hrun ⊢
      exact List.Forall₂.cons rfl hrun

theorem InGap.congr {payloads others : List TensorRef} {source : SourceId} {position : Nat}
    (hmem : ∀ payload, payload ∈ payloads ↔ payload ∈ others)
    (h : InGap coalescing payloads source position) :
    InGap coalescing others source position := by
  obtain ⟨limit, hmode, a, ha, b, hb, hasource, hbsource, hstart, hstop, hlimit, hfree⟩ := h
  exact ⟨limit, hmode, a, (hmem a).1 ha, b, (hmem b).1 hb, hasource, hbsource, hstart, hstop,
    hlimit, fun c hc => hfree c ((hmem c).2 hc)⟩

/-- Planning succeeds for every selection and mode, and keeps its promise. -/
theorem build_planned (selected : List SelectedTensor) (coalescing : Coalescing) :
    ∃ plan, build selected coalescing = .ok plan ∧ plan.Planned selected coalescing := by
  by_cases hempty : selected = []
  · subst hempty
    refine ⟨⟨[], []⟩, rfl, List.Forall₂.nil, List.Pairwise.nil, List.Pairwise.nil, ?_, ?_, ?_⟩
    all_goals
      intro read hread
      cases hread
  have hnil : Merged coalescing [] ⟨[], []⟩ := Merged.nil
  have hsorted : ([] ++ order selected).Pairwise SortsBefore := order_pairwise selected
  obtain ⟨merge, hrun, hmerged⟩ := mergeTargets_merged hnil hsorted
  rw [List.nil_append] at hmerged
  have hbound : ∀ owner ∈ merge.owners, owner.selectionIndex < selected.length := by
    intro owner hmem
    obtain ⟨item, hitem, hindex, -⟩ := exists_of_mem_right hmerged.owned hmem
    obtain ⟨target, hget, -⟩ := mem_order.1 hitem
    rw [hindex]
    exact (List.getElem?_eq_some_iff.1 hget).1
  have hreplicate : (List.replicate selected.length (none : Option PlannedTarget)).length =
      selected.length := List.length_replicate
  obtain ⟨placed, hplace, hlength, hat, -⟩ := placeOwners_placed
    (map_selectionIndex hmerged.owned ▸ order_nodup selected) hreplicate hbound
  have hplanned : List.Forall₂ (fun target option =>
      ∃ planned, option = some planned ∧ PlannedFor merge.reads target planned)
      selected placed := by
    refine List.forall₂_iff_get.2 ⟨hlength.symm, ?_⟩
    intro i hi hj
    have htarget : selected[i]? = some (selected.get ⟨i, hi⟩) := List.getElem?_eq_getElem hi
    -- The i-th target is an item of the loop, so it has an owner with that place.
    obtain ⟨owner, howner, hindex, read, hget, hholds, hrelative⟩ := exists_of_mem_left
      hmerged.owned (mem_order.2 ⟨_, htarget, rfl⟩ : (i, _) ∈ order selected)
    simp only at hindex
    subst hindex
    have hplaced := hat owner howner _ htarget
    rw [List.getElem?_eq_getElem hj] at hplaced
    exact ⟨_, Option.some.inj hplaced, rfl, read, hget, hholds, hrelative⟩
  obtain ⟨targets, hexpect, htargets⟩ := mapM_okOr_of_forall₂ .missingTarget hplanned
  have hitem : ∀ item ∈ order selected, ∃ target ∈ selected, target.payload = item.2 := by
    intro item hmem
    obtain ⟨target, hget, heq⟩ := mem_order.1 hmem
    exact ⟨target, List.mem_of_getElem? hget, heq⟩
  refine ⟨⟨targets, merge.reads⟩, ?_, htargets, hmerged.apart.imp Apart.before, hmerged.apart,
    ?_, ?_, ?_⟩
  · rw [build, if_neg hempty, hrun]
    simp only [mapErr, bind, Except.bind]
    rw [hplace]
    simp only
    rw [hexpect]
    rfl
  · intro read hread
    obtain ⟨item, hmem, hstart⟩ := hmerged.starts read hread
    obtain ⟨target, htarget, heq⟩ := hitem item hmem
    exact ⟨target, htarget, heq ▸ hstart⟩
  · intro read hread
    obtain ⟨item, hmem, hstop⟩ := hmerged.stops read hread
    obtain ⟨target, htarget, heq⟩ := hitem item hmem
    exact ⟨target, htarget, heq ▸ hstop⟩
  · intro read hread position hstart hstop
    rcases hmerged.covered read hread position hstart hstop with ⟨item, hmem, hcovers⟩ | hgap
    · obtain ⟨target, htarget, heq⟩ := hitem item hmem
      exact Or.inl ⟨target, htarget, heq ▸ hcovers⟩
    · refine Or.inr (hgap.congr fun payload => ?_)
      rw [List.mem_map, List.mem_map]
      constructor
      · intro h
        obtain ⟨item, hmem, rfl⟩ := h
        exact hitem item hmem
      · intro h
        obtain ⟨target, hmem, rfl⟩ := h
        obtain ⟨i, hi, hget⟩ := List.getElem_of_mem hmem
        refine ⟨(i, target.payload), mem_order.2 ⟨target, ?_, rfl⟩, rfl⟩
        rw [List.getElem?_eq_getElem hi, hget]

end ReadPlan

/-- The source has these bytes, and what it reads inside them is a piece of them. -/
def RangeSource.Serves (source : RangeSource) (contents : List UInt8) : Prop :=
  source.len = contents.length ∧ ∀ offset length bytes, offset + length ≤ source.len →
    source.readExactAt offset length = .ok bytes → bytes = slice contents offset length

/-- The source answers every read inside it that ends at a `u64`. -/
def RangeSource.Answers (source : RangeSource) : Prop :=
  ∀ offset length, offset + length ≤ source.len → offset + length < u64Bound →
    ∃ bytes, source.readExactAt offset length = .ok bytes

theorem executeRead_eq_ok_iff {sources : SourceResolver} {range : PhysicalRange}
    {loaded : LoadedRead} :
    executeRead sources range = .ok loaded ↔ loaded.range = range ∧
      range.finish < u64Bound ∧ ∃ source, sources range.sourceId = some source ∧
        range.finish ≤ source.len ∧
        source.readExactAt range.offset range.length = .ok loaded.bytes := by
  simp only [executeRead, bind_eq_ok_iff, okOr_eq_ok_iff, PhysicalRange.stop_eq_ok_iff,
    rejectIf_eq_ok_iff, pure_eq_ok_iff, not_lt, PhysicalRange.finish]
  constructor
  · intro h
    obtain ⟨source, hsource, _, ⟨hfits, rfl⟩, _, hinside, bytes, hread, rfl⟩ := h
    exact ⟨rfl, hfits, source, hsource, hinside, hread⟩
  · intro h
    obtain ⟨rfl, hfits, source, hsource, hinside, hread⟩ := h
    exact ⟨source, hsource, _, ⟨hfits, rfl⟩, (), hinside, loaded.bytes, hread, rfl⟩

/-- What was loaded is, read by read, the planned range of its source. -/
theorem targetBytes_of_planned {selected : List SelectedTensor} {coalescing : Coalescing}
    {plan : ReadPlan} {sources : SourceResolver} {contents : SourceId → List UInt8}
    {loaded : LoadedPlan} (hplan : plan.Planned selected coalescing)
    (hserves : ∀ id source, sources id = some source → source.Serves (contents id))
    (hloaded : executePlanWithSources sources plan = .ok loaded) :
    plan.targets.map loaded.targetBytes = selected.map fun target =>
      .ok (slice (contents target.payload.sourceId) target.payload.offset
        target.payload.length) := by
  simp only [executePlanWithSources, bind_eq_ok_iff, pure_eq_ok_iff, mapM_eq_ok_iff] at hloaded
  obtain ⟨reads, hreads, rfl⟩ := hloaded
  have htarget : ∀ target planned, ReadPlan.PlannedFor plan.reads target planned →
      LoadedPlan.targetBytes ⟨reads⟩ planned = .ok (slice (contents target.payload.sourceId)
        target.payload.offset target.payload.length) := by
    intro target planned h
    obtain ⟨rfl, read, hget, ⟨hsource, hstart, hstop⟩, hrelative⟩ := h
    obtain ⟨hi, heq⟩ := List.getElem?_eq_some_iff.1 hget
    obtain ⟨hlength, hat⟩ := List.forall₂_iff_get.1 hreads
    have hj : planned.physicalReadIndex < reads.length := by omega
    have hread := hat planned.physicalReadIndex hi hj
    simp only [List.get_eq_getElem, heq] at hread
    obtain ⟨-, hfits, source, hresolved, hinside, hbytes⟩ := executeRead_eq_ok_iff.1 hread
    have hslice : reads[planned.physicalReadIndex].bytes =
        slice (contents read.sourceId) read.offset read.length :=
      (hserves _ _ hresolved).2 _ _ _ hinside hbytes
    have hsize : read.finish ≤ (contents read.sourceId).length :=
      hinside.trans_eq (hserves _ _ hresolved).1
    have hfinish : read.finish = read.offset + read.length := rfl
    have hpayload : planned.selected.payload.range.stop =
        planned.selected.payload.offset + planned.selected.payload.length := rfl
    simp only [LoadedPlan.targetBytes, bind_eq_ok_iff, okOr_eq_ok_iff, rejectIf_eq_ok_iff,
      range?_eq_some_iff]
    refine ⟨_, List.getElem?_eq_getElem hj, (), by omega, Nat.le_add_right _ _, ?_, ?_⟩
    · rw [hslice, slice_length_of_le (by omega)]
      omega
    · rw [hslice, slice_slice (by omega), hrelative, hsource, Nat.add_sub_cancel_left]
  have htargets := hplan.targets
  generalize plan.targets = targets at htargets
  clear hplan
  induction htargets with
  | nil => rfl
  | @cons target planned rest plans hhead _ ih =>
      rw [List.map_cons, List.map_cons, ih, htarget target planned hhead]

/-- Sources that answer and hold every target let the plan run through. -/
theorem executePlan_of_holds {selected : List SelectedTensor} {coalescing : Coalescing}
    {plan : ReadPlan} {sources : SourceResolver} (hplan : plan.Planned selected coalescing)
    (hholds : ∀ target ∈ selected, ∃ source, sources target.payload.sourceId = some source ∧
      target.payload.range.stop ≤ source.len ∧ source.Answers) :
    ∃ loaded, executePlanWithSources sources plan = .ok loaded := by
  have hread : ∀ read ∈ plan.reads, ∃ loaded, executeRead sources read = .ok loaded := by
    intro read hmem
    obtain ⟨target, htarget, hsource, hstop⟩ := hplan.stops read hmem
    obtain ⟨source, hresolved, hinside, hanswers⟩ := hholds target htarget
    have hfits : target.payload.range.stop < u64Bound := target.payload.range.fits
    rw [hstop] at hinside hfits
    rw [hsource] at hresolved
    obtain ⟨bytes, hbytes⟩ := hanswers read.offset read.length hinside hfits
    exact ⟨⟨read, bytes⟩, executeRead_eq_ok_iff.2
      ⟨rfl, hfits, source, hresolved, hinside, hbytes⟩⟩
  obtain ⟨loaded, hloaded⟩ := mapM_eq_ok_of_forall hread
  refine ⟨⟨loaded⟩, ?_⟩
  rw [executePlanWithSources, hloaded]
  rfl

/-- Range planning is total, covers the selection with as little as the mode
allows, and its execution returns the source bytes of each selected range. -/
theorem readPlan_faithful (selected : List SelectedTensor) (coalescing : Coalescing) :
    ∃ plan, ReadPlan.build selected coalescing = .ok plan ∧ plan.Planned selected coalescing ∧
      ∀ (sources : SourceResolver) (contents : SourceId → List UInt8),
        (∀ id source, sources id = some source → source.Serves (contents id)) →
        (∀ loaded, executePlanWithSources sources plan = .ok loaded →
          plan.targets.map loaded.targetBytes = selected.map fun target =>
            .ok (slice (contents target.payload.sourceId) target.payload.offset
              target.payload.length)) ∧
        ((∀ target ∈ selected, ∃ source, sources target.payload.sourceId = some source ∧
            target.payload.range.stop ≤ source.len ∧ source.Answers) →
          ∃ loaded, executePlanWithSources sources plan = .ok loaded) := by
  obtain ⟨plan, hbuild, hplan⟩ := ReadPlan.build_planned selected coalescing
  refine ⟨plan, hbuild, hplan, ?_⟩
  intro sources contents hserves
  exact ⟨fun loaded hloaded => targetBytes_of_planned hplan hserves hloaded,
    executePlan_of_holds hplan⟩

end VBuf.Ml
