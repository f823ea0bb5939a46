import Mathlib.Algebra.Ring.Nat
import Mathlib.Data.List.Lex
import Mathlib.Data.Prod.Lex
import VBuf.Lib.Ranking

/-!
# The choice among the sources of a tensor

`SourceSelectionPolicy::select` sorts the eligible sources by an estimate in
saturating 64-bit arithmetic, then by id and position.  The clock, which only times
the call, and the kind of a source, which nothing reads, are left out.
-/

namespace VBuf.Ggml.SourceSelection

open VBuf.Lib.Ranking

def uint64Max : UInt64 := 18446744073709551615

/-- `SourceDescriptor`; `source` says whether the pointer is set. -/
structure SourceDescriptor where
  id : List UInt8 := []
  available : Bool := false
  rangeCapable : Bool := false
  measuredThroughputBytesPerSecond : UInt64 := 0
  fixedLatencyUs : UInt64 := 0
  source : Bool := false
  deriving DecidableEq, Repr

/-- `SourceEstimate`. -/
structure SourceEstimate where
  sourceIndex : Nat := 4294967295
  sourceId : List UInt8 := []
  eligible : Bool := false
  estimatedTimeNs : UInt64 := uint64Max
  reason : String := ""
  deriving DecidableEq, Repr

/-- `SourceSelectionResult`. -/
structure SourceSelectionResult where
  estimates : List SourceEstimate
  selectedSource : Option Nat
  fallbackSource : Option Nat
  reason : String
  deriving DecidableEq, Repr

/-- `estimate_ns`. -/
def estimateNs (source : SourceDescriptor) (bytes : UInt64) : UInt64 :=
  if source.measuredThroughputBytesPerSecond = 0 then uint64Max
  else
    let transferNs :=
      if uint64Max / 1000000000 < bytes then uint64Max
      else bytes * 1000000000 / source.measuredThroughputBytesPerSecond
    let latencyNs :=
      if uint64Max / 1000 < source.fixedLatencyUs then uint64Max
      else source.fixedLatencyUs * 1000
    if uint64Max - latencyNs < transferNs then uint64Max else transferNs + latencyNs

/-- Whether a source can be asked for an exact range. -/
def SourceDescriptor.eligible (source : SourceDescriptor) : Bool :=
  source.available && source.rangeCapable && source.source

/-- The estimate of one source. -/
def estimate (bytes : UInt64) (source : SourceDescriptor) (index : Nat) : SourceEstimate where
  sourceIndex := index
  sourceId := source.id
  eligible := source.eligible
  estimatedTimeNs := if source.eligible then estimateNs source bytes else uint64Max
  reason :=
    if ¬ source.eligible then "unavailable-or-no-exact-range-capability"
    else if source.measuredThroughputBytesPerSecond = 0 then "unknown-throughput-ranked-last"
    else "fixed-latency-plus-bytes-over-throughput"

/-- `operator<` of the strings that are ids: bytewise. -/
def IdBefore (left right : List UInt8) : Prop :=
  left.map UInt8.toNat < right.map UInt8.toNat

instance (left right : List UInt8) : Decidable (IdBefore left right) :=
  inferInstanceAs (Decidable (_ < _))

/-- The comparison of `std::sort`. -/
def EstimateBefore (left right : SourceEstimate) : Prop :=
  if left.estimatedTimeNs ≠ right.estimatedTimeNs then
    left.estimatedTimeNs < right.estimatedTimeNs
  else if left.sourceId ≠ right.sourceId then IdBefore left.sourceId right.sourceId
  else left.sourceIndex < right.sourceIndex

instance : DecidableRel EstimateBefore := fun _ _ => instDecidableIte

/-- The estimate at a position. -/
def estimateAt (estimates : List SourceEstimate) (index : Nat) : SourceEstimate :=
  estimates.getD index {}

/-- The positions of the eligible estimates. -/
def eligibleOf (estimates : List SourceEstimate) : List Nat :=
  (List.range estimates.length).filter fun index => (estimateAt estimates index).eligible

/-- The estimates of all sources. -/
def estimatesOf (sources : List SourceDescriptor) (bytes : UInt64) : List SourceEstimate :=
  sources.mapIdx fun index source => estimate bytes source index

/-- `SourceSelectionPolicy::select`.  The loops count with 32 bits, and do not end on more
sources than that. -/
def select (sources : List SourceDescriptor) (tensorBytes : UInt64) :
    Option SourceSelectionResult :=
  if sources.length < 2 ^ 32 then
    let estimates := estimatesOf sources tensorBytes
    let eligible := (eligibleOf estimates).insertionSort fun lhs rhs =>
      ¬ EstimateBefore (estimateAt estimates rhs) (estimateAt estimates lhs)
    some
      { estimates
        selectedSource := eligible[0]?
        fallbackSource := eligible[1]?
        reason :=
          if eligible ≠ [] then "estimated-completion-time-then-source-id"
          else "no-eligible-source" }
  else none

/-! ### The cost of a source -/

/-- What the estimate stands for, over unbounded numbers. -/
def cost (source : SourceDescriptor) (bytes : UInt64) : Nat :=
  source.fixedLatencyUs.toNat * 1000 +
    bytes.toNat * 10 ^ 9 / source.measuredThroughputBytesPerSecond.toNat

/-- The estimate is the largest 64-bit number. -/
def Saturates (source : SourceDescriptor) (bytes : UInt64) : Prop :=
  source.measuredThroughputBytesPerSecond = 0 ∨ 18446744073 < bytes.toNat ∨
    2 ^ 64 - 1 ≤ cost source bytes

theorem saturatingSum_toNat (transfer latency : UInt64) :
    (if uint64Max - latency < transfer then uint64Max else transfer + latency).toNat =
      min (latency.toNat + transfer.toNat) (2 ^ 64 - 1) := by
  have htransfer := transfer.toNat_lt
  have hlatency := latency.toNat_lt
  have hmax : uint64Max.toNat = 2 ^ 64 - 1 := rfl
  have hroom : (uint64Max - latency).toNat = 2 ^ 64 - 1 - latency.toNat := by
    rw [UInt64.toNat_sub_of_le _ _ (UInt64.le_iff_toNat_le.2 (by omega)), hmax]
  split <;> rename_i hless <;> rw [UInt64.lt_iff_toNat_lt, hroom] at hless
  · omega
  · rw [UInt64.toNat_add]
    omega

theorem latencyNs_toNat (latencyUs : UInt64) :
    (if uint64Max / 1000 < latencyUs then uint64Max else latencyUs * 1000).toNat =
      min (latencyUs.toNat * 1000) (2 ^ 64 - 1) := by
  have hlatency := latencyUs.toNat_lt
  have hlimit : uint64Max / 1000 < latencyUs ↔ 18446744073709551 < latencyUs.toNat :=
    UInt64.lt_iff_toNat_lt
  have hmax : uint64Max.toNat = 2 ^ 64 - 1 := rfl
  split <;> rename_i hless <;> rw [hlimit] at hless
  · omega
  · rw [UInt64.toNat_mul, show (1000 : UInt64).toNat = 1000 from rfl]
    omega

/-- The estimate is the cost, cut off at the largest number; it is that number for every
source when the length times a billion does not fit. -/
theorem estimateNs_toNat (source : SourceDescriptor) (bytes : UInt64) :
    (estimateNs source bytes).toNat =
      if source.measuredThroughputBytesPerSecond = 0 ∨ 18446744073 < bytes.toNat then 2 ^ 64 - 1
      else min (cost source bytes) (2 ^ 64 - 1) := by
  unfold estimateNs
  by_cases hzero : source.measuredThroughputBytesPerSecond = 0
  · rw [if_pos hzero, if_pos (.inl hzero)]
    rfl
  · have hlimit : uint64Max / 1000000000 < bytes ↔ 18446744073 < bytes.toNat :=
      UInt64.lt_iff_toNat_lt
    simp only [if_neg hzero, saturatingSum_toNat, latencyNs_toNat, or_iff_right hzero, hlimit]
    by_cases hbytes : 18446744073 < bytes.toNat
    · rw [if_pos hbytes, if_pos hbytes, show uint64Max.toNat = 2 ^ 64 - 1 from rfl]
      omega
    · have htransfer : (bytes * 1000000000 / source.measuredThroughputBytesPerSecond).toNat =
          bytes.toNat * 10 ^ 9 / source.measuredThroughputBytesPerSecond.toNat := by
        rw [UInt64.toNat_div, UInt64.toNat_mul, Nat.mod_eq_of_lt]
        · rfl
        · rw [show (1000000000 : UInt64).toNat = 1000000000 from rfl]
          omega
      rw [if_neg hbytes, if_neg hbytes, htransfer, cost]
      omega

/-! ### The order by cost -/

/-- The source at a position. -/
def sourceAt (sources : List SourceDescriptor) (index : Nat) : SourceDescriptor :=
  sources.getD index {}

/-- The positions of the eligible sources. -/
def eligibleSources (sources : List SourceDescriptor) : List Nat :=
  (List.range sources.length).filter fun index => (sourceAt sources index).eligible

/-- By id, then by position. -/
def tieKey (sources : List SourceDescriptor) (index : Nat) : List Nat ×ₗ Nat :=
  toLex ((sourceAt sources index).id.map UInt8.toNat, index)

/-- The known sources by their cost, then the unknown ones; ties by id, then by position. -/
def costKey (sources : List SourceDescriptor) (bytes : UInt64) (index : Nat) :
    Nat ×ₗ Nat ×ₗ List Nat ×ₗ Nat :=
  let source := sourceAt sources index
  if source.measuredThroughputBytesPerSecond = 0 then toLex (1, toLex (0, tieKey sources index))
  else toLex (0, toLex (cost source bytes, tieKey sources index))

/-- By the estimate; ties by id, then by position. -/
def estimateKey (estimates : List SourceEstimate) (index : Nat) : Nat ×ₗ List Nat ×ₗ Nat :=
  let estimate := estimateAt estimates index
  toLex (estimate.estimatedTimeNs.toNat,
    toLex (estimate.sourceId.map UInt8.toNat, estimate.sourceIndex))

section Keys

variable {sources : List SourceDescriptor} {estimates : List SourceEstimate} {bytes : UInt64}
  {i j : Nat}

theorem map_toNat_inj {xs ys : List UInt8} : xs.map UInt8.toNat = ys.map UInt8.toNat ↔ xs = ys :=
  List.map_inj_right fun _ _ => UInt8.toNat_inj.1

theorem not_estimateBefore_iff :
    ¬ EstimateBefore (estimateAt estimates j) (estimateAt estimates i) ↔
      estimateKey estimates i ≤ estimateKey estimates j := by
  rw [← not_lt, not_iff_not, estimateKey, estimateKey, Prod.Lex.toLex_lt_toLex,
    Prod.Lex.toLex_lt_toLex, UInt64.toNat_inj, map_toNat_inj, EstimateBefore, IdBefore,
    ← UInt64.lt_iff_toNat_lt]
  dsimp only
  split_ifs with htime hid
  · exact ⟨.inl, fun h => h.resolve_right fun hright => htime hright.1⟩
  · rw [not_not] at htime
    rw [htime]
    simp [hid]
  · rw [not_not] at htime hid
    rw [htime, hid]
    simp

theorem eligible_lt (h : i ∈ eligibleSources sources) : i < sources.length :=
  List.mem_range.1 (List.mem_of_mem_filter h)

theorem estimateAt_estimatesOf (h : i < sources.length) :
    estimateAt (estimatesOf sources bytes) i =
      estimate bytes (sourceAt sources i) i := by
  rw [estimateAt, estimatesOf, sourceAt, List.getD_eq_getElem?_getD, List.getD_eq_getElem?_getD,
    List.getElem?_mapIdx, List.getElem?_eq_getElem h]
  rfl

theorem eligibleOf_estimatesOf :
    eligibleOf (estimatesOf sources bytes) =
      eligibleSources sources := by
  rw [eligibleOf, show (estimatesOf sources bytes).length = sources.length from
    List.length_mapIdx, eligibleSources]
  refine List.filter_congr ?_
  intro index hindex
  rw [estimateAt_estimatesOf (List.mem_range.1 hindex)]
  rfl

theorem estimateKey_estimatesOf (h : i ∈ eligibleSources sources) :
    estimateKey (estimatesOf sources bytes) i =
      toLex ((estimateNs (sourceAt sources i) bytes).toNat, tieKey sources i) := by
  have heligible : (sourceAt sources i).eligible := by
    simpa using (List.mem_filter.1 h).2
  rw [estimateKey, estimateAt_estimatesOf (eligible_lt h), tieKey, estimate]
  simp only [heligible, if_true]

theorem nodup_estimateKey :
    ((eligibleSources sources).map (estimateKey
      (estimatesOf sources bytes))).Nodup := by
  refine List.Nodup.map_on ?_ (List.nodup_range.filter _)
  intro i hi j hj h
  rw [estimateKey_estimatesOf hi, estimateKey_estimatesOf hj, tieKey, tieKey] at h
  simp only [EmbeddingLike.apply_eq_iff_eq, Prod.mk.injEq] at h
  exact h.2.2

theorem nodup_costKey : ((eligibleSources sources).map (costKey sources bytes)).Nodup := by
  refine List.Nodup.map_on ?_ (List.nodup_range.filter _)
  intro i hi j hj h
  unfold costKey tieKey at h
  dsimp only at h
  split_ifs at h <;> simp_all

theorem costKey_lt_iff : costKey sources bytes i < costKey sources bytes j ↔
    if (sourceAt sources i).measuredThroughputBytesPerSecond = 0 then
      (sourceAt sources j).measuredThroughputBytesPerSecond = 0 ∧
        tieKey sources i < tieKey sources j
    else
      (sourceAt sources j).measuredThroughputBytesPerSecond = 0 ∨
      cost (sourceAt sources i) bytes < cost (sourceAt sources j) bytes ∨
        (cost (sourceAt sources i) bytes = cost (sourceAt sources j) bytes ∧
          tieKey sources i < tieKey sources j) := by
  unfold costKey
  dsimp only
  split_ifs <;> simp_all [Prod.Lex.toLex_lt_toLex]

theorem estimate_eq_of_saturates {source : SourceDescriptor} (h : Saturates source bytes) :
    (estimateNs source bytes).toNat = 2 ^ 64 - 1 := by
  rw [estimateNs_toNat]
  split <;> rename_i hneither
  · rfl
  · obtain ⟨hknown, hbytes⟩ := not_or.1 hneither
    have hcost := (h.resolve_left hknown).resolve_left hbytes
    omega

/-- The estimates put two sources otherwise than the costs do exactly when both saturate and
their ids do. -/
theorem disagree_iff (hi : i ∈ eligibleSources sources) (hj : j ∈ eligibleSources sources)
    (hcost : costKey sources bytes i < costKey sources bytes j) :
    estimateKey (estimatesOf sources bytes) j <
        estimateKey (estimatesOf sources bytes) i ↔
      Saturates (sourceAt sources i) bytes ∧ Saturates (sourceAt sources j) bytes ∧
        tieKey sources j < tieKey sources i := by
  rw [estimateKey_estimatesOf hi, estimateKey_estimatesOf hj, Prod.Lex.toLex_lt_toLex]
  constructor
  · intro h
    rw [costKey_lt_iff] at hcost
    rw [estimateNs_toNat, estimateNs_toNat] at h
    by_cases hi0 : (sourceAt sources i).measuredThroughputBytesPerSecond = 0
    · rw [if_pos hi0] at hcost
      rw [if_pos (.inl hcost.1), if_pos (.inl hi0)] at h
      exact absurd (h.resolve_left (lt_irrefl _)).2 (lt_asymm hcost.2)
    · rw [if_neg hi0] at hcost
      by_cases hbytes : 18446744073 < bytes.toNat
      · rw [if_pos (.inr hbytes), if_pos (.inr hbytes)] at h
        exact ⟨.inr (.inl hbytes), .inr (.inl hbytes), (h.resolve_left (lt_irrefl _)).2⟩
      · rw [if_neg (not_or.2 ⟨hi0, hbytes⟩)] at h
        by_cases hj0 : (sourceAt sources j).measuredThroughputBytesPerSecond = 0
        · rw [if_pos (.inl hj0)] at h
          have hmax : 2 ^ 64 - 1 ≤ cost (sourceAt sources i) bytes := by omega
          exact ⟨.inr (.inr hmax), .inl hj0, (h.resolve_left (by omega)).2⟩
        · rw [if_neg (not_or.2 ⟨hj0, hbytes⟩)] at h
          rcases hcost.resolve_left hj0 with hless | ⟨heq, htie⟩
          · have hmax : 2 ^ 64 - 1 ≤ cost (sourceAt sources i) bytes := by omega
            exact ⟨.inr (.inr hmax), .inr (.inr (by omega)), (h.resolve_left (by omega)).2⟩
          · rw [heq] at h
            exact absurd (h.resolve_left (lt_irrefl _)).2 (lt_asymm htie)
  · intro ⟨hsi, hsj, htie⟩
    rw [estimate_eq_of_saturates hsi, estimate_eq_of_saturates hsj]
    exact .inr ⟨rfl, htie⟩

end Keys

/-! ### When the choice is the best one -/

/-- Two eligible sources whose estimates saturate, one before the other by cost and behind it
by id, have two better ones in front of them. -/
def SaturatedInOrder (sources : List SourceDescriptor) (bytes : UInt64) : Prop :=
  ∀ i ∈ eligibleSources sources, ∀ j ∈ eligibleSources sources,
    costKey sources bytes i < costKey sources bytes j → tieKey sources j < tieKey sources i →
    Saturates (sourceAt sources i) bytes → Saturates (sourceAt sources j) bytes →
    2 ≤ rank (costKey sources bytes) (eligibleSources sources) i

theorem first_two_eq_iff {α : Type*} {xs ys : List α} :
    (xs[0]? = ys[0]? ∧ xs[1]? = ys[1]?) ↔ xs.take 2 = ys.take 2 := by
  constructor
  · intro ⟨hfirst, hsecond⟩
    refine List.ext_getElem? ?_
    intro place
    rcases place with _ | _ | place
    · simpa using hfirst
    · simpa using hsecond
    · rw [List.getElem?_eq_none (by simp), List.getElem?_eq_none (by simp)]
  · intro h
    have hat (place : Nat) (hplace : place < 2) : xs[place]? = ys[place]? := by
      rw [← List.getElem?_take_of_lt hplace, h, List.getElem?_take_of_lt hplace]
    exact ⟨hat 0 (by omega), hat 1 (by omega)⟩

/-- The selected source is the best eligible one by cost and the fallback the best of the
others exactly when the saturated estimates are in order. -/
theorem select_isBestPair_iff {sources : List SourceDescriptor} {bytes : UInt64}
    {result : SourceSelectionResult} (h : select sources bytes = some result) :
    IsBestPair (costKey sources bytes) (eligibleSources sources) result.selectedSource
      result.fallbackSource ↔ SaturatedInOrder sources bytes := by
  have hsort : (eligibleOf (estimatesOf sources bytes)).insertionSort (fun lhs rhs =>
      ¬ EstimateBefore (estimateAt (estimatesOf sources bytes) rhs)
        (estimateAt (estimatesOf sources bytes) lhs)) =
      sortBy (estimateKey (estimatesOf sources bytes)) (eligibleSources sources) := by
    rw [eligibleOf_estimatesOf]
    exact insertionSort_eq_sortBy fun _ _ => not_estimateBefore_iff
  have hchosen : result.selectedSource =
        (sortBy (estimateKey (estimatesOf sources bytes)) (eligibleSources sources))[0]? ∧
      result.fallbackSource =
        (sortBy (estimateKey (estimatesOf sources bytes)) (eligibleSources sources))[1]? := by
    unfold select at h
    split at h
    · rw [← Option.some.inj h, ← hsort]
      exact ⟨rfl, rfl⟩
    · exact absurd h nofun
  rw [isBestPair_iff nodup_costKey, hchosen.1, hchosen.2, first_two_eq_iff, eq_comm,
    take_eq_take_iff (sortBy_ascending nodup_costKey) (sortBy_ascending nodup_estimateKey)
      (sortBy_perm.trans sortBy_perm.symm)]
  simp only [mem_sortBy, rank_perm sortBy_perm]
  constructor
  · intro hall i hi j hj hcost htie hsi hsj
    exact hall i hi j hj hcost ((disagree_iff hi hj hcost).2 ⟨hsi, hsj, htie⟩)
  · intro hall i hi j hj hcost hestimate
    obtain ⟨hsi, hsj, htie⟩ := (disagree_iff hi hj hcost).1 hestimate
    exact hall i hi j hj hcost htie hsi hsj

/-- A slow source with the lower id, and a fast one. -/
def exampleSources : List SourceDescriptor :=
  [⟨[97], true, true, 1000, 0, true⟩, ⟨[98], true, true, 1000000, 0, true⟩]

theorem select_isBestPair_iff_example :
    ∃ result, select exampleSources 1000 = some result ∧
      (IsBestPair (costKey exampleSources 1000) (eligibleSources exampleSources)
        result.selectedSource result.fallbackSource ↔ SaturatedInOrder exampleSources 1000) :=
  ⟨_, rfl, select_isBestPair_iff rfl⟩

/-- For a range of 18446744074 bytes both estimates saturate, and the slow source is
selected. -/
theorem select_saturated :
    ∃ result, select exampleSources 18446744074 = some result ∧
      result.selectedSource = some 0 ∧ 1 ∈ eligibleSources exampleSources ∧
      costKey exampleSources 18446744074 1 < costKey exampleSources 18446744074 0 := by
  refine ⟨_, rfl, by decide, by decide, ?_⟩
  rw [costKey_lt_iff]
  decide

end VBuf.Ggml.SourceSelection
