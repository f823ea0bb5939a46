import Mathlib.Data.Nat.Basic
import VBuf.Ggml.TieredStore

/-!
# Accounting of the tiers

Each byte counter is the sum over the entries of its tier and stays within the
capacity; making room, moving and dropping keep that.
-/

namespace VBuf.Ggml

open VBuf.Lib

namespace TieredResidencyStore

/-- The sum of the sizes of the entries in a tier. -/
def tierTotal (tier : ResidencyTier) (store : TieredResidencyStore) : Nat :=
  AssocMap.total (fun _ entry => if entry.tier = tier then entry.bytes.toNat else 0) store.entries

/-- The byte counters are the sums over their tiers, within the capacities. -/
structure Accounted (store : TieredResidencyStore) : Prop where
  bytes_eq : ∀ tier, tier ≠ .backing → (store.tierBytes tier).toNat = store.tierTotal tier
  bytes_le : ∀ tier, tier ≠ .backing →
    (store.tierBytes tier).toNat ≤ (store.capacity tier).toNat
  settled : ∀ tensorRef entry, store.entries.lookup tensorRef = some entry → entry.tier ≠ .backing
  small : ∀ tier, (store.capacity tier).toNat < 2 ^ 63

variable {store after : TieredResidencyStore} {tensorRef : UInt32} {entry : TieredResidencyEntry}

theorem bytes_le_tierTotal (hlookup : store.entries.lookup tensorRef = some entry) :
    entry.bytes.toNat ≤ store.tierTotal entry.tier := by
  have hle := AssocMap.weight_le_total
    (fun _ e => if e.tier = entry.tier then e.bytes.toNat else 0) hlookup
  rw [if_pos rfl] at hle
  exact hle

/-- An entry is within the bytes of its tier. -/
theorem Accounted.entry_le (h : store.Accounted)
    (hlookup : store.entries.lookup tensorRef = some entry) :
    entry.bytes.toNat ≤ (store.tierBytes entry.tier).toNat := by
  rw [h.bytes_eq entry.tier (h.settled tensorRef entry hlookup)]
  exact bytes_le_tierTotal hlookup

/-- An entry is smaller than half the range of the counters. -/
theorem Accounted.entry_small (h : store.Accounted)
    (hlookup : store.entries.lookup tensorRef = some entry) : entry.bytes.toNat < 2 ^ 63 := by
  have hle := h.entry_le hlookup
  have hbytes := h.bytes_le entry.tier (h.settled tensorRef entry hlookup)
  have hsmall := h.small entry.tier
  omega

theorem toNat_sub_bytes {total bytes : UInt64} (h : bytes.toNat ≤ total.toNat) :
    (total - bytes).toNat = total.toNat - bytes.toNat :=
  UInt64.toNat_sub_of_le _ _ (UInt64.le_iff_toNat_le.2 h)

theorem toNat_add_bytes {total bytes : UInt64} (h : total.toNat + bytes.toNat < 2 ^ 64) :
    (total + bytes).toNat = total.toNat + bytes.toNat := by
  rw [UInt64.toNat_add]
  exact Nat.mod_eq_of_lt h

/-- The test of `make_room` is not falsified by an overflow. -/
theorem Accounted.fits_iff (h : store.Accounted) {tier : ResidencyTier} (htier : tier ≠ .backing)
    {bytes : UInt64} (hbytes : bytes.toNat < 2 ^ 63) :
    store.tierBytes tier + bytes ≤ store.capacity tier ↔
      (store.tierBytes tier).toNat + bytes.toNat ≤ (store.capacity tier).toNat := by
  have hle := h.bytes_le tier htier
  have hsmall := h.small tier
  rw [UInt64.le_iff_toNat_le, toNat_add_bytes (by omega)]

/-! ### Entries that leave, move and come -/

theorem lookup_without (ref : UInt32) :
    (store.without tensorRef entry).entries.lookup ref =
      if ref = tensorRef then none else store.entries.lookup ref :=
  AssocMap.lookup_erase_eq _ _ _

theorem tierTotal_without (hlookup : store.entries.lookup tensorRef = some entry)
    (tier : ResidencyTier) :
    store.tierTotal tier =
      (if entry.tier = tier then entry.bytes.toNat else 0) +
        (store.without tensorRef entry).tierTotal tier :=
  AssocMap.total_erase _ hlookup

theorem tierBytes_without {tier : ResidencyTier} (htier : tier ≠ .backing)
    (hentry : entry.tier ≠ .backing) :
    (store.without tensorRef entry).tierBytes tier =
      if entry.tier = tier then store.tierBytes tier - entry.bytes else store.tierBytes tier := by
  unfold tierBytes without
  cases tier <;> cases htier' : entry.tier <;> simp_all

theorem capacity_without (tier : ResidencyTier) :
    (store.without tensorRef entry).capacity tier = store.capacity tier := by
  cases tier <;> rfl

/-- A tensor that leaves is taken off its counter. -/
theorem Accounted.without (h : store.Accounted)
    (hlookup : store.entries.lookup tensorRef = some entry) :
    (store.without tensorRef entry).Accounted := by
  have hentry := h.settled tensorRef entry hlookup
  refine ⟨?_, ?_, ?_, fun tier => (capacity_without tier).symm ▸ h.small tier⟩
  · intro tier htier
    have htotal := tierTotal_without hlookup tier
    have hbytes := h.bytes_eq tier htier
    rw [tierBytes_without htier hentry]
    split at htotal
    next heq =>
        rw [if_pos heq, toNat_sub_bytes (by omega)]
        omega
    next hne =>
        rw [if_neg hne]
        omega
  · intro tier htier
    have hle := h.bytes_le tier htier
    rw [tierBytes_without htier hentry, capacity_without]
    split
    next heq =>
        have hentryle := h.entry_le hlookup
        rw [heq] at hentryle
        rw [toNat_sub_bytes hentryle]
        omega
    next => exact hle
  · intro ref e he
    rw [lookup_without] at he
    split at he
    · cases he
    · exact h.settled ref e he

theorem lookup_relocate (target : ResidencyTier) (ref : UInt32) :
    (store.relocate tensorRef entry target).entries.lookup ref =
      if ref = tensorRef then some { entry with tier := target } else store.entries.lookup ref :=
  AssocMap.lookup_insert_eq _ _ _ _

/-- There are two tiers beside the backing. -/
theorem other_tier {a b c : ResidencyTier} (ha : a ≠ .backing) (hb : b ≠ .backing)
    (hc : c ≠ .backing) (hab : a ≠ b) (hac : a ≠ c) : b = c := by
  cases a <;> cases b <;> cases c <;> simp_all

theorem tierTotal_relocate (hlookup : store.entries.lookup tensorRef = some entry)
    (target tier : ResidencyTier) :
    (store.relocate tensorRef entry target).tierTotal tier +
        (if entry.tier = tier then entry.bytes.toNat else 0) =
      (if target = tier then entry.bytes.toNat else 0) + store.tierTotal tier := by
  have herase := tierTotal_without hlookup tier
  have hinsert : (store.relocate tensorRef entry target).tierTotal tier =
      (if target = tier then entry.bytes.toNat else 0) +
        (store.without tensorRef entry).tierTotal tier := AssocMap.total_insert _ _ _ _
  omega

theorem tierBytes_relocate {target tier : ResidencyTier} (htarget : target ≠ .backing)
    (htier : tier ≠ .backing) (hentry : entry.tier ≠ .backing) (hne : entry.tier ≠ target) :
    (store.relocate tensorRef entry target).tierBytes tier =
      if entry.tier = tier then store.tierBytes tier - entry.bytes
      else store.tierBytes tier + entry.bytes := by
  unfold tierBytes relocate
  cases tier <;> cases target <;> cases htier' : entry.tier <;> simp_all

theorem capacity_relocate (target tier : ResidencyTier) :
    (store.relocate tensorRef entry target).capacity tier = store.capacity tier := by
  cases tier <;> rfl

/-- A tensor that moves is taken from one counter to the other. -/
theorem Accounted.relocate (h : store.Accounted)
    (hlookup : store.entries.lookup tensorRef = some entry) {target : ResidencyTier}
    (htarget : target ≠ .backing) (hne : entry.tier ≠ target)
    (hroom : (store.tierBytes target).toNat + entry.bytes.toNat ≤ (store.capacity target).toNat) :
    (store.relocate tensorRef entry target).Accounted := by
  have hentry := h.settled tensorRef entry hlookup
  have hsmall := h.small target
  have hadd : (store.tierBytes target + entry.bytes).toNat =
      (store.tierBytes target).toNat + entry.bytes.toNat := toNat_add_bytes (by omega)
  refine ⟨?_, ?_, ?_, fun tier => (capacity_relocate target tier).symm ▸ h.small tier⟩
  · intro tier htier
    have htotal := tierTotal_relocate hlookup target tier
    have hbytes := h.bytes_eq tier htier
    rw [tierBytes_relocate htarget htier hentry hne]
    by_cases hfrom : entry.tier = tier
    · have hentryle := h.entry_le hlookup
      rw [hfrom] at hentryle
      rw [if_pos hfrom, if_neg (fun heq => hne (hfrom.trans heq.symm))] at htotal
      rw [if_pos hfrom, toNat_sub_bytes hentryle]
      omega
    · have hto := other_tier hentry htarget htier hne hfrom
      subst hto
      rw [if_neg hfrom, if_pos rfl] at htotal
      rw [if_neg hfrom, hadd]
      omega
  · intro tier htier
    have hle := h.bytes_le tier htier
    rw [tierBytes_relocate htarget htier hentry hne, capacity_relocate]
    split
    next hfrom =>
        have hentryle := h.entry_le hlookup
        rw [hfrom] at hentryle
        rw [toNat_sub_bytes hentryle]
        omega
    next hfrom =>
        have hto := other_tier hentry htarget htier hne hfrom
        subst hto
        rw [hadd]
        exact hroom
  · intro ref e he
    rw [lookup_relocate] at he
    split at he
    · cases he
      exact htarget
    · exact h.settled ref e he

theorem tierBytes_admitted {bytes epoch : UInt64} {target tier : ResidencyTier}
    (htarget : target ≠ .backing) (htier : tier ≠ .backing) :
    (store.admitted tensorRef bytes target epoch).tierBytes tier =
      if target = tier then store.tierBytes tier + bytes else store.tierBytes tier := by
  unfold tierBytes admitted
  cases tier <;> cases target <;> simp_all

theorem Accounted.admitted (h : store.Accounted)
    (hlookup : store.entries.lookup tensorRef = none) {bytes epoch : UInt64}
    {target : ResidencyTier} (htarget : target ≠ .backing)
    (hroom : (store.tierBytes target).toNat + bytes.toNat ≤ (store.capacity target).toNat) :
    (store.admitted tensorRef bytes target epoch).Accounted := by
  have hsmall := h.small target
  have hadd : (store.tierBytes target + bytes).toNat =
      (store.tierBytes target).toNat + bytes.toNat := toNat_add_bytes (by omega)
  have hcapacity : ∀ tier, (store.admitted tensorRef bytes target epoch).capacity tier =
      store.capacity tier := by
    intro tier
    cases tier <;> rfl
  refine ⟨?_, ?_, ?_, fun tier => (hcapacity tier).symm ▸ h.small tier⟩
  · intro tier htier
    have htotal : (store.admitted tensorRef bytes target epoch).tierTotal tier =
        (if target = tier then bytes.toNat else 0) + store.tierTotal tier :=
      AssocMap.total_insert_new _ _ hlookup
    have hbytes := h.bytes_eq tier htier
    rw [htotal, tierBytes_admitted htarget htier]
    split
    next hto =>
        subst hto
        rw [hadd]
        omega
    next => omega
  · intro tier htier
    rw [tierBytes_admitted htarget htier, hcapacity]
    split
    next hto =>
        subst hto
        rw [hadd]
        exact hroom
    next => exact h.bytes_le tier htier
  · intro ref e he
    have hinsert := he
    unfold TieredResidencyStore.admitted at hinsert
    rw [AssocMap.lookup_insert_eq] at hinsert
    split at hinsert
    · cases hinsert
      exact htarget
    · exact h.settled ref e hinsert

/-- An entry that keeps its tier and size. -/
theorem Accounted.update (h : store.Accounted)
    (hlookup : store.entries.lookup tensorRef = some entry) {other : TieredResidencyEntry}
    (htier : other.tier = entry.tier) (hbytes : other.bytes = entry.bytes) (clock : UInt64) :
    Accounted { store with clock, entries := store.entries.insert tensorRef other } := by
  refine ⟨?_, h.bytes_le, ?_, h.small⟩
  · intro tier hne
    have htotal : tierTotal tier { store with
        clock, entries := store.entries.insert tensorRef other } = store.tierTotal tier := by
      apply AssocMap.total_insert_same hlookup
      rw [htier, hbytes]
    rw [htotal]
    exact h.bytes_eq tier hne
  · intro ref e he
    have hinsert : (store.entries.insert tensorRef other).lookup ref = some e := he
    rw [AssocMap.lookup_insert_eq] at hinsert
    split at hinsert
    · cases hinsert
      rw [htier]
      exact h.settled tensorRef entry hlookup
    · exact h.settled ref e hinsert

/-! ### The victim of a tier -/

/-- The order of use as one number: the time, then the reference. -/
def useRank (tensorRef : UInt32) (entry : TieredResidencyEntry) : Nat :=
  entry.lastUse.toNat * 2 ^ 32 + tensorRef.toNat

theorem usedBefore_iff {ref ref' : UInt32} {e e' : TieredResidencyEntry} :
    UsedBefore ref e ref' e' ↔ useRank ref e < useRank ref' e' := by
  have h := ref.toNat_lt
  have h' := ref'.toNat_lt
  unfold UsedBefore useRank
  rw [UInt64.lt_iff_toNat_lt, UInt32.lt_iff_toNat_lt, ← UInt64.toNat_inj]
  omega

theorem useRank_inj {ref ref' : UInt32} {e e' : TieredResidencyEntry}
    (h : useRank ref e = useRank ref' e') : ref = ref' := by
  have hlt := ref.toNat_lt
  have hlt' := ref'.toNat_lt
  unfold useRank at h
  apply UInt32.toNat_inj.1
  omega

/-- The scan over a part of the map has found the first entry used. -/
def Found (tier : ResidencyTier) (seen : List (Sigma fun _ : UInt32 => TieredResidencyEntry)) :
    Option (UInt32 × TieredResidencyEntry) → Prop
  | none => ∀ pair ∈ seen, pair.2.tier = tier → pair.2.activeLeases ≠ 0
  | some (ref, e) =>
      ⟨ref, e⟩ ∈ seen ∧ e.tier = tier ∧ e.activeLeases = 0 ∧
        ∀ pair ∈ seen, pair.2.tier = tier → pair.2.activeLeases = 0 →
          useRank ref e ≤ useRank pair.1 pair.2

theorem found_scan {tier : ResidencyTier}
    {seen : List (Sigma fun _ : UInt32 => TieredResidencyEntry)}
    {victim : Option (UInt32 × TieredResidencyEntry)} (h : Found tier seen victim)
    (pair : Sigma fun _ : UInt32 => TieredResidencyEntry) :
    Found tier (seen ++ [pair]) (scan tier victim pair) := by
  unfold scan
  split
  next hskip =>
      cases victim with
      | none =>
          intro other hmem htier
          rcases List.mem_append.1 hmem with hmem | hmem
          · exact h other hmem htier
          · cases List.mem_singleton.1 hmem
            exact hskip.resolve_left (not_not.2 htier)
      | some best =>
          obtain ⟨hmem, htier, hfree, hfirst⟩ := h
          refine ⟨List.mem_append_left _ hmem, htier, hfree, ?_⟩
          intro other hother hot hof
          rcases List.mem_append.1 hother with hother | hother
          · exact hfirst other hother hot hof
          · cases List.mem_singleton.1 hother
            exact (hskip.elim (fun hne => hne hot) (fun hne => hne hof)).elim
  next htake =>
      obtain ⟨htier, hfree⟩ := not_or.1 htake
      rw [not_not] at htier hfree
      have hlast : pair ∈ seen ++ [pair] := List.mem_append_right _ List.mem_cons_self
      cases victim with
      | none =>
          refine ⟨hlast, htier, hfree, ?_⟩
          intro other hmem hot hof
          rcases List.mem_append.1 hmem with hmem | hmem
          · exact absurd hof (h other hmem hot)
          · cases List.mem_singleton.1 hmem
            exact Nat.le_refl _
      | some best =>
          obtain ⟨hmem, hbtier, hbfree, hfirst⟩ := h
          simp only
          split
          next hbefore =>
              refine ⟨hlast, htier, hfree, ?_⟩
              have hlt := usedBefore_iff.1 hbefore
              intro other hother hot hof
              rcases List.mem_append.1 hother with hother | hother
              · have hle := hfirst other hother hot hof
                omega
              · cases List.mem_singleton.1 hother
                exact Nat.le_refl _
          next hnot =>
              rw [usedBefore_iff, Nat.not_lt] at hnot
              refine ⟨List.mem_append_left _ hmem, hbtier, hbfree, ?_⟩
              intro other hother hot hof
              rcases List.mem_append.1 hother with hother | hother
              · exact hfirst other hother hot hof
              · cases List.mem_singleton.1 hother
                exact hnot

theorem found_foldl {tier : ResidencyTier}
    (rest seen : List (Sigma fun _ : UInt32 => TieredResidencyEntry))
    (victim : Option (UInt32 × TieredResidencyEntry)) (h : Found tier seen victim) :
    Found tier (seen ++ rest) (rest.foldl (scan tier) victim) := by
  induction rest generalizing seen victim with
  | nil =>
      rw [List.append_nil]
      exact h
  | cons pair rest ih =>
      have hnext := ih (seen ++ [pair]) _ (found_scan h pair)
      rw [List.append_assoc] at hnext
      exact hnext

theorem victim_found (tier : ResidencyTier) (store : TieredResidencyStore) :
    Found tier store.entries.entries (store.victim tier) :=
  found_foldl store.entries.entries [] none (fun _ h => absurd h List.not_mem_nil)

/-- No victim: every entry of the tier is leased. -/
theorem leased_of_victim_none {tier : ResidencyTier} (h : store.victim tier = none)
    (hlookup : store.entries.lookup tensorRef = some entry) (htier : entry.tier = tier) :
    entry.activeLeases ≠ 0 := by
  have hfound := victim_found tier store
  rw [h] at hfound
  exact hfound ⟨tensorRef, entry⟩ (AList.mem_lookup_iff.1 hlookup) htier

/-- The victim is an unleased entry of its tier, used before all others. -/
theorem victim_spec {tier : ResidencyTier} (h : store.victim tier = some (tensorRef, entry)) :
    store.entries.lookup tensorRef = some entry ∧ entry.tier = tier ∧ entry.activeLeases = 0 ∧
      ∀ ref e, store.entries.lookup ref = some e → e.tier = tier → e.activeLeases = 0 →
        useRank tensorRef entry ≤ useRank ref e := by
  have hfound := victim_found tier store
  rw [h] at hfound
  obtain ⟨hmem, htier, hfree, hfirst⟩ := hfound
  refine ⟨AList.mem_lookup_iff.2 hmem, htier, hfree, ?_⟩
  intro ref e he
  exact hfirst ⟨ref, e⟩ (AList.mem_lookup_iff.1 he)

end TieredResidencyStore

end VBuf.Ggml
