import Mathlib.Algebra.Order.BigOperators.Group.List
import Mathlib.Algebra.Order.Group.Nat
import Mathlib.Algebra.Ring.Nat
import Mathlib.Data.List.AList

/-!
# Sums over a finite map

`total` adds up a weight over the entries of an association list.  An insertion
adds the weight of its entry, an erasure takes it off, and an update moves the
sum by the difference.
-/

namespace VBuf.Lib

variable {κ : Type*} [DecidableEq κ] {ν : Type*}

/-- A finite map with unique keys. -/
abbrev AssocMap (κ ν : Type*) := AList (fun _ : κ => ν)

namespace AssocMap

/-- The sum of a weight over all entries. -/
def total (weight : κ → ν → Nat) (map : AssocMap κ ν) : Nat :=
  (map.entries.map (fun entry => weight entry.1 entry.2)).sum

variable {weight : κ → ν → Nat} {map : AssocMap κ ν} {key : κ} {value : ν}

theorem entries_perm_of_lookup (h : map.lookup key = some value) :
    map.entries.Perm (⟨key, value⟩ :: (map.erase key).entries) := by
  obtain ⟨found, before, after, hnew, hentries, herase⟩ :=
    List.exists_of_kerase (AList.mem_keys.1 (AList.lookup_isSome.1 (by rw [h]; rfl)))
  have hfound : found = value := by
    have hmem : (⟨key, found⟩ : Sigma fun _ : κ => ν) ∈ map.entries := by
      rw [hentries]
      exact List.mem_append_right _ List.mem_cons_self
    exact Option.some.inj ((AList.mem_lookup_iff.2 hmem).symm.trans h)
  subst hfound
  have herased : (map.erase key).entries = before ++ after := herase
  rw [herased, hentries]
  exact List.perm_middle

/-- An erasure takes off the weight of its entry. -/
theorem total_erase (weight : κ → ν → Nat) (h : map.lookup key = some value) :
    total weight map = weight key value + total weight (map.erase key) := by
  unfold total
  rw [((entries_perm_of_lookup h).map _).sum_eq, List.map_cons, List.sum_cons]

/-- A machine counter that holds the sum is right after the erasure when the weight is
subtracted, also when the sum does not fit. -/
theorem ofNat_total_erase {weight : κ → ν → Nat} {w : UInt64} (h : map.lookup key = some value)
    (hw : w.toNat = weight key value) :
    UInt64.ofNat (total weight map) - w = UInt64.ofNat (total weight (map.erase key)) := by
  rw [total_erase weight h, ← hw, UInt64.ofNat_add, UInt64.ofNat_toNat, UInt64.add_comm]
  exact UInt64.add_sub_cancel _ _

theorem erase_of_lookup_none (h : map.lookup key = none) : map.erase key = map := by
  apply AList.ext
  exact List.kerase_of_notMem_keys (AList.lookup_eq_none.1 h)

theorem total_insert (weight : κ → ν → Nat) (map : AssocMap κ ν) (key : κ) (value : ν) :
    total weight (map.insert key value) = weight key value + total weight (map.erase key) := rfl

/-- A new entry adds its weight. -/
theorem total_insert_new (weight : κ → ν → Nat) (value : ν) (h : map.lookup key = none) :
    total weight (map.insert key value) = weight key value + total weight map := by
  rw [total_insert, erase_of_lookup_none h]

/-- An update of equal weight leaves the sum. -/
theorem total_insert_same {other : ν} (h : map.lookup key = some value)
    (hweight : weight key other = weight key value) :
    total weight (map.insert key other) = total weight map := by
  rw [total_insert, hweight, ← total_erase weight h]

/-- An update moves the sum by the difference of the weights. -/
theorem total_update (weight : κ → ν → Nat) (other : ν) (h : map.lookup key = some value) :
    total weight (map.insert key other) + weight key value =
      weight key other + total weight map := by
  rw [total_insert, total_erase weight h]
  omega

theorem weight_le_total (weight : κ → ν → Nat) (h : map.lookup key = some value) :
    weight key value ≤ total weight map := by
  rw [total_erase weight h]
  exact Nat.le_add_right _ _

/-- Weights that agree on the entries have one sum. -/
theorem total_congr {weight' : κ → ν → Nat}
    (h : ∀ key value, map.lookup key = some value → weight key value = weight' key value) :
    total weight map = total weight' map := by
  unfold total
  congr 1
  apply List.map_congr_left
  intro entry hmem
  exact h entry.1 entry.2 (AList.mem_lookup_iff.2 hmem)

theorem lookup_insert_eq (map : AssocMap κ ν) (key key' : κ) (value : ν) :
    (map.insert key value).lookup key' = if key' = key then some value else map.lookup key' := by
  split
  next h =>
      subst h
      exact AList.lookup_insert _
  next h => exact AList.lookup_insert_ne h

theorem lookup_erase_eq (map : AssocMap κ ν) (key key' : κ) :
    (map.erase key).lookup key' = if key' = key then none else map.lookup key' := by
  split
  next h =>
      subst h
      exact AList.lookup_erase _ _
  next h => exact AList.lookup_erase_ne h

omit [DecidableEq κ] in
theorem total_le_total {weight' : κ → ν → Nat} (map : AssocMap κ ν)
    (h : ∀ key value, weight key value ≤ weight' key value) :
    total weight map ≤ total weight' map :=
  List.sum_le_sum (fun entry _ => h entry.1 entry.2)

theorem sum_filter_of_zero {α : Type*} (f : α → Nat) (p : α → Bool) (l : List α)
    (h : ∀ x ∈ l, p x = false → f x = 0) : ((l.filter p).map f).sum = (l.map f).sum := by
  induction l with
  | nil => rfl
  | cons x rest ih =>
      have hrest := ih (fun y hy => h y (List.mem_cons_of_mem x hy))
      cases hp : p x with
      | true => rw [List.filter_cons_of_pos hp, List.map_cons, List.map_cons, List.sum_cons,
          List.sum_cons, hrest]
      | false =>
          have hzero := h x List.mem_cons_self hp
          rw [List.filter_cons_of_neg (by rw [hp]; exact Bool.false_ne_true), List.map_cons,
            List.sum_cons, hzero, hrest, Nat.zero_add]

/-- Maps that agree on the entries with a weight have one sum. -/
theorem total_eq_of_agree {weight : κ → ν → Nat} {map after : AssocMap κ ν}
    (h : ∀ key value, weight key value ≠ 0 →
      (after.lookup key = some value ↔ map.lookup key = some value)) :
    total weight after = total weight map := by
  have hweighted : ∀ m : AssocMap κ ν, total weight m =
      ((m.entries.filter (fun entry => weight entry.1 entry.2 != 0)).map
        (fun entry => weight entry.1 entry.2)).sum := by
    intro m
    symm
    apply sum_filter_of_zero
    intro entry _ hzero
    exact not_not.1 (bne_iff_ne.not.1 (Bool.eq_false_iff.1 hzero))
  have hperm : (after.entries.filter (fun entry => weight entry.1 entry.2 != 0)).Perm
      (map.entries.filter (fun entry => weight entry.1 entry.2 != 0)) := by
    apply (List.perm_ext_iff_of_nodup (after.nodupKeys.nodup.filter _)
      (map.nodupKeys.nodup.filter _)).2
    intro entry
    rw [List.mem_filter, List.mem_filter]
    constructor
    · intro hmem
      refine ⟨AList.mem_lookup_iff.1 ?_, hmem.2⟩
      exact (h entry.1 entry.2 (bne_iff_ne.1 hmem.2)).1 (AList.mem_lookup_iff.2 hmem.1)
    · intro hmem
      refine ⟨AList.mem_lookup_iff.1 ?_, hmem.2⟩
      exact (h entry.1 entry.2 (bne_iff_ne.1 hmem.2)).2 (AList.mem_lookup_iff.2 hmem.1)
  rw [hweighted, hweighted, (hperm.map _).sum_eq]

/-- Entries without weight do not count when they are taken out. -/
theorem total_eq_of_submap (weight : κ → ν → Nat) {map after : AssocMap κ ν}
    (hsub : ∀ key value, after.lookup key = some value → map.lookup key = some value)
    (hzero : ∀ key value, map.lookup key = some value → after.lookup key = none →
      weight key value = 0) :
    total weight after = total weight map := by
  apply total_eq_of_agree
  intro key value hne
  refine ⟨hsub key value, ?_⟩
  intro hmap
  cases hafter : after.lookup key with
  | none => exact absurd (hzero key value hmap hafter) hne
  | some other => exact (hsub key other hafter).symm.trans hmap

omit [DecidableEq κ] in
/-- A weight of the keys alone. -/
theorem total_eq_sum_keys (map : AssocMap κ ν) (w : κ → Nat) :
    total (fun key _ => w key) map = (map.keys.map w).sum := by
  unfold total
  rw [AList.keys, List.keys, List.map_map]
  rfl

/-- The sum over a map whose keys are known, as a sum over numbers. -/
theorem total_eq_sum_filter {weight : Nat → ν → Nat} {map : AssocMap Nat ν} {n : Nat}
    {p : Nat → Bool} {w : Nat → Nat}
    (hkeys : ∀ key, (map.lookup key).isSome ↔ key < n ∧ p key = true)
    (hweight : ∀ key value, map.lookup key = some value → weight key value = w key) :
    total weight map = (((List.range n).filter p).map w).sum := by
  rw [total_congr hweight, total_eq_sum_keys]
  have hperm : map.keys.Perm ((List.range n).filter p) := by
    apply (List.perm_ext_iff_of_nodup map.keys_nodup (List.nodup_range.filter _)).2
    intro key
    rw [← AList.mem_keys, ← AList.lookup_isSome, hkeys, List.mem_filter, List.mem_range]
  exact (hperm.map w).sum_eq

end AssocMap

end VBuf.Lib
