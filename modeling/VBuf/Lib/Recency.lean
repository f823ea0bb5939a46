import Mathlib.Algebra.BigOperators.Group.List.Basic
import Mathlib.Algebra.Order.Group.Nat
import Mathlib.Algebra.Ring.Nat
import Mathlib.Data.List.Nodup

/-!
# Bounded recency lists

Items with a key and a size, the oldest first.  `put` drops items from the front
until the new one fits into the budget, and puts it at the end.  A list of items
that are put one after another survives exactly when it fits as a whole.
-/

namespace VBuf.Lib.Recency

variable {α κ : Type*} [DecidableEq κ] (key : α → κ) (size : α → Nat) (budget : Nat)

/-- The size of all items. -/
def total (items : List α) : Nat := (items.map size).sum

/-- Drop from the front until there is room. -/
def shrink (required : Nat) : List α → List α
  | [] => []
  | oldest :: rest =>
      if budget < total size (oldest :: rest) + required then shrink required rest
      else oldest :: rest

/-- Take out the item of a key. -/
def remove (k : κ) (items : List α) : List α := items.filter (fun item => key item ≠ k)

/-- Make room for an item, and put it at the end. -/
def put (items : List α) (item : α) : List α :=
  remove key (key item) (shrink size budget (size item) items) ++ [item]

/-- Put items one after another. -/
def putAll (items : List α) (added : List α) : List α := added.foldl (put key size budget) items

variable {key size budget} {items xs ys tail added : List α} {item first : α} {k : κ}
  {required : Nat}

omit [DecidableEq κ] in
@[simp] theorem total_nil : total size ([] : List α) = 0 := rfl

@[simp] theorem total_cons : total size (item :: items) = size item + total size items := by
  simp [total]

@[simp] theorem total_append : total size (xs ++ ys) = total size xs + total size ys := by
  simp [total]

theorem shrink_suffix : shrink size budget required items <:+ items := by
  induction items with
  | nil => exact List.suffix_refl _
  | cons oldest rest ih =>
      unfold shrink
      split
      · exact ih.trans (List.suffix_cons _ _)
      · exact List.suffix_refl _

/-- What is left has room for an item that fits into the budget. -/
theorem total_shrink_le (h : required ≤ budget) :
    total size (shrink size budget required items) + required ≤ budget := by
  induction items with
  | nil => simpa [shrink] using h
  | cons oldest rest ih =>
      unfold shrink
      split
      · exact ih
      · next hroom => exact Nat.le_of_not_lt hroom

/-- Newer items that fit beside the required room are kept. -/
theorem shrink_append (h : total size tail + required ≤ budget) :
    ∃ ys, ys <:+ xs ∧ shrink size budget required (xs ++ tail) = ys ++ tail := by
  induction xs with
  | nil =>
      refine ⟨[], List.suffix_refl _, ?_⟩
      cases tail with
      | nil => rfl
      | cons oldest rest =>
          show shrink size budget required (oldest :: rest) = _
          rw [shrink, if_neg (Nat.not_lt.2 h)]
          rfl
  | cons oldest rest ih =>
      obtain ⟨ys, hsuffix, hys⟩ := ih
      rw [List.cons_append, shrink]
      split
      · exact ⟨ys, hsuffix.trans (List.suffix_cons _ _), hys⟩
      · exact ⟨oldest :: rest, List.suffix_refl _, rfl⟩

/-- An item that does not fit with what came after it is dropped. -/
theorem shrink_append_cons (h : budget < total size (first :: tail) + required) :
    shrink size budget required (xs ++ first :: tail) <:+ tail := by
  induction xs with
  | nil =>
      rw [List.nil_append, shrink, if_pos h]
      exact shrink_suffix
  | cons oldest rest ih =>
      have hmore : budget < total size (oldest :: (rest ++ first :: tail)) + required := by
        rw [total_cons, total_append]
        omega
      rw [List.cons_append, shrink, if_pos hmore]
      exact ih

/-- Taking out a key that is not there changes nothing. -/
theorem remove_eq_self (h : k ∉ items.map key) : remove key k items = items := by
  unfold remove
  rw [List.filter_eq_self]
  intro item hitem
  rw [decide_eq_true_iff]
  rintro rfl
  exact h (List.mem_map_of_mem hitem)

theorem map_remove : (remove key k items).map key = (items.map key).filter (fun k' => k' ≠ k) := by
  rw [remove, List.filter_map]
  rfl

theorem remove_append : remove key k (xs ++ ys) = remove key k xs ++ remove key k ys :=
  List.filter_append ..

theorem mem_of_mem_remove {k' : κ} (h : k' ∈ (remove key k items).map key) :
    k' ∈ items.map key := by
  rw [map_remove] at h
  exact (List.mem_filter.1 h).1

theorem total_remove_le : total size (remove key k items) ≤ total size items := by
  induction items with
  | nil => exact Nat.le_refl _
  | cons item rest ih =>
      unfold remove at ih ⊢
      rw [List.filter_cons]
      split
      · rw [total_cons, total_cons]
        omega
      · rw [total_cons]
        omega

/-- The item of a key leaves with its size. -/
theorem total_remove_of_mem (hkeys : (items.map key).Nodup) (hmem : item ∈ items) :
    size item + total size (remove key (key item) items) = total size items := by
  induction items with
  | nil => exact absurd hmem List.not_mem_nil
  | cons head rest ih =>
      rw [List.map_cons, List.nodup_cons] at hkeys
      rcases List.mem_cons.1 hmem with rfl | hrest
      · rw [remove, List.filter_cons_of_neg (by simp)]
        have hself := remove_eq_self hkeys.1
        rw [remove] at hself
        rw [hself, total_cons]
      · have hne : key head ≠ key item := by
          intro heq
          exact hkeys.1 (heq ▸ List.mem_map_of_mem hrest)
        have hkeep : remove key (key item) (head :: rest) =
            head :: remove key (key item) rest := by
          rw [remove, List.filter_cons_of_pos (by simpa using hne)]
          rfl
        have htail := ih hkeys.2 hrest
        rw [hkeep, total_cons, total_cons]
        omega

theorem remove_cons_self (hkeys : ((item :: items).map key).Nodup) :
    remove key (key item) (item :: items) = items := by
  rw [List.map_cons, List.nodup_cons] at hkeys
  rw [remove, List.filter_cons_of_neg (by simp)]
  exact remove_eq_self hkeys.1

theorem mem_remove : item ∈ remove key k items ↔ item ∈ items ∧ key item ≠ k := by
  rw [remove, List.mem_filter, decide_eq_true_iff]

theorem nodup_remove (hkeys : (items.map key).Nodup) : ((remove key k items).map key).Nodup := by
  rw [map_remove]
  exact hkeys.filter _

theorem nodup_put (hkeys : (items.map key).Nodup) :
    ((put key size budget items item).map key).Nodup := by
  rw [put, List.map_append, List.map_singleton, List.nodup_append]
  refine ⟨nodup_remove (hkeys.sublist (shrink_suffix.sublist.map key)), List.nodup_singleton _, ?_⟩
  intro k hk k' hk'
  rw [map_remove] at hk
  rw [List.mem_singleton.1 hk']
  simpa using (List.mem_filter.1 hk).2

theorem total_put_le (h : size item ≤ budget) :
    total size (put key size budget items item) ≤ budget := by
  have hroom := @total_shrink_le _ size budget items _ h
  have hless := @total_remove_le _ _ _ key size (shrink size budget (size item) items) (key item)
  rw [put, total_append, total_cons, total_nil]
  omega

/-- A new item keeps the newer items that fit beside it. -/
theorem put_append (h : total size tail + size item ≤ budget) (hkey : key item ∉ tail.map key) :
    ∃ ys, put key size budget (xs ++ tail) item = ys ++ (tail ++ [item]) := by
  obtain ⟨ys, -, hys⟩ := @shrink_append _ size budget xs _ _ h
  refine ⟨remove key (key item) ys, ?_⟩
  rw [put, hys, remove_append, remove_eq_self hkey, List.append_assoc]

theorem keys_put_subset : ∀ k ∈ (put key size budget items item).map key,
    k = key item ∨ k ∈ items.map key := by
  intro k hk
  rw [put, List.map_append, List.mem_append] at hk
  rcases hk with hold | hnew
  · right
    exact (shrink_suffix.map key).subset (mem_of_mem_remove hold)
  · left
    simpa using hnew

/-- A key that is gone stays away until it is put again. -/
theorem not_mem_putAll (hitems : k ∉ items.map key) (hadded : k ∉ added.map key) :
    k ∉ (putAll key size budget items added).map key := by
  induction added generalizing items with
  | nil => exact hitems
  | cons item rest ih =>
      rw [List.map_cons, List.mem_cons, not_or] at hadded
      refine ih ?_ hadded.2
      intro hk
      rcases keys_put_subset k hk with heq | hold
      · exact hadded.1 heq
      · exact hitems hold

/-- Items of distinct keys that fit together are all kept, in order. -/
theorem putAll_append (hfits : total size (tail ++ added) ≤ budget)
    (hkeys : ((tail ++ added).map key).Nodup) :
    ∃ ys, putAll key size budget (xs ++ tail) added = ys ++ (tail ++ added) := by
  induction added generalizing xs tail with
  | nil => exact ⟨xs, by rw [List.append_nil]; rfl⟩
  | cons item rest ih =>
      rw [total_append, total_cons] at hfits
      have hnew : key item ∉ tail.map key := by
        rw [List.map_append, List.map_cons] at hkeys
        intro hmem
        exact (List.disjoint_of_nodup_append hkeys) hmem List.mem_cons_self
      have hroom : total size tail + size item ≤ budget := by omega
      obtain ⟨ys, hys⟩ := @put_append _ _ _ key size budget xs _ _ hroom hnew
      have hassoc : tail ++ [item] ++ rest = tail ++ item :: rest := by simp
      obtain ⟨zs, hzs⟩ := @ih ys (tail ++ [item])
        (by rw [hassoc, total_append, total_cons]; omega) (by rw [hassoc]; exact hkeys)
      refine ⟨zs, ?_⟩
      rw [← hassoc, ← hzs, putAll, List.foldl_cons, hys]
      rfl

/-- Where the items do not fit together, the first of them is dropped. -/
theorem not_mem_putAll_of_overfull (hfirst : total size (first :: tail) ≤ budget)
    (hover : budget < total size (first :: tail ++ added))
    (hkeys : ((first :: tail ++ added).map key).Nodup) (hxs : key first ∉ xs.map key) :
    key first ∉ (putAll key size budget (xs ++ first :: tail) added).map key := by
  induction added generalizing xs tail with
  | nil =>
      rw [List.append_nil] at hover
      exact absurd hfirst (Nat.not_le.2 hover)
  | cons item rest ih =>
      have hparts := hkeys
      rw [List.cons_append, List.map_cons, List.nodup_cons, List.map_append, List.map_cons,
        List.mem_append, List.mem_cons, not_or, not_or] at hparts
      obtain ⟨⟨htail, hitem, hrest⟩, hnodup⟩ := hparts
      by_cases hroom : total size (first :: tail) + size item ≤ budget
      · have hnew : key item ∉ (first :: tail).map key := by
          rw [List.map_cons, List.mem_cons, not_or]
          refine ⟨Ne.symm hitem, ?_⟩
          intro hmem
          exact (List.disjoint_of_nodup_append hnodup) hmem List.mem_cons_self
        obtain ⟨zs, hsuffix, hzs⟩ := @shrink_append _ size budget xs _ _ hroom
        have hput : put key size budget (xs ++ first :: tail) item =
            remove key (key item) zs ++ first :: (tail ++ [item]) := by
          rw [put, hzs, remove_append, remove_eq_self hnew, List.append_assoc]
          rfl
        have hzs' : key first ∉ (remove key (key item) zs).map key := by
          intro hmem
          exact hxs ((hsuffix.map key).subset (mem_of_mem_remove hmem))
        have hassoc : first :: (tail ++ [item]) ++ rest = first :: tail ++ item :: rest := by simp
        have hnext := @ih (remove key (key item) zs) (tail ++ [item]) (by
          rw [total_cons, total_append, total_cons, total_nil]
          rw [total_cons] at hroom
          omega) (hassoc ▸ hover) (hassoc ▸ hkeys) hzs'
        rw [← hput] at hnext
        exact hnext
      · -- The first item does not fit beside the new one.
        have hsuffix := @shrink_append_cons _ size budget xs tail first (size item)
          (Nat.lt_of_not_le hroom)
        have hput : key first ∉ (put key size budget (xs ++ first :: tail) item).map key := by
          rw [put, List.map_append, List.mem_append, not_or]
          refine ⟨?_, by simpa using hitem⟩
          intro hmem
          exact htail ((hsuffix.map key).subset (mem_of_mem_remove hmem))
        show key first ∉ (putAll key size budget _ rest).map key
        exact not_mem_putAll hput hrest

end VBuf.Lib.Recency
