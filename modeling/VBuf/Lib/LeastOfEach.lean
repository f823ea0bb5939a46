import Mathlib.Order.Lattice
import Mathlib.Data.List.Nodup

/-!
# The least item of each group

A table with one entry for each group takes an item that comes before the entry of its
group.  After all items it holds the least item of each group.
-/

namespace VBuf.Lib

variable {α G K : Type*} [DecidableEq G] [LinearOrder K]

/-- Put an item into the table: it stands for its group if it is the first or a lesser one. -/
def offer (group : α → G) (key : α → K) : List α → α → List α
  | [], item => [item]
  | entry :: rest, item =>
      if group entry = group item then (if key item < key entry then item else entry) :: rest
      else entry :: offer group key rest item

/-- The table has the least of the items of each group. -/
structure KeepsLeast (group : α → G) (key : α → K) (items table : List α) : Prop where
  nodup : (table.map group).Nodup
  mem : ∀ entry ∈ table, entry ∈ items
  least : ∀ entry ∈ table, ∀ item ∈ items, group item = group entry → key entry ≤ key item
  covers : ∀ item ∈ items, ∃ entry ∈ table, group entry = group item

section Offer

variable {group : α → G} {key : α → K} {items table : List α} {item entry : α}

/-- The groups stay where they are, a new one comes last. -/
theorem map_offer (table : List α) (item : α) :
    (offer group key table item).map group =
      if group item ∈ table.map group then table.map group else table.map group ++ [group item] := by
  induction table with
  | nil => rfl
  | cons entry rest ih =>
      rw [offer]
      by_cases hgroup : group entry = group item
      · rw [if_pos hgroup, List.map_cons, List.map_cons, ← hgroup, if_pos List.mem_cons_self]
        split
        · rw [hgroup]
        · rfl
      · rw [if_neg hgroup, List.map_cons, List.map_cons, ih]
        by_cases hmem : group item ∈ rest.map group
        · rw [if_pos hmem, if_pos (List.mem_cons_of_mem _ hmem)]
        · rw [if_neg hmem, if_neg, List.cons_append]
          rw [List.mem_cons, not_or]
          exact ⟨Ne.symm hgroup, hmem⟩

/-- The groups of the table afterwards. -/
theorem mem_map_offer {g : G} :
    g ∈ (offer group key table item).map group ↔ g ∈ table.map group ∨ g = group item := by
  rw [map_offer]
  split
  · rename_i hmem
    constructor
    · exact Or.inl
    · rintro (hold | rfl)
      · exact hold
      · exact hmem
  · rw [List.mem_append, List.mem_singleton]

/-- What the table has afterwards: entries that stay, or the item if it comes first. -/
theorem mem_offer (h : (table.map group).Nodup) :
    entry ∈ offer group key table item ↔
      (entry ∈ table ∧ (group entry = group item → key entry ≤ key item)) ∨
        (entry = item ∧ ∀ other ∈ table, group other = group item → key item < key other) := by
  induction table with
  | nil => simp [offer]
  | cons first rest ih =>
      rw [List.map_cons, List.nodup_cons] at h
      rw [offer]
      by_cases hgroup : group first = group item
      · -- No other entry is of the group.
        have hother : ∀ other ∈ rest, group other ≠ group item := by
          intro other hmem heq
          exact h.1 (List.mem_map.2 ⟨other, hmem, heq.trans hgroup.symm⟩)
        rw [if_pos hgroup, List.forall_mem_cons, List.mem_cons, List.mem_cons]
        split
        · rename_i hless
          constructor
          · rintro (rfl | hmem)
            · exact Or.inr ⟨rfl, fun _ => hless, fun other hmem heq => absurd heq (hother other hmem)⟩
            · exact Or.inl ⟨Or.inr hmem, fun heq => absurd heq (hother entry hmem)⟩
          · rintro (⟨rfl | hmem, hle⟩ | ⟨rfl, -⟩)
            · exact absurd hless (not_lt.2 (hle hgroup))
            · exact Or.inr hmem
            · exact Or.inl rfl
        · rename_i hnot
          constructor
          · rintro (rfl | hmem)
            · exact Or.inl ⟨Or.inl rfl, fun _ => not_lt.1 hnot⟩
            · exact Or.inl ⟨Or.inr hmem, fun heq => absurd heq (hother entry hmem)⟩
          · rintro (⟨hmem, -⟩ | ⟨rfl, hless, -⟩)
            · exact hmem
            · exact absurd (hless hgroup) hnot
      · rw [if_neg hgroup, List.mem_cons, ih h.2, List.forall_mem_cons, List.mem_cons]
        constructor
        · rintro (rfl | ⟨hmem, hle⟩ | ⟨rfl, hless⟩)
          · exact Or.inl ⟨Or.inl rfl, fun heq => absurd heq hgroup⟩
          · exact Or.inl ⟨Or.inr hmem, hle⟩
          · exact Or.inr ⟨rfl, fun heq => absurd heq hgroup, hless⟩
        · rintro (⟨rfl | hmem, hle⟩ | ⟨rfl, -, hless⟩)
          · exact Or.inl rfl
          · exact Or.inr (Or.inl ⟨hmem, hle⟩)
          · exact Or.inr (Or.inr ⟨rfl, hless⟩)

/-- One more item. -/
theorem KeepsLeast.snoc (h : KeepsLeast group key items table) (item : α) :
    KeepsLeast group key (items ++ [item]) (offer group key table item) := by
  constructor
  case nodup =>
    rw [map_offer]
    split
    · exact h.nodup
    · rename_i hnew
      rw [← List.concat_eq_append]
      exact h.nodup.concat hnew
  case mem =>
    intro entry hentry
    rw [List.mem_append, List.mem_singleton]
    rcases (mem_offer h.nodup).1 hentry with ⟨hmem, -⟩ | ⟨rfl, -⟩
    · exact Or.inl (h.mem entry hmem)
    · exact Or.inr rfl
  case least =>
    intro entry hentry other hother hgroup
    rw [List.mem_append, List.mem_singleton] at hother
    rcases (mem_offer h.nodup).1 hentry with ⟨hmem, hle⟩ | ⟨rfl, hless⟩
    · rcases hother with hold | rfl
      · exact h.least entry hmem other hold hgroup
      · exact hle hgroup.symm
    · rcases hother with hold | rfl
      · -- The entry of the group is before the old item, the new item before the entry.
        obtain ⟨kept, hkept, heq⟩ := h.covers other hold
        exact le_trans (le_of_lt (hless kept hkept (heq.trans hgroup)))
          (h.least kept hkept other hold heq.symm)
      · exact le_rfl
  case covers =>
    intro other hother
    rw [List.mem_append, List.mem_singleton] at hother
    have hgroups : group other ∈ (offer group key table item).map group := by
      rw [mem_map_offer]
      rcases hother with hold | rfl
      · obtain ⟨entry, hentry, hgroup⟩ := h.covers other hold
        exact Or.inl (List.mem_map.2 ⟨entry, hentry, hgroup⟩)
      · exact Or.inr rfl
    exact List.mem_map.1 hgroups

end Offer

end VBuf.Lib
