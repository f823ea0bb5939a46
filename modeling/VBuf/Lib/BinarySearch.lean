import Mathlib.Data.List.Basic

/-!
# Binary search

The search halves a window of positions until one is left.  In a list whose items stand
in the order that the probe sees, an item that the probe calls equal is found.
-/

namespace VBuf.Lib

variable {α : Type*}

/-- The items before a target come first, those behind it last. -/
def ProbeOrdered (probe : α → Ordering) (items : List α) : Prop :=
  items.Pairwise fun a b => (probe a = .gt → probe b = .gt) ∧ (probe b = .lt → probe a = .lt)

/-- The loop that halves the window of `size` positions from `base` on. -/
def searchBase (probe : α → Ordering) (items : List α) : Nat → Nat → Nat → Nat
  | 0, base, _ => base
  | fuel + 1, base, size =>
      if 1 < size then
        let half := size / 2
        let mid := base + half
        searchBase probe items fuel (if items[mid]?.map probe = some .gt then base else mid)
          (size - half)
      else base

/-- The position of an item that the probe calls equal. -/
def binarySearchBy (probe : α → Ordering) (items : List α) : Option Nat :=
  let base := searchBase probe items items.length 0 items.length
  if items[base]?.map probe = some .eq then some base else none

section Search

variable {probe : α → Ordering} {items : List α}

theorem ProbeOrdered.getElem? (h : ProbeOrdered probe items) {i j : Nat} {a b : α}
    (hlt : i < j) (hi : items[i]? = some a) (hj : items[j]? = some b) :
    (probe a = .gt → probe b = .gt) ∧ (probe b = .lt → probe a = .lt) := by
  obtain ⟨hi', rfl⟩ := List.getElem?_eq_some_iff.1 hi
  obtain ⟨hj', rfl⟩ := List.getElem?_eq_some_iff.1 hj
  exact List.pairwise_iff_getElem.1 h i j hi' hj' hlt

/-- Each round keeps an equal item in the window: the one it had, or the middle. -/
theorem searchBase_finds (h : ProbeOrdered probe items) {fuel base size target : Nat} {item : α}
    (hfuel : size ≤ fuel + 1) (hend : base + size ≤ items.length) (hbase : base ≤ target)
    (htarget : target < base + size) (hitem : items[target]? = some item)
    (hequal : probe item = .eq) :
    ∃ found, items[searchBase probe items fuel base size]? = some found ∧ probe found = .eq := by
  induction fuel generalizing base size target item with
  | zero =>
      have hlast : target = base := by omega
      subst hlast
      exact ⟨item, hitem, hequal⟩
  | succ fuel ih =>
      rw [searchBase]
      split
      · rename_i hsize
        have hmid : base + size / 2 < items.length := by omega
        have hget : items[base + size / 2]? = some items[base + size / 2] :=
          List.getElem?_eq_getElem hmid
        dsimp only
        rw [hget, Option.map_some]
        cases hprobe : probe items[base + size / 2] with
        | gt =>
            -- Behind a greater item all are greater, so the target stands before the middle.
            have hbefore : target < base + size / 2 := by
              rcases Nat.lt_trichotomy target (base + size / 2) with hlt | heq | hgt
              · exact hlt
              · subst heq
                rw [hget, Option.some.injEq] at hitem
                rw [← hitem, hprobe] at hequal
                cases hequal
              · have hgreater := (h.getElem? hgt hget hitem).1 hprobe
                rw [hequal] at hgreater
                cases hgreater
            rw [if_pos rfl]
            exact ih (by omega) (by omega) hbase (by omega) hitem hequal
        | eq =>
            rw [if_neg nofun]
            exact ih (by omega) (by omega) (Nat.le_refl _) (by omega) hget hprobe
        | lt =>
            have hbehind : base + size / 2 ≤ target := by
              by_contra hnot
              have hless := (h.getElem? (Nat.lt_of_not_le hnot) hitem hget).2 hprobe
              rw [hequal] at hless
              cases hless
            rw [if_neg nofun]
            exact ih (by omega) (by omega) hbehind (by omega) hitem hequal
      · have hlast : target = base := by omega
        subst hlast
        exact ⟨item, hitem, hequal⟩

/-- An equal item of an ordered list is found. -/
theorem binarySearchBy_complete (h : ProbeOrdered probe items) {item : α} (hmem : item ∈ items)
    (hequal : probe item = .eq) :
    ∃ index found, binarySearchBy probe items = some index ∧ items[index]? = some found ∧
      probe found = .eq := by
  obtain ⟨target, hlt, rfl⟩ := List.getElem_of_mem hmem
  obtain ⟨found, hfound, hfoundEqual⟩ :=
    @searchBase_finds _ _ _ h items.length 0 items.length target _ (Nat.le_succ _)
      (Nat.le_of_eq (Nat.zero_add _)) (Nat.zero_le _) (by omega) (List.getElem?_eq_getElem hlt) hequal
  refine ⟨_, found, ?_, hfound, hfoundEqual⟩
  rw [binarySearchBy, if_pos]
  rw [hfound, Option.map_some, hfoundEqual]

end Search

end VBuf.Lib
