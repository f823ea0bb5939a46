import Mathlib.Data.List.Basic
import Mathlib.Order.Basic
import Mathlib.Order.Defs.LinearOrder
import Mathlib.Order.Lattice

/-!
# Tilings of an interval

A list of items, each with a lower and an upper end, tiles `[a, b)` when the
first starts at `a`, each next one starts where its predecessor ends, and the
last ends at `b`.  Order, disjointness and coverage follow.
-/

namespace VBuf.Lib

variable {ι β : Type*} [LinearOrder β]

/-- The items run from `a` to `b` without gap or overlap, none of them empty. -/
inductive Tiles (lo hi : ι → β) : β → β → List ι → Prop
  | nil (a : β) : Tiles lo hi a a []
  | cons {i : ι} {a b : β} {rest : List ι} (start : lo i = a) (nonempty : lo i < hi i)
      (tail : Tiles lo hi (hi i) b rest) : Tiles lo hi a b (i :: rest)

namespace Tiles

variable {lo hi : ι → β} {a b c : β} {items : List ι}

theorem le (h : Tiles lo hi a b items) : a ≤ b := by
  induction h with
  | nil => exact le_refl _
  | cons hstart hne _ ih =>
      subst hstart
      exact le_trans hne.le ih

theorem singleton {i : ι} (h : lo i < hi i) : Tiles lo hi (lo i) (hi i) [i] :=
  cons rfl h (nil _)

theorem append {more : List ι} (h : Tiles lo hi a b items) (h' : Tiles lo hi b c more) :
    Tiles lo hi a c (items ++ more) := by
  induction h with
  | nil => exact h'
  | cons hstart hne _ ih => exact cons hstart hne (ih h')

/-- Every item lies between the ends. -/
theorem bounds (h : Tiles lo hi a b items) {i : ι} (hi' : i ∈ items) : a ≤ lo i ∧ hi i ≤ b := by
  induction h with
  | nil => cases hi'
  | @cons j a b rest hstart hne tail ih =>
      subst hstart
      rcases List.mem_cons.1 hi' with rfl | hmem
      · exact ⟨le_refl _, tail.le⟩
      · exact ⟨le_trans hne.le (ih hmem).1, (ih hmem).2⟩

/-- Earlier items end before later ones start. -/
theorem pairwise (h : Tiles lo hi a b items) : items.Pairwise fun i j => hi i ≤ lo j := by
  induction h with
  | nil => exact List.Pairwise.nil
  | cons _ _ tail ih => exact List.Pairwise.cons (fun j hj => (tail.bounds hj).1) ih

/-- The items cover exactly the interval. -/
theorem covers (h : Tiles lo hi a b items) (p : β) :
    (a ≤ p ∧ p < b) ↔ ∃ i ∈ items, lo i ≤ p ∧ p < hi i := by
  induction h with
  | nil a =>
      constructor
      · rintro ⟨hle, hlt⟩
        exact absurd hlt (not_lt.2 hle)
      · rintro ⟨i, hmem, -⟩
        cases hmem
  | @cons j a b rest hstart hne tail ih =>
      subst hstart
      constructor
      · rintro ⟨hle, hlt⟩
        rcases lt_or_ge p (hi j) with hp | hp
        · exact ⟨j, List.mem_cons_self, hle, hp⟩
        · obtain ⟨i, hmem, hbounds⟩ := ih.1 ⟨hp, hlt⟩
          exact ⟨i, List.mem_cons_of_mem _ hmem, hbounds⟩
      · rintro ⟨i, hmem, hle, hlt⟩
        rcases List.mem_cons.1 hmem with rfl | hmem
        · exact ⟨hle, lt_of_lt_of_le hlt tail.le⟩
        · have hinside := ih.2 ⟨i, hmem, hle, hlt⟩
          exact ⟨le_trans hne.le hinside.1, hinside.2⟩

/-- Neighbours meet. -/
theorem consecutive (h : Tiles lo hi a b items) {n : Nat} {i j : ι} (hget : items[n]? = some i)
    (hnext : items[n + 1]? = some j) : hi i = lo j := by
  induction h generalizing n with
  | nil => cases hget
  | @cons k a b rest _ hne tail ih =>
      cases n with
      | zero =>
          cases hget
          cases tail with
          | nil => cases hnext
          | cons hstart _ _ =>
              cases hnext
              exact hstart.symm
      | succ n => exact ih hget hnext

/-- The first item starts the interval and the last one ends it. -/
theorem head_last (h : Tiles lo hi a b items) (hne : items ≠ []) :
    lo (items.head hne) = a ∧ hi (items.getLast hne) = b := by
  induction h with
  | nil => exact absurd rfl hne
  | @cons k a b rest hstart hk tail ih =>
      refine ⟨hstart, ?_⟩
      cases rest with
      | nil =>
          cases tail
          rfl
      | cons second rest =>
          rw [List.getLast_cons (by simp)]
          exact (ih (by simp)).2

end Tiles

end VBuf.Lib
