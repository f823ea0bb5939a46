import Mathlib.Data.Finset.Card
import Mathlib.Data.Nat.Find
import Mathlib.Logic.Relation

/-!
# Longest walks

The length of the longest walk from a vertex of a relation, where there is one.  A vertex
settles when all walks from it are bounded and lead to ready vertices only; the length is
then one more than the greatest length behind a step.
-/

namespace VBuf.Lib

variable {α : Type*}

/-- A walk of `n` steps. -/
inductive Walk (r : α → α → Prop) : Nat → α → α → Prop
  | nil (a : α) : Walk r 0 a a
  | cons {n : Nat} {a b c : α} (step : r a b) (rest : Walk r n b c) : Walk r (n + 1) a c

/-- The longest walks from `a` have `d` steps. -/
structure IsLongest (r : α → α → Prop) (a : α) (d : Nat) : Prop where
  attained : ∃ b, Walk r d a b
  bound : ∀ n b, Walk r n a b → n ≤ d

/-- The longest walks from `a` have `d` steps, and all walks stay among ready vertices. -/
structure Settles (r : α → α → Prop) (ready : α → Prop) (a : α) (d : Nat) : Prop where
  longest : IsLongest r a d
  ready : ∀ n b, Walk r n a b → ready b

section Walks

variable {r : α → α → Prop} {ready : α → Prop} {a b c : α} {d e n m : Nat}

theorem Walk.append (h : Walk r n a b) (h' : Walk r m b c) : Walk r (n + m) a c := by
  induction h with
  | nil a =>
      rw [Nat.zero_add]
      exact h'
  | cons step _ ih =>
      rw [Nat.add_right_comm]
      exact Walk.cons step (ih h')

theorem exists_walk_of_transGen (h : Relation.TransGen r a b) : ∃ n, Walk r (n + 1) a b := by
  induction h with
  | single step => exact ⟨0, Walk.cons step (Walk.nil _)⟩
  | tail _ step ih =>
      obtain ⟨n, hwalk⟩ := ih
      exact ⟨n + 1, hwalk.append (Walk.cons step (Walk.nil _))⟩

theorem IsLongest.unique (h : IsLongest r a d) (h' : IsLongest r a e) : d = e := by
  obtain ⟨b, hb⟩ := h.attained
  obtain ⟨c, hc⟩ := h'.attained
  exact Nat.le_antisymm (h'.bound d b hb) (h.bound e c hc)

/-- Bounded walks have a longest one. -/
theorem exists_isLongest {bound : Nat} (h : ∀ n b, Walk r n a b → n ≤ bound) :
    ∃ d, IsLongest r a d := by
  classical
  have hspec := Nat.findGreatest_spec (P := fun n => ∃ b, Walk r n a b) (Nat.zero_le bound)
    ⟨a, Walk.nil a⟩
  refine ⟨_, hspec, ?_⟩
  intro n b hwalk
  exact Nat.le_findGreatest (h n b hwalk) ⟨b, hwalk⟩

/-- Behind a step the longest walk is shorter. -/
theorem IsLongest.of_step (h : IsLongest r a d) (hstep : r a b) :
    ∃ e, IsLongest r b e ∧ e + 1 ≤ d := by
  obtain ⟨e, he⟩ := @exists_isLongest α r b d fun n c hwalk =>
    (Nat.le_succ n).trans (h.bound _ _ (Walk.cons hstep hwalk))
  obtain ⟨c, hc⟩ := he.attained
  exact ⟨e, he, h.bound _ _ (Walk.cons hstep hc)⟩

/-- A vertex with a longest walk is on no cycle: a round would make every walk longer. -/
theorem IsLongest.not_transGen (h : IsLongest r a d) : ¬ Relation.TransGen r a a := by
  intro hcycle
  obtain ⟨n, hround⟩ := exists_walk_of_transGen hcycle
  obtain ⟨b, hb⟩ := h.attained
  have hle := h.bound _ _ (hround.append hb)
  omega

/-- A longest walk passes vertices with every smaller length. -/
theorem IsLongest.descend (h : IsLongest r a d) {k : Nat} (hk : k ≤ d) :
    ∃ n b, Walk r n a b ∧ IsLongest r b k := by
  induction d generalizing a with
  | zero =>
      obtain rfl := Nat.le_zero.1 hk
      exact ⟨0, a, Walk.nil a, h⟩
  | succ d ih =>
      rcases Nat.eq_or_lt_of_le hk with rfl | hlt
      · exact ⟨0, a, Walk.nil a, h⟩
      · obtain ⟨c, hwalk⟩ := h.attained
        cases hwalk with
        | cons step rest =>
            obtain ⟨e, he, hle⟩ := h.of_step step
            obtain rfl : e = d := Nat.le_antisymm (Nat.le_of_succ_le_succ hle) (he.bound _ _ rest)
            obtain ⟨n, b, hb, hlongest⟩ := ih he (Nat.le_of_lt_succ hlt)
            exact ⟨n + 1, b, Walk.cons step hb, hlongest⟩

/-- Its length is less than the number of vertices. -/
theorem IsLongest.lt_card (h : IsLongest r a d) {vertices : Finset α}
    (hall : ∀ n b, Walk r n a b → b ∈ vertices) : d < vertices.card := by
  have hpick : ∀ k, k ∈ Finset.range (d + 1) → ∃ b ∈ vertices, IsLongest r b k := by
    intro k hk
    obtain ⟨n, b, hwalk, hlongest⟩ := h.descend (Nat.le_of_lt_succ (Finset.mem_range.1 hk))
    exact ⟨b, hall n b hwalk, hlongest⟩
  have hvertex : Nonempty α := ⟨a⟩
  choose! pick hmem hpicked using hpick
  have hcard := Finset.card_le_card_of_injOn (s := Finset.range (d + 1)) (t := vertices) pick hmem
    (by
      intro k hk k' hk' heq
      have hlongest := hpicked k' hk'
      rw [← heq] at hlongest
      exact (hpicked k hk).unique hlongest)
  rwa [Finset.card_range] at hcard

theorem Settles.unique (h : Settles r ready a d) (h' : Settles r ready a e) : d = e :=
  h.longest.unique h'.longest

theorem Settles.of_step (h : Settles r ready a d) (hstep : r a b) :
    ∃ e, Settles r ready b e ∧ e + 1 ≤ d := by
  obtain ⟨e, he, hle⟩ := h.longest.of_step hstep
  exact ⟨e, ⟨he, fun n c hwalk => h.ready _ _ (Walk.cons hstep hwalk)⟩, hle⟩

theorem Settles.ready_self (h : Settles r ready a d) : ready a := h.ready 0 a (Walk.nil a)

/-- The length of a vertex from the lengths behind its steps. -/
theorem settles_of_steps (hready : ready a)
    (hbound : ∀ b, r a b → ∃ e, Settles r ready b e ∧ e + 1 ≤ d)
    (hattained : d = 0 ∨ ∃ b e, r a b ∧ Settles r ready b e ∧ d = e + 1) :
    Settles r ready a d := by
  refine ⟨⟨?_, ?_⟩, ?_⟩
  · rcases hattained with rfl | ⟨b, e, hstep, hb, rfl⟩
    · exact ⟨a, Walk.nil a⟩
    · obtain ⟨c, hc⟩ := hb.longest.attained
      exact ⟨c, Walk.cons hstep hc⟩
  · intro n b hwalk
    cases hwalk with
    | nil => exact Nat.zero_le d
    | cons step rest =>
        obtain ⟨e, he, hle⟩ := hbound _ step
        have hrest := he.longest.bound _ _ rest
        omega
  · intro n b hwalk
    cases hwalk with
    | nil => exact hready
    | cons step rest =>
        obtain ⟨e, he, -⟩ := hbound _ step
        exact he.ready _ _ rest

/-- A ready vertex settles when its finitely many successors do. -/
theorem exists_settles {successors : List α} (hready : ready a)
    (hlist : ∀ b, r a b → b ∈ successors) (h : ∀ b, r a b → ∃ e, Settles r ready b e) :
    ∃ d, Settles r ready a d := by
  have hbound : ∃ bound, ∀ b ∈ successors, ∀ e, Settles r ready b e → e + 1 ≤ bound := by
    clear hlist
    induction successors with
    | nil => exact ⟨0, nofun⟩
    | cons b rest ih =>
        obtain ⟨bound, hrest⟩ := ih
        by_cases hb : ∃ e, Settles r ready b e
        · obtain ⟨e, he⟩ := hb
          refine ⟨max (e + 1) bound, ?_⟩
          rw [List.forall_mem_cons]
          refine ⟨fun e' he' => ?_, fun b' hb' e' he' => ?_⟩
          · rw [he'.unique he]
            exact Nat.le_max_left _ _
          · exact (hrest b' hb' e' he').trans (Nat.le_max_right _ _)
        · refine ⟨bound, ?_⟩
          rw [List.forall_mem_cons]
          exact ⟨fun e he => absurd ⟨e, he⟩ hb, hrest⟩
  obtain ⟨bound, hbound⟩ := hbound
  have hstep : ∀ b, r a b → ∃ e, Settles r ready b e ∧ e + 1 ≤ bound := by
    intro b hb
    obtain ⟨e, he⟩ := h b hb
    exact ⟨e, he, hbound b (hlist b hb) e he⟩
  obtain ⟨d, hd⟩ := @exists_isLongest α r a bound (by
    intro n b hwalk
    cases hwalk with
    | nil => exact Nat.zero_le bound
    | cons step rest =>
        obtain ⟨e, he, hle⟩ := hstep _ step
        have hrest := he.longest.bound _ _ rest
        omega)
  refine ⟨d, hd, ?_⟩
  intro n b hwalk
  cases hwalk with
  | nil => exact hready
  | cons step rest =>
      obtain ⟨e, he, -⟩ := hstep _ step
      exact he.ready _ _ rest

end Walks

end VBuf.Lib
