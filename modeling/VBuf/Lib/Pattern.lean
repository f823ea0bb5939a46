import Mathlib.Data.List.Basic

/-!
# Patterns, matched leftmost-first

A pattern is made of runs of accepted items, sequences and alternatives.  Its matches
at the start of a text come in the order in which a backtracking matcher tries them:
longer runs first, and the first alternative before the second.
-/

namespace VBuf.Lib

inductive Pattern (α : Type*) where
  | run (accepts : α → Bool) (least : Nat) (most : Option Nat)
  | seq (first second : Pattern α)
  | alt (first second : Pattern α)

namespace Pattern

variable {α : Type*}

/-- The length of the longest run at the start of a text. -/
def longest (accepts : α → Bool) (most : Option Nat) (text : List α) : Nat :=
  match most with
  | none => (text.takeWhile accepts).length
  | some most => min most (text.takeWhile accepts).length

/-- The lengths of the matches at the start of a text, the preferred ones first. -/
def lengths : Pattern α → List α → List Nat
  | run accepts least most, text =>
      let longest := longest accepts most text
      (List.range (longest + 1 - least)).map (longest - ·)
  | seq first second, text =>
      (first.lengths text).flatMap fun n => (second.lengths (text.drop n)).map (n + ·)
  | alt first second, text => first.lengths text ++ second.lengths text

/-- The leftmost match, by its start and length; of those with one start, the preferred
one. -/
def find (pattern : Pattern α) (text : List α) : Option (Nat × Nat) :=
  (List.range (text.length + 1)).findSome? fun start =>
    (pattern.lengths (text.drop start)).head?.map fun n => (start, n)

/-- No match is shorter. -/
def minLength : Pattern α → Nat
  | run _ least _ => least
  | seq first second => first.minLength + second.minLength
  | alt first second => min first.minLength second.minLength

theorem longest_le (accepts : α → Bool) (most : Option Nat) (text : List α) :
    longest accepts most text ≤ text.length := by
  have htake := (List.takeWhile_sublist accepts (l := text)).length_le
  unfold longest
  split <;> omega

theorem lengths_bounds {pattern : Pattern α} {text : List α} {n : Nat}
    (h : n ∈ pattern.lengths text) : pattern.minLength ≤ n ∧ n ≤ text.length := by
  induction pattern generalizing text n with
  | run accepts least most =>
      have hlongest := longest_le accepts most text
      obtain ⟨i, hi, rfl⟩ := List.mem_map.1 h
      rw [List.mem_range] at hi
      rw [minLength]
      omega
  | seq first second ihFirst ihSecond =>
      obtain ⟨a, ha, hrest⟩ := List.mem_flatMap.1 h
      obtain ⟨b, hb, rfl⟩ := List.mem_map.1 hrest
      have hfirst := ihFirst ha
      have hsecond := ihSecond hb
      rw [List.length_drop] at hsecond
      rw [minLength]
      omega
  | alt first second ihFirst ihSecond =>
      rw [minLength]
      rcases List.mem_append.1 h with hfirst | hsecond
      · have := ihFirst hfirst
        omega
      · have := ihSecond hsecond
        omega

/-- The numbers from `n` down that are at most `m`. -/
theorem filter_countdown (n count m : Nat) :
    ((List.range count).map (n - ·)).filter (· ≤ m) =
      (List.range (count - (n - m))).map (min n m - ·) := by
  rcases Nat.le_total n m with hle | hle
  · rw [Nat.sub_eq_zero_of_le hle, Nat.sub_zero, Nat.min_eq_left hle, List.filter_eq_self]
    intro value hvalue
    obtain ⟨i, -, rfl⟩ := List.mem_map.1 hvalue
    rw [decide_eq_true_eq]
    omega
  · obtain ⟨skipped, rfl⟩ := Nat.exists_eq_add_of_le hle
    rw [Nat.add_sub_cancel_left, Nat.min_eq_right hle]
    -- the first numbers are too large
    have hlarge : ∀ k ≤ skipped, ((List.range k).map (m + skipped - ·)).filter (· ≤ m) = [] := by
      intro k hk
      rw [List.filter_eq_nil_iff]
      intro value hvalue
      obtain ⟨i, hi, rfl⟩ := List.mem_map.1 hvalue
      rw [List.mem_range] at hi
      rw [decide_eq_true_eq]
      omega
    rcases Nat.le_total count skipped with hcount | hcount
    · rw [hlarge count hcount, Nat.sub_eq_zero_of_le hcount]
      rfl
    · obtain ⟨kept, rfl⟩ := Nat.exists_eq_add_of_le hcount
      rw [List.range_add, List.map_append, List.filter_append, hlarge skipped (Nat.le_refl _),
        List.nil_append, Nat.add_sub_cancel_left, List.map_map, List.filter_eq_self.2]
      · apply List.map_congr_left
        intro i _
        show m + skipped - (skipped + i) = m - i
        omega
      · intro value hvalue
        obtain ⟨i, -, rfl⟩ := List.mem_map.1 hvalue
        rw [decide_eq_true_eq]
        show m + skipped - (skipped + i) ≤ m
        omega

theorem longest_append (accepts : α → Bool) (most : Option Nat) (text later : List α) :
    longest accepts most text = min (longest accepts most (text ++ later)) text.length := by
  have htake := (List.takeWhile_sublist accepts (l := text)).length_le
  have hrun : (text.takeWhile accepts).length =
      min ((text ++ later).takeWhile accepts).length text.length := by
    rw [List.takeWhile_append]
    split
    next hall =>
        rw [List.length_append]
        omega
    next => omega
  unfold longest
  cases most with
  | none => exact hrun
  | some most =>
      simp only
      omega

/-- A part of a list is enough, when the rest gives nothing. -/
theorem flatMap_eq_filter {β γ : Type*} {l : List β} {f g : β → List γ} {keep : β → Bool}
    (h : ∀ a ∈ l, f a = if keep a = true then g a else []) :
    l.flatMap f = (l.filter keep).flatMap g := by
  induction l with
  | nil => rfl
  | cons a rest ih =>
      rw [List.forall_mem_cons] at h
      rw [List.flatMap_cons, h.1, ih h.2]
      by_cases hkeep : keep a = true
      · rw [if_pos hkeep, List.filter_cons_of_pos hkeep, List.flatMap_cons]
      · rw [if_neg hkeep, List.filter_cons_of_neg hkeep, List.nil_append]

/-- The matches that end in a text are its own matches, whatever comes behind it. -/
theorem lengths_append (pattern : Pattern α) (text later : List α) :
    (pattern.lengths (text ++ later)).filter (· ≤ text.length) = pattern.lengths text := by
  induction pattern generalizing text with
  | run accepts least most =>
      simp only [lengths]
      rw [filter_countdown, longest_append accepts most text later]
      congr 2
      omega
  | seq first second ihFirst ihSecond =>
      rw [lengths, lengths, ← ihFirst text, List.filter_flatMap]
      apply flatMap_eq_filter
      intro n _
      split
      next hn =>
          rw [decide_eq_true_eq] at hn
          rw [List.drop_append_of_le_length hn, List.filter_map, ← ihSecond (text.drop n)]
          congr 1
          apply List.filter_congr
          intro k _
          rw [List.length_drop]
          exact decide_eq_decide.2 (by show n + k ≤ text.length ↔ _; omega)
      next hn =>
          rw [decide_eq_true_eq] at hn
          rw [List.filter_eq_nil_iff]
          intro value hvalue
          obtain ⟨k, -, rfl⟩ := List.mem_map.1 hvalue
          rw [decide_eq_true_eq]
          omega
  | alt first second ihFirst ihSecond =>
      rw [lengths, lengths, List.filter_append, ihFirst, ihSecond]

/-! ### Matches at the start -/

/-- The preferred match of a longer text is that of the text, when it ends there. -/
theorem head?_lengths_append {pattern : Pattern α} {text later : List α} {n : Nat}
    (h : (pattern.lengths (text ++ later)).head? = some n) (hn : n ≤ text.length) :
    (pattern.lengths text).head? = some n := by
  obtain ⟨rest, hrest⟩ := List.head?_eq_some_iff.1 h
  have hkept : decide (n ≤ text.length) = true := decide_eq_true hn
  rw [← lengths_append pattern text later, hrest]
  simp only [List.filter_cons, hkept, if_true, List.head?_cons]

theorem find_eq_zero_iff {pattern : Pattern α} {text : List α} {n : Nat} :
    pattern.find text = some (0, n) ↔ (pattern.lengths text).head? = some n := by
  unfold find
  rw [List.range_succ_eq_map, List.findSome?_cons, List.drop_zero]
  cases hhead : (pattern.lengths text).head? with
  | some k => simp
  | none =>
      simp only [Option.map_none, reduceCtorEq, iff_false]
      intro h
      obtain ⟨start, hstart, hfound⟩ := List.exists_of_findSome?_eq_some h
      obtain ⟨start', -, rfl⟩ := List.mem_map.1 hstart
      obtain ⟨k, -, hk⟩ := Option.map_eq_some_iff.1 hfound
      cases hk

/-- A match is as long as the pattern asks for and ends in the text. -/
theorem find_bounds {pattern : Pattern α} {text : List α} {start n : Nat}
    (h : pattern.find text = some (start, n)) :
    pattern.minLength ≤ n ∧ n ≤ (text.drop start).length := by
  obtain ⟨start', -, hfound⟩ := List.exists_of_findSome?_eq_some h
  obtain ⟨k, hk, heq⟩ := Option.map_eq_some_iff.1 hfound
  cases heq
  exact lengths_bounds (List.mem_of_mem_head? hk)

end Pattern

end VBuf.Lib
