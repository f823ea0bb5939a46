import Mathlib.Logic.Function.Basic
import Mathlib.Data.List.Basic

/-!
# Loops

A loop is given by what one iteration does of its state.  It returns when finitely
many iterations lead to one that ends it; a variant shows that it does, and a set of
states that no iteration leaves shows that it does not.
-/

namespace VBuf.Lib

/-- What one iteration of a loop does. -/
inductive Iteration (σ ρ : Type*)
  | next (state : σ)
  | done (result : ρ)
  deriving DecidableEq

section Loop

variable {σ ρ : Type*} {body : σ → Iteration σ ρ}

/-- The loop returns a result from a state, after finitely many iterations. -/
inductive Returns (body : σ → Iteration σ ρ) : σ → ρ → Prop
  | done {s : σ} {r : ρ} (h : body s = .done r) : Returns body s r
  | next {s s' : σ} {r : ρ} (h : body s = .next s') (hrest : Returns body s' r) : Returns body s r

/-- A loop returns one result. -/
theorem Returns.unique {s : σ} {r r' : ρ} (h : Returns body s r) (h' : Returns body s r') :
    r = r' := by
  induction h with
  | done hdone =>
      cases h' with
      | done hdone' => exact Iteration.done.inj (hdone.symm.trans hdone')
      | next hnext _ => cases hdone.symm.trans hnext
  | next hnext _ ih =>
      cases h' with
      | done hdone => cases hnext.symm.trans hdone
      | next hnext' hrest' =>
          have hsame := Iteration.next.inj (hnext.symm.trans hnext')
          exact ih (hsame ▸ hrest')

/-- A loop whose variant each iteration lowers returns. -/
theorem exists_returns (inv : σ → Prop) (variant : σ → Nat)
    (hstep : ∀ s s', inv s → body s = .next s' → inv s' ∧ variant s' < variant s) (s : σ)
    (hs : inv s) : ∃ r, Returns body s r := by
  induction hn : variant s using Nat.strongRecOn generalizing s with
  | ind n ih =>
      cases hbody : body s with
      | done r => exact ⟨r, Returns.done hbody⟩
      | next s' =>
          obtain ⟨hs', hlt⟩ := hstep s s' hs hbody
          obtain ⟨r, hr⟩ := ih (variant s') (hn ▸ hlt) s' hs' rfl
          exact ⟨r, Returns.next hbody hr⟩

/-- A loop does not return from states that iterations keep among themselves. -/
theorem not_returns (inv : σ → Prop) (hstep : ∀ s, inv s → ∃ s', body s = .next s' ∧ inv s')
    {s : σ} (hs : inv s) (r : ρ) : ¬ Returns body s r := by
  intro h
  induction h with
  | done hdone =>
      obtain ⟨s', hs', _⟩ := hstep _ hs
      cases hdone.symm.trans hs'
  | next hnext _ ih =>
      obtain ⟨s', hs', hinv⟩ := hstep _ hs
      rw [hnext] at hs'
      cases hs'
      exact ih hinv

end Loop

/-! ### Tables filled by insertion -/

section Table

variable {κ ν ι : Type*} [DecidableEq κ]

/-- A table after the insertion of a value. -/
def insertEntry (table : κ → Option ν) (key : κ) (value : ν) : κ → Option ν :=
  Function.update table key (some value)

/-- A table filled in order holds the last value of each key. -/
theorem foldl_insertEntry (key : ι → κ) (value : ι → ν) (items : List ι) (table : κ → Option ν)
    (k : κ) :
    items.foldl (fun table item => insertEntry table (key item) (value item)) table k =
      ((items.reverse.find? (fun item => key item = k)).map value).or (table k) := by
  induction items generalizing table with
  | nil => rfl
  | cons item rest ih =>
      rw [List.foldl_cons, ih, List.reverse_cons, List.find?_append]
      cases rest.reverse.find? (fun item => key item = k) with
      | some found => rfl
      | none =>
          by_cases hkey : key item = k
          · simp [insertEntry, hkey]
          · simp [insertEntry, hkey, Function.update_of_ne (Ne.symm hkey)]

end Table

end VBuf.Lib
