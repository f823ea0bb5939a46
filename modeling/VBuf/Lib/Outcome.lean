import Mathlib.Algebra.BigOperators.Group.List.Basic
import Mathlib.Tactic.Ring
import VBuf.Lib.Result
import VBuf.Lib.RowMajor

/-!
# Computations that may end the program

An `Outcome` tells an error from a panic.  `Safe run post` says that a run does not
panic and that a result it returns is in `post`; an error is always allowed.  The rules
follow the program's structure, and indices are checked the way they are computed.
-/

namespace VBuf.Lib

universe u

variable {α β σ : Type u}

/-- A result, an error that is returned, or the end of the program. -/
inductive Outcome (α : Type u)
  | ok (value : α)
  | error (message : String)
  | panicked
  deriving DecidableEq, Repr

namespace Outcome

protected def bind (run : Outcome α) (rest : α → Outcome β) : Outcome β :=
  match run with
  | ok value => rest value
  | error message => error message
  | panicked => panicked

instance : Monad Outcome where
  pure := ok
  bind := Outcome.bind

instance : LawfulMonad Outcome :=
  LawfulMonad.mk' Outcome
    (fun run => by cases run <;> rfl)
    (fun _ _ => rfl)
    (fun run _ _ => by cases run <;> rfl)

/-- A fallible computation that never panics. -/
def ofExcept (result : Except String α) : Outcome α :=
  match result with
  | .ok value => ok value
  | .error message => error message

/-- The run does not panic, and a result of it is in the set. -/
def Safe (run : Outcome α) (post : α → Prop) : Prop :=
  match run with
  | ok value => post value
  | error _ => True
  | panicked => False

namespace Safe

variable {run : Outcome α} {post post' : α → Prop}

theorem mono (h : Safe run post) (himp : ∀ value, post value → post' value) : Safe run post' := by
  cases run with
  | ok value => exact himp value h
  | error message => trivial
  | panicked => exact h

/-- The rule of sequencing. -/
theorem bind {rest : α → Outcome β} {post' : β → Prop} (h : Safe run post)
    (hrest : ∀ value, post value → Safe (rest value) post') : Safe (run >>= rest) post' := by
  cases run with
  | ok value => exact hrest value h
  | error message => trivial
  | panicked => exact h.elim

theorem ofExcept {result : Except String α} :
    Safe (Outcome.ofExcept result) fun value => result = .ok value := by
  cases result with
  | ok value => rfl
  | error message => trivial

/-- A guard that is passed. -/
theorem rejectIf {bad : Prop} [Decidable bad] {message : String} :
    Safe (Outcome.ofExcept (Lib.rejectIf bad message)) fun _ => ¬ bad :=
  ofExcept.mono fun _ h => rejectIf_eq_ok_iff.1 h

/-- The rule of a loop that counts up. -/
theorem foldlM_range {n : Nat} {step : σ → Nat → Outcome σ} {inv : σ → Prop} {start : σ}
    (hstart : inv start) (hstep : ∀ i < n, ∀ s, inv s → Safe (step s i) inv) :
    Safe ((List.range n).foldlM step start) inv := by
  have hlist : ∀ (items : List Nat) (s : σ), (∀ i ∈ items, i < n) → inv s →
      Safe (items.foldlM step s) inv := by
    intro items
    induction items with
    | nil =>
        intro s _ hs
        exact hs
    | cons i rest ih =>
        intro s hitems hs
        rw [List.forall_mem_cons] at hitems
        rw [List.foldlM_cons]
        exact (hstep i hitems.1 s hs).bind fun s' hs' => ih s' hitems.2 hs'
  exact hlist (List.range n) start (fun i hi => List.mem_range.1 hi) hstart

/-- The rule of a loop that collects. -/
theorem mapM {items : List σ} {step : σ → Outcome α} {post : σ → α → Prop}
    (h : ∀ item ∈ items, Safe (step item) (post item)) :
    Safe (items.mapM step) fun values => List.Forall₂ post items values := by
  induction items with
  | nil => exact List.Forall₂.nil
  | cons item rest ih =>
      rw [List.forall_mem_cons] at h
      rw [List.mapM_cons]
      refine h.1.bind fun value hvalue => (ih h.2).bind fun values hvalues => ?_
      exact List.Forall₂.cons hvalue hvalues

end Safe

/-! ### Checked operations -/

/-- `xs[index]`. -/
def read (xs : List α) (index : Nat) : Outcome α :=
  match xs[index]? with
  | some value => .ok value
  | none => .panicked

/-- `xs[index] = value`. -/
def write (xs : List α) (index : Nat) (value : α) : Outcome (List α) :=
  if index < xs.length then .ok (xs.set index value) else .panicked

/-- `&xs[start..start + length]`. -/
def slice (xs : List α) (start length : Nat) : Outcome (List α) :=
  if start + length ≤ xs.length then .ok ((xs.drop start).take length) else .panicked

/-- A sum or a product of 64-bit numbers. -/
def checked (n : Nat) : Outcome Nat := if n < 2 ^ 64 then .ok n else .panicked

/-- A difference. -/
def subtract (a b : Nat) : Outcome Nat := if b ≤ a then .ok (a - b) else .panicked

/-- A quotient. -/
def divide (a b : Nat) : Outcome Nat := if b = 0 then .panicked else .ok (a / b)

/-- A remainder. -/
def remainder (a b : Nat) : Outcome Nat := if b = 0 then .panicked else .ok (a % b)

/-- The capacity of a vector of four-byte numbers. -/
def allocate (n : Nat) : Outcome Unit := if 4 * n < 2 ^ 63 then .ok () else .panicked

/-- `a * b + c`. -/
def mulAdd (a b c : Nat) : Outcome Nat := do
  let product ← checked (a * b)
  checked (product + c)

/-- `((start * radix + digit) * radix' + digit') ...`. -/
def flatIndex : Nat → List (Nat × Nat) → Outcome Nat
  | index, [] => .ok index
  | index, (radix, digit) :: rest => do
      let next ← mulAdd index radix digit
      flatIndex next rest

namespace Safe

theorem read {xs : List α} {index : Nat} (h : index < xs.length) :
    Safe (Outcome.read xs index) fun _ => True := by
  rw [Outcome.read, List.getElem?_eq_getElem h]
  trivial

/-- A write keeps the length. -/
theorem write {xs : List α} {index : Nat} {value : α} (h : index < xs.length) :
    Safe (Outcome.write xs index value) fun ys => ys.length = xs.length := by
  rw [Outcome.write, if_pos h]
  exact List.length_set

theorem slice {xs : List α} {start length : Nat} (h : start + length ≤ xs.length) :
    Safe (Outcome.slice xs start length) fun ys => ys = (xs.drop start).take length := by
  rw [Outcome.slice, if_pos h]
  rfl

theorem checked {n : Nat} (h : n < 2 ^ 64) : Safe (Outcome.checked n) fun value => value = n := by
  rw [Outcome.checked, if_pos h]
  rfl

theorem subtract {a b : Nat} (h : b ≤ a) :
    Safe (Outcome.subtract a b) fun value => value = a - b := by
  rw [Outcome.subtract, if_pos h]
  rfl

theorem remainder {a b : Nat} (h : b ≠ 0) :
    Safe (Outcome.remainder a b) fun value => value = a % b := by
  rw [Outcome.remainder, if_neg h]
  rfl

theorem allocate {n : Nat} (h : 4 * n < 2 ^ 63) : Safe (Outcome.allocate n) fun _ => True := by
  rw [Outcome.allocate, if_pos h]
  trivial

theorem divide {a b : Nat} (h : b ≠ 0) : Safe (Outcome.divide a b) fun value => value = a / b := by
  rw [Outcome.divide, if_neg h]
  rfl

theorem mulAdd {a b c : Nat} (h : a * b + c < 2 ^ 64) :
    Safe (Outcome.mulAdd a b c) fun value => value = a * b + c := by
  refine (checked (by omega : a * b < 2 ^ 64)).bind ?_
  rintro _ rfl
  exact checked h

theorem radices_pos {digits : List (Nat × Nat)} (h : ∀ pair ∈ digits, pair.2 < pair.1) :
    0 < (digits.map Prod.fst).prod := by
  induction digits with
  | nil => exact Nat.one_pos
  | cons pair rest ih =>
      rw [List.forall_mem_cons] at h
      rw [List.map_cons, List.prod_cons]
      exact Nat.mul_pos (Nat.zero_lt_of_lt h.1) (ih h.2)

/-- Digits below their radices stay below the product of the radices. -/
theorem flatIndex {index count : Nat} {digits : List (Nat × Nat)} (hindex : index < count)
    (hdigits : ∀ pair ∈ digits, pair.2 < pair.1)
    (hcount : count * (digits.map Prod.fst).prod ≤ 2 ^ 64) :
    Safe (Outcome.flatIndex index digits) fun value =>
      value < count * (digits.map Prod.fst).prod := by
  induction digits generalizing index count with
  | nil =>
      rw [List.map_nil, List.prod_nil, Nat.mul_one]
      exact hindex
  | cons pair rest ih =>
      obtain ⟨radix, digit⟩ := pair
      rw [List.forall_mem_cons] at hdigits
      rw [List.map_cons, List.prod_cons, ← Nat.mul_assoc] at hcount ⊢
      simp only at hcount hdigits ⊢
      have hnext : index * radix + digit < count * radix := block_lt hindex hdigits.1
      have hle : count * radix ≤ count * radix * (rest.map Prod.fst).prod :=
        Nat.le_mul_of_pos_right _ (radices_pos hdigits.2)
      refine (mulAdd (by omega)).bind ?_
      rintro _ rfl
      exact ih hnext hdigits.2 hcount

end Safe

end Outcome

end VBuf.Lib
