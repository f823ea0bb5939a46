import Mathlib.Data.Int.Basic
import Mathlib.Tactic.Ring

/-!
# The numbers of 32-bit words

What a word says as a binary32 number, as an unsigned and as a signed integer.  All
finite numbers are counted in the smallest positive binary32 number, `2 ^ -149`, so that
equal numbers are equal values.
-/

namespace VBuf.Lib

/-- A number, with the sign of zero; the magnitude is in units of `2 ^ -149`. -/
inductive Number
  | nan
  | infinite (negative : Bool)
  | finite (negative : Bool) (magnitude : Nat)
  deriving DecidableEq, Repr

namespace Number

/-- The value of an integer. -/
def ofInt (value : Int) : Number := .finite (decide (value < 0)) (value.natAbs * 2 ^ 149)

/-- The value of a magnitude with an exponent field and a fraction field. -/
def ofFields (negative : Bool) (exponent fraction : Nat) : Number :=
  if exponent = 255 then if fraction = 0 then .infinite negative else .nan
  else if exponent = 0 then .finite negative fraction
  else .finite negative ((2 ^ 23 + fraction) * 2 ^ (exponent - 1))

/-- The binary32 number of a word. -/
def ofBits (word : Nat) : Number :=
  ofFields (decide (2 ^ 31 ≤ word)) (word / 2 ^ 23 % 2 ^ 8) (word % 2 ^ 23)

/-- The two's complement integer of a word. -/
def signedOf (word : Nat) : Int := if word < 2 ^ 31 then word else (word : Int) - 2 ^ 32

theorem ofFields_eq_finite {negative sign : Bool} {exponent fraction magnitude : Nat}
    (h : ofFields negative exponent fraction = .finite sign magnitude) :
    negative = sign ∧ exponent ≠ 255 ∧
      ((exponent = 0 ∧ fraction = magnitude) ∨
        (exponent ≠ 0 ∧ (2 ^ 23 + fraction) * 2 ^ (exponent - 1) = magnitude)) := by
  unfold ofFields at h
  split at h
  · split at h <;> cases h
  · rename_i hmax
    split at h
    · rename_i hzero
      cases h
      exact ⟨rfl, hmax, Or.inl ⟨hzero, rfl⟩⟩
    · rename_i hzero
      cases h
      exact ⟨rfl, hmax, Or.inr ⟨hzero, rfl⟩⟩

/-- A binary32 significand at an exponent stays below the next power of two. -/
theorem significand_lt {exponent fraction bound : Nat} (hfraction : fraction < 2 ^ 23)
    (hbound : exponent ≤ bound) : (2 ^ 23 + fraction) * 2 ^ exponent < 2 ^ 24 * 2 ^ bound := by
  have hpow : 2 ^ exponent ≤ 2 ^ bound := Nat.pow_le_pow_right (by decide) hbound
  calc (2 ^ 23 + fraction) * 2 ^ exponent
      < 2 ^ 24 * 2 ^ exponent := Nat.mul_lt_mul_of_pos_right (by omega) (Nat.two_pow_pos exponent)
    _ ≤ 2 ^ 24 * 2 ^ bound := Nat.mul_le_mul_left _ hpow

theorem le_significand {exponent fraction bound : Nat} (hbound : bound ≤ exponent) :
    2 ^ 23 * 2 ^ bound ≤ (2 ^ 23 + fraction) * 2 ^ exponent :=
  Nat.mul_le_mul (Nat.le_add_right _ _) (Nat.pow_le_pow_right (by decide) hbound)

/-- The fields of a word without a sign give back its magnitude only for zero. -/
theorem fields_ne_value {exponent fraction : Nat} (hfraction : fraction < 2 ^ 23)
    (hexponent : exponent ≠ 0) (hmax : exponent < 256) :
    (2 ^ 23 + fraction) * 2 ^ (exponent - 1) ≠ (exponent * 2 ^ 23 + fraction) * 2 ^ 149 := by
  intro heq
  rcases Nat.lt_or_ge exponent 128 with hlow | hhigh
  · have hlt := significand_lt hfraction (by omega : exponent - 1 ≤ 126)
    omega
  · rcases Nat.lt_trichotomy exponent 157 with hlt | hmid | hgt
    · have hupper := significand_lt hfraction (by omega : exponent - 1 ≤ 155)
      omega
    · -- The two sides are equal for no fraction.
      subst hmid
      omega
    · have hlower := @le_significand (exponent - 1) fraction 157 (by omega)
      omega

/-- Nor do they give the magnitude of the negative number of the word. -/
theorem fields_ne_complement {exponent fraction : Nat} (hfraction : fraction < 2 ^ 23)
    (hmax : exponent < 256) :
    (2 ^ 23 + fraction) * 2 ^ (exponent - 1) ≠
      (2 ^ 31 - (exponent * 2 ^ 23 + fraction)) * 2 ^ 149 := by
  intro heq
  rcases Nat.lt_trichotomy exponent 156 with hlt | hmid | hgt
  · have hupper := significand_lt hfraction (by omega : exponent - 1 ≤ 154)
    omega
  · subst hmid
    omega
  · have hlower := @le_significand (exponent - 1) fraction 156 (by omega)
    omega

/-- A word is the same binary32 number and unsigned integer only if it is zero. -/
theorem ofBits_eq_unsigned_iff {word : Nat} (hword : word < 2 ^ 32) :
    ofBits word = ofInt word ↔ word = 0 := by
  constructor
  · intro h
    obtain ⟨hsign, -, hvalue⟩ := ofFields_eq_finite h
    rw [decide_eq_decide] at hsign
    have hlow : word < 2 ^ 31 := by omega
    rw [Int.natAbs_natCast] at hvalue
    have hfraction : word % 2 ^ 23 < 2 ^ 23 := Nat.mod_lt _ (by decide)
    have hsplit : word = word / 2 ^ 23 % 2 ^ 8 * 2 ^ 23 + word % 2 ^ 23 := by omega
    rcases hvalue with ⟨hzero, hfield⟩ | ⟨hnonzero, hfield⟩
    · omega
    · refine absurd ?_ (fields_ne_value hfraction hnonzero (Nat.mod_lt _ (by decide)))
      rw [← hsplit]
      exact hfield
  · rintro rfl
    decide

/-- The same for signed integers. -/
theorem ofBits_eq_signed_iff {word : Nat} (hword : word < 2 ^ 32) :
    ofBits word = ofInt (signedOf word) ↔ word = 0 := by
  rcases Nat.lt_or_ge word (2 ^ 31) with hlow | hhigh
  · rw [signedOf, if_pos hlow]
    exact ofBits_eq_unsigned_iff hword
  · rw [signedOf, if_neg (Nat.not_lt.2 hhigh)]
    refine iff_of_false ?_ (by omega)
    intro h
    obtain ⟨-, -, hvalue⟩ := ofFields_eq_finite h
    have hfraction : word % 2 ^ 23 < 2 ^ 23 := Nat.mod_lt _ (by decide)
    have hmagnitude : ((word : Int) - 2 ^ 32).natAbs =
        2 ^ 31 - (word / 2 ^ 23 % 2 ^ 8 * 2 ^ 23 + word % 2 ^ 23) := by omega
    rw [hmagnitude] at hvalue
    rcases hvalue with ⟨hzero, hfield⟩ | ⟨-, hfield⟩
    · omega
    · exact fields_ne_complement hfraction (Nat.mod_lt _ (by decide)) hfield

end Number

end VBuf.Lib
