import Mathlib.Algebra.Order.Group.Nat
import Mathlib.Data.Nat.Basic
import Mathlib.Tactic.Ring

/-!
# Rounding up to an alignment

`roundUp value alignment` is the least multiple of `alignment` at or above
`value`.  The bit-mask form that machine code uses is tied to it by
`mask_add_eq_roundUp`, for a power-of-two alignment and a sum that fits the
word.
-/

namespace VBuf.Lib

/-- The least multiple of `alignment` that is at least `value`. -/
def roundUp (value alignment : Nat) : Nat :=
  (value + (alignment - 1)) / alignment * alignment

theorem dvd_roundUp (value alignment : Nat) : alignment ∣ roundUp value alignment :=
  Dvd.intro_left _ rfl

@[simp] theorem roundUp_mod (value alignment : Nat) : roundUp value alignment % alignment = 0 :=
  Nat.mod_eq_zero_of_dvd (dvd_roundUp value alignment)

theorem roundUp_le_add (value alignment : Nat) :
    roundUp value alignment ≤ value + (alignment - 1) :=
  Nat.div_mul_le_self _ _

theorem le_roundUp {value alignment : Nat} (halign : 0 < alignment) :
    value ≤ roundUp value alignment := by
  have hdiv := Nat.div_add_mod (value + (alignment - 1)) alignment
  have hmod := Nat.mod_lt (value + (alignment - 1)) halign
  have hcomm : alignment * ((value + (alignment - 1)) / alignment) = roundUp value alignment :=
    Nat.mul_comm _ _
  omega

theorem roundUp_lt_add {value alignment : Nat} (halign : 0 < alignment) :
    roundUp value alignment < value + alignment := by
  have hle := roundUp_le_add value alignment
  omega

/-- A multiple in the half-open window `[value, value + alignment)` is the
rounded value: the window holds exactly one. -/
theorem roundUp_eq_of_dvd {value alignment target : Nat} (hdvd : alignment ∣ target)
    (hle : value ≤ target) (hlt : target < value + alignment) :
    roundUp value alignment = target := by
  obtain ⟨k, rfl⟩ := hdvd
  have halign : 0 < alignment := by
    rcases Nat.eq_zero_or_pos alignment with rfl | hpos
    · omega
    · exact hpos
  have hquot : (value + (alignment - 1)) / alignment = k := by
    apply Nat.div_eq_of_lt_le
    · rw [Nat.mul_comm]
      omega
    · rw [Nat.mul_comm, Nat.mul_succ]
      omega
  rw [roundUp, hquot, Nat.mul_comm]

theorem roundUp_eq_self {value alignment : Nat} (halign : 0 < alignment)
    (hdvd : alignment ∣ value) : roundUp value alignment = value :=
  roundUp_eq_of_dvd hdvd (Nat.le_refl _) (by omega)

/-- Clearing the low bits of a word-sized sum is rounding down. -/
theorem and_complement_mask {word shift value : Nat} (hshift : shift ≤ word)
    (hvalue : value < 2 ^ word) :
    value &&& (2 ^ word - 1 - (2 ^ shift - 1)) = value / 2 ^ shift * 2 ^ shift := by
  apply Nat.eq_of_testBit_eq
  intro i
  have hpow : 2 ^ shift ≤ 2 ^ word := Nat.pow_le_pow_right (by omega) hshift
  have hpos : 0 < 2 ^ shift := Nat.two_pow_pos shift
  have hmask : 2 ^ word - 1 - (2 ^ shift - 1) = 2 ^ word - ((2 ^ shift - 1) + 1) := by omega
  rw [Nat.testBit_and, hmask, Nat.testBit_two_pow_sub_succ (by omega), Nat.testBit_two_pow_sub_one,
    Nat.testBit_mul_two_pow, Nat.testBit_div_two_pow]
  by_cases hlow : i < shift
  · have hnot : ¬ shift ≤ i := by omega
    simp [hlow, hnot]
  · have hge : shift ≤ i := by omega
    have hsub : i - shift + shift = i := by omega
    by_cases hword : i < word
    · simp [hlow, hge, hword, hsub]
    · have hzero : value.testBit i = false := by
        apply Nat.testBit_lt_two_pow
        exact Nat.lt_of_lt_of_le hvalue (Nat.pow_le_pow_right (by omega) (by omega))
      simp [hlow, hge, hword, hsub, hzero]

/-- The mask form of alignment agrees with `roundUp` whenever the sum fits the
word. -/
theorem mask_add_eq_roundUp {word shift value : Nat} (hshift : shift ≤ word)
    (hfits : value + (2 ^ shift - 1) < 2 ^ word) :
    (value + (2 ^ shift - 1)) &&& (2 ^ word - 1 - (2 ^ shift - 1)) = roundUp value (2 ^ shift) :=
  and_complement_mask hshift hfits

end VBuf.Lib
