import Mathlib.Data.Nat.Log
import Mathlib.Tactic.Ring

/-!
# Casts between the binary32 and the binary64 format

A number is its word, with one word for all that are not a number.  Widening is exact and
narrowing rounds to the nearest word, to the even one of two; a widened word narrows to
itself.
-/

namespace VBuf.Lib.FloatCast

/-! ### Words -/

/-- The binary32 word that stands for all that are not a number. -/
def nan32 : Nat := 255 * 2 ^ 23 + 2 ^ 22

/-- The binary64 word that stands for all that are not a number. -/
def nan64 : Nat := 2047 * 2 ^ 52 + 2 ^ 51

/-- The number of a binary32 word. -/
def canonical32 (word : Nat) : Nat :=
  if word / 2 ^ 23 % 2 ^ 8 = 255 ∧ word % 2 ^ 23 ≠ 0 then nan32 else word

/-- The binary64 word of a sign, an exponent field and a fraction field. -/
def pack64 (sign exponent fraction : Nat) : Nat := sign * 2 ^ 63 + exponent * 2 ^ 52 + fraction

/-- The number of a binary64 word is finite. -/
def IsFinite64 (word : Nat) : Prop := word / 2 ^ 52 % 2 ^ 11 ≠ 2047

instance (word : Nat) : Decidable (IsFinite64 word) := inferInstanceAs (Decidable (_ ≠ _))

/-- The finite number of a binary64 word is at most zero. -/
def AtMostZero64 (word : Nat) : Prop := word = 0 ∨ 2 ^ 63 ≤ word

instance (word : Nat) : Decidable (AtMostZero64 word) := inferInstanceAs (Decidable (_ ∨ _))

theorem nan64_eq : nan64 = pack64 0 2047 (2 ^ 51) := rfl

/-! ### Casts -/

/-- `significand / 2 ^ shift`, to the nearest integer and to the even one of two. -/
def roundHalfEven (significand shift : Nat) : Nat :=
  let quotient := significand / 2 ^ shift
  let twice := 2 * (significand % 2 ^ shift)
  if 2 ^ shift < twice ∨ twice = 2 ^ shift ∧ quotient % 2 = 1 then quotient + 1 else quotient

/-- The cast of a binary32 number, from its fields. -/
def widenFields (sign exponent fraction : Nat) : Nat :=
  if exponent = 255 then if fraction = 0 then pack64 sign 2047 0 else nan64
  else if exponent ≠ 0 then pack64 sign (exponent + 896) (fraction * 2 ^ 29)
  else if fraction = 0 then pack64 sign 0 0
  -- A number below the normal ones is normal in the wider format.
  else pack64 sign (fraction.log2 + 874) ((fraction - 2 ^ fraction.log2) * 2 ^ (52 - fraction.log2))

/-- The cast of a binary32 number to binary64. -/
def widen (word : Nat) : Nat := widenFields (word / 2 ^ 31) (word / 2 ^ 23 % 2 ^ 8) (word % 2 ^ 23)

/-- The magnitude of a finite binary64 number in binary32; beyond its range it is infinite. -/
def narrowFinite (exponent fraction : Nat) : Nat :=
  let significand := if exponent = 0 then fraction else 2 ^ 52 + fraction
  let scale := max exponent 1
  if 897 ≤ scale then min (255 * 2 ^ 23) ((scale - 897) * 2 ^ 23 + roundHalfEven significand 29)
  else roundHalfEven significand (29 + (897 - scale))

/-- The cast of a binary64 number, from its fields. -/
def narrowFields (sign exponent fraction : Nat) : Nat :=
  if exponent = 2047 then if fraction = 0 then sign * 2 ^ 31 + 255 * 2 ^ 23 else nan32
  else sign * 2 ^ 31 + narrowFinite exponent fraction

/-- The cast of a binary64 number to binary32. -/
def narrow (word : Nat) : Nat :=
  narrowFields (word / 2 ^ 63) (word / 2 ^ 52 % 2 ^ 11) (word % 2 ^ 52)

/-! ### The round trip -/

theorem roundHalfEven_mul (significand shift : Nat) :
    roundHalfEven (significand * 2 ^ shift) shift = significand := by
  have hpos : 0 < 2 ^ shift := Nat.two_pow_pos shift
  have hquotient : significand * 2 ^ shift / 2 ^ shift = significand :=
    Nat.mul_div_cancel _ hpos
  rw [roundHalfEven, hquotient, Nat.mul_mod_left]
  exact if_neg (by omega)

theorem narrow_pack64 {sign exponent fraction : Nat} (hexponent : exponent < 2 ^ 11)
    (hfraction : fraction < 2 ^ 52) :
    narrow (pack64 sign exponent fraction) = narrowFields sign exponent fraction := by
  have hsign : pack64 sign exponent fraction / 2 ^ 63 = sign := by
    unfold pack64
    omega
  have hmiddle : pack64 sign exponent fraction / 2 ^ 52 % 2 ^ 11 = exponent := by
    unfold pack64
    omega
  have hlow : pack64 sign exponent fraction % 2 ^ 52 = fraction := by
    unfold pack64
    omega
  rw [narrow, hsign, hmiddle, hlow]

theorem narrowFinite_zero : narrowFinite 0 0 = 0 := by
  have hzero : ∀ shift, roundHalfEven 0 shift = 0 := by
    intro shift
    have hround := roundHalfEven_mul 0 shift
    rwa [Nat.zero_mul] at hround
  rw [narrowFinite, if_pos rfl, max_eq_right (Nat.zero_le 1), if_neg (by decide : ¬ 897 ≤ 1), hzero]

/-- A normal number keeps its fields. -/
theorem narrowFinite_normal {exponent fraction : Nat} (hpos : 0 < exponent) (hle : exponent < 255)
    (hfraction : fraction < 2 ^ 23) :
    narrowFinite (exponent + 896) (fraction * 2 ^ 29) = exponent * 2 ^ 23 + fraction := by
  have hsignificand : 2 ^ 52 + fraction * 2 ^ 29 = (2 ^ 23 + fraction) * 2 ^ 29 := by ring
  have hscale : max (exponent + 896) 1 = exponent + 896 := by omega
  have hfield : ¬ exponent + 896 = 0 := by omega
  have hnormal : 897 ≤ exponent + 896 := by omega
  rw [narrowFinite, hscale, if_neg hfield, if_pos hnormal, hsignificand, roundHalfEven_mul]
  omega

/-- A number below the normal ones comes back to its fraction. -/
theorem narrowFinite_subnormal {fraction : Nat} (hpos : fraction ≠ 0) (hfraction : fraction < 2 ^ 23) :
    narrowFinite (fraction.log2 + 874)
      ((fraction - 2 ^ fraction.log2) * 2 ^ (52 - fraction.log2)) = fraction := by
  have hlog : fraction.log2 < 23 := (Nat.log2_lt hpos).2 hfraction
  have hle : 2 ^ fraction.log2 ≤ fraction := Nat.log2_self_le hpos
  -- The leading bit of the fraction is the hidden one of the wider format.
  have hone : 2 ^ 52 = 2 ^ fraction.log2 * 2 ^ (52 - fraction.log2) := by
    rw [← pow_add]
    congr 1
    omega
  have hsignificand : 2 ^ 52 + (fraction - 2 ^ fraction.log2) * 2 ^ (52 - fraction.log2) =
      fraction * 2 ^ (52 - fraction.log2) := by
    rw [hone, ← Nat.add_mul, Nat.add_sub_cancel' hle]
  have hshift : 29 + (897 - (fraction.log2 + 874)) = 52 - fraction.log2 := by omega
  have hscale : max (fraction.log2 + 874) 1 = fraction.log2 + 874 := by omega
  have hfield : ¬ fraction.log2 + 874 = 0 := by omega
  have hbelow : ¬ 897 ≤ fraction.log2 + 874 := by omega
  rw [narrowFinite, hscale, if_neg hfield, if_neg hbelow, hsignificand, hshift, roundHalfEven_mul]

theorem subnormal_fraction_lt {fraction : Nat} (hpos : fraction ≠ 0) (hfraction : fraction < 2 ^ 23) :
    (fraction - 2 ^ fraction.log2) * 2 ^ (52 - fraction.log2) < 2 ^ 52 := by
  have hlog : fraction.log2 < 23 := (Nat.log2_lt hpos).2 hfraction
  have hlt : fraction < 2 ^ (fraction.log2 + 1) := Nat.lt_log2_self
  have hrest : fraction - 2 ^ fraction.log2 < 2 ^ fraction.log2 := by
    rw [pow_succ] at hlt
    omega
  calc (fraction - 2 ^ fraction.log2) * 2 ^ (52 - fraction.log2)
      < 2 ^ fraction.log2 * 2 ^ (52 - fraction.log2) :=
        Nat.mul_lt_mul_of_pos_right hrest (Nat.two_pow_pos _)
    _ = 2 ^ 52 := by
        rw [← pow_add]
        congr 1
        omega

/-- Narrowing undoes widening, field by field. -/
theorem narrow_widenFields {sign exponent fraction : Nat} (hexponent : exponent < 2 ^ 8)
    (hfraction : fraction < 2 ^ 23) :
    narrow (widenFields sign exponent fraction) =
      if exponent = 255 ∧ fraction ≠ 0 then nan32
      else sign * 2 ^ 31 + exponent * 2 ^ 23 + fraction := by
  unfold widenFields
  by_cases hmax : exponent = 255
  · by_cases hzero : fraction = 0
    · subst hmax hzero
      rw [if_pos rfl, if_pos rfl, narrow_pack64 (by decide) (by decide), narrowFields, if_pos rfl,
        if_pos rfl, @if_neg (255 = 255 ∧ 0 ≠ 0) _ (fun hbad => hbad.2 rfl), Nat.add_zero]
    · rw [if_pos hmax, if_neg hzero, if_pos ⟨hmax, hzero⟩, nan64_eq,
        narrow_pack64 (by decide) (by decide)]
      rfl
  · rw [if_neg hmax, @if_neg (exponent = 255 ∧ fraction ≠ 0) _ (fun hbad => hmax hbad.1)]
    by_cases hsmall : exponent = 0
    · subst hsmall
      rw [if_neg (not_not_intro rfl)]
      by_cases hzero : fraction = 0
      · subst hzero
        rw [if_pos rfl, narrow_pack64 (by decide) (by decide), narrowFields,
          if_neg (by decide : ¬ 0 = 2047), narrowFinite_zero, Nat.zero_mul, Nat.add_zero]
      · have hlog : fraction.log2 < 23 := (Nat.log2_lt hzero).2 hfraction
        have hfield : fraction.log2 + 874 < 2 ^ 11 := by omega
        have hfinite : ¬ fraction.log2 + 874 = 2047 := by omega
        rw [if_neg hzero, narrow_pack64 hfield (subnormal_fraction_lt hzero hfraction),
          narrowFields, if_neg hfinite, narrowFinite_subnormal hzero hfraction, Nat.zero_mul,
          Nat.add_zero]
    · have hfield : exponent + 896 < 2 ^ 11 := by omega
      have hwide : fraction * 2 ^ 29 < 2 ^ 52 := by omega
      have hfinite : ¬ exponent + 896 = 2047 := by omega
      rw [if_pos hsmall, narrow_pack64 hfield hwide, narrowFields, if_neg hfinite,
        narrowFinite_normal (Nat.pos_of_ne_zero hsmall) (by omega) hfraction, Nat.add_assoc]

/-- Narrowing undoes widening. -/
theorem narrow_widen (word : Nat) : narrow (widen word) = canonical32 word := by
  have hfields : word / 2 ^ 31 * 2 ^ 31 + word / 2 ^ 23 % 2 ^ 8 * 2 ^ 23 + word % 2 ^ 23 = word := by
    omega
  rw [widen, narrow_widenFields (Nat.mod_lt _ (by decide)) (Nat.mod_lt _ (by decide)), hfields]
  rfl

end VBuf.Lib.FloatCast
