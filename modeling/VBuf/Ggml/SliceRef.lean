import Mathlib.Data.Nat.ModEq

/-!
# References of tensor slices

The generation session numbers the slices it materializes at six places, each a
base plus strides in 32-bit arithmetic, and all share one residency store.
`Meets` says when two of the numbers are the same.
-/

namespace VBuf.Ggml

/-- What a slice is numbered from.  `id` is the identifier of an attention tensor
in its block, and `slot` the number of a slice within the feed-forward part of a
block. -/
inductive SliceNumber
  | embedding (token : UInt32)
  | outputNorm (position : UInt32)
  | outputHead (position : UInt32)
  | attention (id : UInt64)
  | feedForward (block slot : UInt32)
  deriving DecidableEq, Repr

/-- `namespace_base` of a block. -/
def namespaceBase (block : UInt32) : UInt32 := (block + 1) * 10000

namespace SliceNumber

/-- The reference: the base of the `OffsetMaterializer` plus the number of the
persistent tensor in its graph. -/
def tensorRef : SliceNumber → UInt32
  | embedding token => 800000 + token * 100
  | outputNorm position => 950000 + position * 100
  | outputHead position => 950000 + position * 100 + 1
  | attention id => 1000 + (id * 10).toUInt32
  | feedForward block slot => namespaceBase block + slot

/-- The reference before it wraps. -/
def value : SliceNumber → Nat
  | embedding token => 800000 + token.toNat * 100
  | outputNorm position => 950000 + position.toNat * 100
  | outputHead position => 950000 + position.toNat * 100 + 1
  | attention id => 1000 + id.toNat * 10
  | feedForward block slot => (block.toNat + 1) * 10000 + slot.toNat

theorem namespaceBase_toNat (block : UInt32) :
    (namespaceBase block).toNat = (block.toNat + 1) * 10000 % 2 ^ 32 := by
  rw [namespaceBase, UInt32.toNat_mul, UInt32.toNat_add, Nat.mod_mul_mod]
  rfl

/-- 32 bits of a 64-bit product. -/
theorem id_toNat (id : UInt64) : (id * 10).toUInt32.toNat = id.toNat * 10 % 2 ^ 32 := by
  have hdvd : (2 : Nat) ^ 32 ∣ 2 ^ 64 := by decide
  rw [UInt64.toNat_toUInt32, UInt64.toNat_mul, Nat.mod_mod_of_dvd _ hdvd]
  rfl

theorem tensorRef_toNat (number : SliceNumber) :
    number.tensorRef.toNat = number.value % 2 ^ 32 := by
  cases number with
  | embedding token => simp [tensorRef, value]
  | outputNorm position => simp [tensorRef, value]
  | outputHead position => simp [tensorRef, value]
  | attention id =>
      rw [tensorRef, UInt32.toNat_add, id_toNat, Nat.add_mod_mod]
      rfl
  | feedForward block slot =>
      rw [tensorRef, UInt32.toNat_add, namespaceBase_toNat, Nat.mod_add_mod]
      rfl

/-- Two numbers with one reference, each pair of kinds once. -/
def Meets : SliceNumber → SliceNumber → Prop
  | embedding t, embedding t' => t.toNat ≡ t'.toNat [MOD 2 ^ 30]
  | embedding t, outputNorm p => t.toNat ≡ p.toNat + 1500 [MOD 2 ^ 30]
  | embedding t, attention i => 79900 + t.toNat * 10 ≡ i.toNat [MOD 2 ^ 31]
  | embedding t, feedForward b s =>
      s.toNat % 4 = 0 ∧ (t.toNat + 8000) * 25 ≡ (b.toNat + 1) * 2500 + s.toNat / 4 [MOD 2 ^ 30]
  | outputNorm p, outputNorm p' => p.toNat ≡ p'.toNat [MOD 2 ^ 30]
  | outputNorm p, attention i => 94900 + p.toNat * 10 ≡ i.toNat [MOD 2 ^ 31]
  | outputNorm p, feedForward b s =>
      s.toNat % 4 = 0 ∧ (p.toNat + 9500) * 25 ≡ (b.toNat + 1) * 2500 + s.toNat / 4 [MOD 2 ^ 30]
  | outputHead p, outputHead p' => p.toNat ≡ p'.toNat [MOD 2 ^ 30]
  | outputHead p, feedForward b s =>
      s.toNat % 4 = 1 ∧ (p.toNat + 9500) * 25 ≡ (b.toNat + 1) * 2500 + s.toNat / 4 [MOD 2 ^ 30]
  | attention i, attention i' => i.toNat ≡ i'.toNat [MOD 2 ^ 31]
  | attention i, feedForward b s =>
      s.toNat % 2 = 0 ∧ (i.toNat + 100) * 5 ≡ (b.toNat + 1) * 5000 + s.toNat / 2 [MOD 2 ^ 31]
  | feedForward b s, feedForward b' s' =>
      b.toNat * 10000 + s.toNat ≡ b'.toNat * 10000 + s'.toNat [MOD 2 ^ 32]
  | _, _ => False

/-! ### Strides modulo a power of two -/

/-- A stride is cancelled up to its common factor `d` with the modulus. -/
theorem stride_cancel {m c d : Nat} (hc : Nat.gcd m c = 1) (hd : d ≠ 0) (x y : Nat) :
    x * c * d ≡ y * c * d [MOD m * d] ↔ x ≡ y [MOD m] := by
  rw [Nat.ModEq.mul_right_cancel_iff' hd]
  exact ⟨Nat.ModEq.cancel_right_of_coprime hc, Nat.ModEq.mul_right c⟩

/-- An offset beside a stride is the remainder `r`, and the rest is carried. -/
theorem stride_offset {m d r : Nat} (hr : r < d) (x y s : Nat) :
    x * d + r ≡ y * d + s [MOD m * d] ↔ s % d = r ∧ x ≡ y + s / d [MOD m] := by
  have hd : d ≠ 0 := Nat.ne_of_gt (Nat.zero_lt_of_lt hr)
  have hsum : y * d + s = (y + s / d) * d + s % d := by
    rw [Nat.add_mul, Nat.add_assoc, Nat.div_add_mod']
  constructor
  · intro h
    have hremainder : s % d = r := by
      have hmod : x * d + r ≡ y * d + s [MOD d] := h.of_dvd (Nat.dvd_mul_left d m)
      unfold Nat.ModEq at hmod
      rw [Nat.mul_add_mod', Nat.mul_add_mod', Nat.mod_eq_of_lt hr] at hmod
      exact hmod.symm
    refine ⟨hremainder, ?_⟩
    rw [hsum, hremainder] at h
    exact Nat.ModEq.mul_right_cancel' hd (Nat.ModEq.add_right_cancel' r h)
  · intro h
    rw [hsum, h.1]
    exact (Nat.ModEq.mul_right' d h.2).add_right r

theorem not_modEq_of_mod {x y n : Nat} (k : Nat) (hk : k ∣ n) (h : x % k ≠ y % k) :
    ¬ x ≡ y [MOD n] :=
  fun hxy => h (hxy.of_dvd hk)

/-! ### Equal references -/

theorem tensorRef_eq_iff {a b : SliceNumber} :
    a.tensorRef = b.tensorRef ↔ a.value ≡ b.value [MOD 2 ^ 32] := by
  rw [← UInt32.toNat_inj, tensorRef_toNat, tensorRef_toNat]
  rfl

theorem base_cancel {n : Nat} (base x y : Nat) : base + x ≡ base + y [MOD n] ↔ x ≡ y [MOD n] :=
  ⟨Nat.ModEq.add_left_cancel' base, Nat.ModEq.add_left base⟩

/-- Strides of a hundred. -/
theorem hundreds (base x y : Nat) :
    base + x * 100 ≡ base + y * 100 [MOD 2 ^ 32] ↔ x ≡ y [MOD 2 ^ 30] := by
  rw [base_cancel]
  have hstride := @stride_cancel (2 ^ 30) 25 4 (by decide) (by decide) x y
  rw [Nat.mul_assoc, Nat.mul_assoc] at hstride
  exact hstride

/-- Strides of ten. -/
theorem tens (base x y : Nat) :
    base + x * 10 ≡ base + y * 10 [MOD 2 ^ 32] ↔ x ≡ y [MOD 2 ^ 31] := by
  rw [base_cancel]
  have hstride := @stride_cancel (2 ^ 31) 5 2 (by decide) (by decide) x y
  rw [Nat.mul_assoc, Nat.mul_assoc] at hstride
  exact hstride

/-- A multiple of a hundred, and one more of `r`, against a block's slot. -/
theorem hundreds_slot {r : Nat} (hr : r < 4) (x b s : Nat) :
    x * 100 + r ≡ (b + 1) * 10000 + s [MOD 2 ^ 32] ↔
      s % 4 = r ∧ x * 25 ≡ (b + 1) * 2500 + s / 4 [MOD 2 ^ 30] := by
  have hleft : x * 100 + r = x * 25 * 4 + r := by omega
  have hright : (b + 1) * 10000 + s = (b + 1) * 2500 * 4 + s := by omega
  rw [hleft, hright]
  exact @stride_offset (2 ^ 30) 4 r hr _ _ s

theorem tens_slot (x b s : Nat) :
    1000 + x * 10 ≡ (b + 1) * 10000 + s [MOD 2 ^ 32] ↔
      s % 2 = 0 ∧ (x + 100) * 5 ≡ (b + 1) * 5000 + s / 2 [MOD 2 ^ 31] := by
  have hleft : 1000 + x * 10 = (x + 100) * 5 * 2 + 0 := by omega
  have hright : (b + 1) * 10000 + s = (b + 1) * 5000 * 2 + s := by omega
  rw [hleft, hright]
  exact @stride_offset (2 ^ 31) 2 0 (by decide) _ _ s

/-- An order of the kinds, so that each pair is looked at once. -/
def kind : SliceNumber → Nat
  | embedding _ => 0
  | outputNorm _ => 1
  | outputHead _ => 2
  | attention _ => 3
  | feedForward _ _ => 4

theorem meets_symm_of_kind {a b : SliceNumber} (h : a.kind ≤ b.kind) (hba : Meets b a) :
    Meets a b := by
  cases a <;> cases b <;> simp only [kind] at h <;> first
    | omega
    | exact Nat.ModEq.symm hba
    | exact False.elim hba

theorem value_modEq_iff_of_kind {a b : SliceNumber} (h : a.kind ≤ b.kind) :
    a.value ≡ b.value [MOD 2 ^ 32] ↔ Meets a b := by
  cases a with
  | embedding t =>
      cases b with
      | embedding t' => exact hundreds 800000 t.toNat t'.toNat
      | outputNorm p =>
          have hvalue : (outputNorm p).value = 800000 + (p.toNat + 1500) * 100 := by
            simp only [value]
            omega
          rw [hvalue]
          exact hundreds 800000 t.toNat (p.toNat + 1500)
      | outputHead p =>
          refine iff_of_false (not_modEq_of_mod 2 (by decide) ?_) id
          simp only [value]
          omega
      | attention i =>
          have hvalue : (embedding t).value = 1000 + (79900 + t.toNat * 10) * 10 := by
            simp only [value]
            omega
          rw [hvalue]
          exact tens 1000 _ _
      | feedForward b s =>
          have hvalue : (embedding t).value = (t.toNat + 8000) * 100 + 0 := by
            simp only [value]
            omega
          rw [hvalue]
          exact hundreds_slot (by decide) _ _ _
  | outputNorm p =>
      cases b with
      | embedding t => simp [kind] at h
      | outputNorm p' => exact hundreds 950000 p.toNat p'.toNat
      | outputHead p' =>
          refine iff_of_false (not_modEq_of_mod 2 (by decide) ?_) id
          simp only [value]
          omega
      | attention i =>
          have hvalue : (outputNorm p).value = 1000 + (94900 + p.toNat * 10) * 10 := by
            simp only [value]
            omega
          rw [hvalue]
          exact tens 1000 _ _
      | feedForward b s =>
          have hvalue : (outputNorm p).value = (p.toNat + 9500) * 100 + 0 := by
            simp only [value]
            omega
          rw [hvalue]
          exact hundreds_slot (by decide) _ _ _
  | outputHead p =>
      cases b with
      | embedding t => simp [kind] at h
      | outputNorm p' => simp [kind] at h
      | outputHead p' =>
          have hvalue : ∀ q : UInt32, (outputHead q).value = 950001 + q.toNat * 100 := by
            intro q
            simp only [value]
            omega
          rw [hvalue, hvalue]
          exact hundreds 950001 p.toNat p'.toNat
      | attention i =>
          refine iff_of_false (not_modEq_of_mod 2 (by decide) ?_) id
          simp only [value]
          omega
      | feedForward b s =>
          have hvalue : (outputHead p).value = (p.toNat + 9500) * 100 + 1 := by
            simp only [value]
            omega
          rw [hvalue]
          exact hundreds_slot (by decide) _ _ _
  | attention i =>
      cases b with
      | embedding t => simp [kind] at h
      | outputNorm p => simp [kind] at h
      | outputHead p => simp [kind] at h
      | attention i' => exact tens 1000 _ _
      | feedForward c' s => exact tens_slot _ _ _
  | feedForward c s =>
      cases b with
      | embedding t => simp [kind] at h
      | outputNorm p => simp [kind] at h
      | outputHead p => simp [kind] at h
      | attention i => simp [kind] at h
      | feedForward c' s' =>
          have hvalue : ∀ block slot : UInt32, (feedForward block slot).value =
              10000 + (block.toNat * 10000 + slot.toNat) := by
            intro block slot
            simp only [value]
            omega
          rw [hvalue, hvalue]
          exact base_cancel 10000 _ _

/-- Two numbers have one reference exactly when they meet. -/
theorem tensorRef_eq_iff_meets (a b : SliceNumber) :
    a.tensorRef = b.tensorRef ↔ Meets a b ∨ Meets b a := by
  rw [tensorRef_eq_iff]
  rcases Nat.le_total a.kind b.kind with hkind | hkind
  · rw [value_modEq_iff_of_kind hkind]
    exact (or_iff_left_of_imp (meets_symm_of_kind hkind)).symm
  · rw [Nat.ModEq.comm, value_modEq_iff_of_kind hkind]
    exact (or_iff_right_of_imp (meets_symm_of_kind hkind)).symm

end SliceNumber

end VBuf.Ggml
