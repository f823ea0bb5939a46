import Mathlib.Algebra.Ring.Nat
import Mathlib.Data.List.Basic

/-!
# Fixed-width little-endian integers

The two directions of a fixed-width little-endian field: `leBytes` writes the
low `width` bytes of a number and `ofLeBytes` reads a byte list back.  Both are
structural, so concrete fields evaluate by `decide`.
-/

namespace VBuf.Lib

/-- The low `width` bytes of `value`, least significant byte first. -/
def leBytes : Nat → Nat → List UInt8
  | 0, _ => []
  | width + 1, value => UInt8.ofNat (value % 256) :: leBytes width (value / 256)

/-- The number a byte list denotes, least significant byte first. -/
def ofLeBytes : List UInt8 → Nat
  | [] => 0
  | byte :: rest => byte.toNat + 256 * ofLeBytes rest

@[simp] theorem leBytes_length (width value : Nat) : (leBytes width value).length = width := by
  induction width generalizing value with
  | zero => rfl
  | succ width ih => simp [leBytes, ih]

/-- Writing at a fixed width keeps the value modulo that width. -/
theorem ofLeBytes_leBytes (width value : Nat) :
    ofLeBytes (leBytes width value) = value % 256 ^ width := by
  induction width generalizing value with
  | zero => simp [leBytes, ofLeBytes, Nat.mod_one]
  | succ width ih =>
      have hbyte : (UInt8.ofNat (value % 256)).toNat = value % 256 := by simp
      rw [leBytes, ofLeBytes, ih, hbyte, Nat.pow_succ', Nat.mod_mul]

theorem ofLeBytes_leBytes_of_lt {width value : Nat} (hvalue : value < 256 ^ width) :
    ofLeBytes (leBytes width value) = value := by
  rw [ofLeBytes_leBytes, Nat.mod_eq_of_lt hvalue]

theorem ofLeBytes_lt (bytes : List UInt8) : ofLeBytes bytes < 256 ^ bytes.length := by
  induction bytes with
  | nil => simp [ofLeBytes]
  | cons byte rest ih =>
      have hbyte := byte.toNat_lt
      rw [ofLeBytes, List.length_cons, Nat.pow_succ]
      omega

/-- A digit of the number that bytes denote is a byte. -/
theorem ofLeBytes_digit (bytes : List UInt8) (k : Nat) :
    ofLeBytes bytes / 256 ^ k % 256 = (bytes.getD k 0).toNat := by
  induction bytes generalizing k with
  | nil => simp [ofLeBytes]
  | cons byte rest ih =>
      have hbyte := byte.toNat_lt
      cases k with
      | zero =>
          simp only [ofLeBytes, Nat.pow_zero, Nat.div_one, List.getD_cons_zero]
          omega
      | succ k =>
          have hhigh : (byte.toNat + 256 * ofLeBytes rest) / 256 = ofLeBytes rest := by omega
          rw [ofLeBytes, Nat.pow_succ', ← Nat.div_div_eq_div_mul, hhigh, ih, List.getD_cons_succ]

/-- A byte list is the canonical form of the number it denotes. -/
theorem leBytes_ofLeBytes (bytes : List UInt8) :
    leBytes bytes.length (ofLeBytes bytes) = bytes := by
  induction bytes with
  | nil => rfl
  | cons byte rest ih =>
      have hbyte := byte.toNat_lt
      have hlow : (byte.toNat + 256 * ofLeBytes rest) % 256 = byte.toNat := by omega
      have hhigh : (byte.toNat + 256 * ofLeBytes rest) / 256 = ofLeBytes rest := by omega
      rw [List.length_cons, ofLeBytes, leBytes, hlow, hhigh, ih, UInt8.ofNat_toNat]

theorem leBytes_ofLeBytes_of_length {bytes : List UInt8} {width : Nat}
    (hlength : bytes.length = width) : leBytes width (ofLeBytes bytes) = bytes := by
  rw [← hlength, leBytes_ofLeBytes]

@[simp] theorem leBytes_zero_value (width : Nat) : leBytes width 0 = List.replicate width 0 := by
  induction width with
  | zero => rfl
  | succ width ih => simp [leBytes, ih, List.replicate_succ]

end VBuf.Lib
