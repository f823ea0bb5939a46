import Mathlib.Data.List.Find
import VBuf.Tokenizer.Server

/-!
# One byte alphabet

The server and the runtime write bytes with the same characters, and the server
reads back the UTF-8 of every character.
-/

namespace VBuf.Tokenizer

open VBuf.Lib

/-! ### UTF-8 -/

theorem utf8_eq_flatMap (s : String) : utf8 s = s.toList.flatMap String.utf8EncodeChar := by
  unfold utf8
  rw [← String.utf8Encode_toList, List.utf8Encode]
  simp

theorem utf8EncodeChar_eq (c : Char) :
    String.utf8EncodeChar c =
      if c.toNat ≤ 0x7f then [UInt8.ofNat c.toNat]
      else if c.toNat ≤ 0x7ff then
        [UInt8.ofNat (c.toNat / 64 % 0x20 + 0xc0), UInt8.ofNat (c.toNat % 0x40 + 0x80)]
      else if c.toNat ≤ 0xffff then
        [UInt8.ofNat (c.toNat / 4096 % 0x10 + 0xe0), UInt8.ofNat (c.toNat / 64 % 0x40 + 0x80),
          UInt8.ofNat (c.toNat % 0x40 + 0x80)]
      else
        [UInt8.ofNat (c.toNat / 262144 % 0x08 + 0xf0), UInt8.ofNat (c.toNat / 4096 % 0x40 + 0x80),
          UInt8.ofNat (c.toNat / 64 % 0x40 + 0x80), UInt8.ofNat (c.toNat % 0x40 + 0x80)] := rfl

theorem toNat_lt (c : Char) : c.toNat < 0x110000 := by
  rcases c.valid with hlow | ⟨_, hhigh⟩
  · exact Nat.lt_trans hlow (by decide)
  · exact hhigh

theorem appendUtf8_eq (c : Char) : appendUtf8 c.toNat = String.utf8EncodeChar c := by
  have hlt := toNat_lt c
  rw [appendUtf8, utf8EncodeChar_eq]
  split
  · rfl
  · split
    · rw [Nat.mod_eq_of_lt (by omega : c.toNat / 64 < 0x20), Nat.add_comm 0xc0, Nat.add_comm 0x80]
    · split
      · rw [Nat.mod_eq_of_lt (by omega : c.toNat / 4096 < 0x10), Nat.add_comm 0xe0,
          Nat.add_comm 0x80, Nat.add_comm 0x80]
      · rw [Nat.mod_eq_of_lt (by omega : c.toNat / 262144 < 0x08), Nat.add_comm 0xf0,
          Nat.add_comm 0x80, Nat.add_comm 0x80, Nat.add_comm 0x80]

/-- A continuation byte gives its six bits. -/
theorem continuationBytes_cons (count result bits : Nat) (rest : List UInt8) (hbits : bits < 64) :
    continuationBytes (count + 1) result (UInt8.ofNat (bits + 0x80) :: rest) =
      continuationBytes count (result * 64 + bits) rest := by
  have hbyte : (UInt8.ofNat (bits + 0x80)).toNat = bits + 0x80 := by
    rw [UInt8.toNat_ofNat']
    omega
  rw [continuationBytes, hbyte, if_neg (by omega), show (bits + 0x80) % 64 = bits by omega]

/-- The server reads what a character is written as. -/
theorem nextUtf8_encode (c : Char) (rest : List UInt8) :
    nextUtf8 (String.utf8EncodeChar c ++ rest) = some (c.toNat, rest) := by
  have hlt := toNat_lt c
  have hfirst : ∀ value, value < 256 → (UInt8.ofNat value).toNat = value := by
    intro value hvalue
    rw [UInt8.toNat_ofNat', Nat.mod_eq_of_lt hvalue]
  rw [utf8EncodeChar_eq]
  split
  next h =>
      rw [List.cons_append, List.nil_append, nextUtf8]
      rw [hfirst _ (by omega), if_pos (by omega)]
  next =>
    split
    next h =>
        rw [List.cons_append, List.cons_append, List.nil_append, nextUtf8]
        rw [hfirst _ (by omega), if_neg (by omega), if_neg (by omega), if_neg (by omega),
          continuationBytes_cons 0 _ _ _ (by omega), continuationBytes]
        congr 2
        omega
    next =>
      split
      next h =>
          rw [List.cons_append, List.cons_append, List.cons_append, List.nil_append, nextUtf8]
          rw [hfirst _ (by omega), if_neg (by omega), if_neg (by omega), if_pos (by omega),
            continuationBytes_cons 1 _ _ _ (by omega), continuationBytes_cons 0 _ _ _ (by omega),
            continuationBytes]
          congr 2
          omega
      next h =>
          rw [List.cons_append, List.cons_append, List.cons_append, List.cons_append,
            List.nil_append, nextUtf8]
          rw [hfirst _ (by omega), if_neg (by omega), if_pos (by omega),
            continuationBytes_cons 2 _ _ _ (by omega), continuationBytes_cons 1 _ _ _ (by omega),
            continuationBytes_cons 0 _ _ _ (by omega), continuationBytes]
          congr 2
          omega

/-! ### The alphabet -/

/-- The code point of the character of a byte. -/
def characterOf (value : Nat) : Nat := if isDirectByte value then value else 256 + extra value

theorem extra_le {value : Nat} (h : value < 256) : extra value ≤ 256 := by
  have hfilter := List.length_filter_le (fun v => !isDirectByte v) (List.range value)
  rw [List.length_range] at hfilter
  exact Nat.le_trans hfilter (Nat.le_of_lt h)

theorem extra_succ (value : Nat) :
    extra (value + 1) = if isDirectByte value then extra value else extra value + 1 := by
  rw [extra, List.range_succ, List.filter_append, List.length_append, extra]
  cases hdirect : isDirectByte value with
  | true => simp [hdirect]
  | false => simp [hdirect]

theorem contains_directBytes {value : Nat} (h : value < 256) :
    directBytes.contains value = isDirectByte value := by
  rw [Bool.eq_iff_iff, List.contains_iff_mem, directBytes, isDirectByte]
  simp only [List.mem_append, List.mem_range'_1, Bool.or_eq_true, Bool.and_eq_true,
    decide_eq_true_eq]
  omega

/-- The mapping counts the bytes without a character of their own. -/
theorem foldl_byteMapping {step : List Nat × Nat → Nat → List Nat × Nat}
    (hstep : ∀ mapping next value, step (mapping, next) value =
      if directBytes.contains value then (mapping ++ [value], next)
      else (mapping ++ [256 + next], next + 1)) {bound : Nat} (hbound : bound ≤ 256) :
    (List.range bound).foldl step ([], 0) = ((List.range bound).map characterOf, extra bound) := by
  induction bound with
  | zero => rfl
  | succ bound ih =>
      rw [List.range_succ, List.foldl_append, ih (by omega), List.foldl_cons, List.foldl_nil, hstep,
        List.map_append, List.map_singleton, extra_succ, contains_directBytes (by omega),
        characterOf]
      split
      · rfl
      · rfl

theorem byteMapping_eq_map : byteMapping = (List.range 256).map characterOf := by
  have hfirst : ∀ (state : List Nat × Nat) (mapping : List Nat) (next : Nat),
      state = (mapping, next) → state.1 = mapping := by
    intro state mapping next h
    rw [h]
  exact hfirst _ _ _ (foldl_byteMapping (fun _ _ _ => rfl) (Nat.le_refl 256))

theorem byteMapping_getD {value : Nat} (h : value < 256) :
    byteMapping.getD value 0 = characterOf value := by
  rw [byteMapping_eq_map, List.getD_eq_getElem?_getD, List.getElem?_map, List.getElem?_range h]
  rfl

theorem toNat_ofNat {value : Nat} (h : value < 0xd800) : (Char.ofNat value).toNat = value := by
  have hvalid : value.isValidChar := Or.inl h
  rw [Char.ofNat, dif_pos hvalid]
  rfl

theorem toNat_byteToUnicode (byte : UInt8) :
    (byteToUnicode byte).toNat = characterOf byte.toNat := by
  have hbyte := byte.toNat_lt
  have hextra := extra_le hbyte
  unfold byteToUnicode characterOf
  split
  · exact toNat_ofNat (by omega)
  · exact toNat_ofNat (by omega)

/-- The characters of the bytes are those of the mapping. -/
theorem byteMapping_eq (byte : UInt8) :
    byteMapping.getD byte.toNat 0 = (byteToUnicode byte).toNat := by
  rw [byteMapping_getD byte.toNat_lt, toNat_byteToUnicode]

theorem byteEncoded_eq (bytes : List UInt8) : byteEncoded bytes = bytes.flatMap byteSymbol := by
  unfold byteEncoded byteSymbol
  apply List.flatMap_congr
  intro byte _
  rw [byteMapping_eq, appendUtf8_eq]

/-- A character of the alphabet is written with one byte or two. -/
theorem length_byteSymbol (byte : UInt8) :
    1 ≤ (byteSymbol byte).length ∧ (byteSymbol byte).length ≤ 2 := by
  have hbyte := byte.toNat_lt
  have hextra := extra_le hbyte
  have hlt : (byteToUnicode byte).toNat ≤ 0x7ff := by
    rw [toNat_byteToUnicode, characterOf]
    split
    · omega
    · omega
  rw [byteSymbol, utf8EncodeChar_eq, if_pos hlt]
  split
  · exact ⟨Nat.le_refl 1, Nat.le_succ 1⟩
  · exact ⟨Nat.le_succ 1, Nat.le_refl 2⟩

/-- A direct byte is its own character. -/
theorem find?_characterOf {value : Nat} (hvalue : value < 256) (hdirect : isDirectByte value = true) :
    (List.range 256).find? (fun v => characterOf v == value) = some value := by
  have hself : characterOf value = value := if_pos hdirect
  cases hfind : (List.range 256).find? (fun v => characterOf v == value) with
  | none =>
      rw [List.find?_eq_none] at hfind
      exact absurd (beq_iff_eq.2 hself) (hfind value (List.mem_range.2 hvalue))
  | some found =>
      have hfound : characterOf found = value := by simpa using List.find?_some hfind
      unfold characterOf at hfound
      split at hfound
      · rw [hfound]
      · omega

/-- The byte of a character is the one that the mapping gives it. -/
theorem reverseByte_eq_find? (character : Nat) :
    reverseByte character =
      ((List.range 256).find? (fun v => characterOf v == character)).map UInt8.ofNat := by
  refine congrArg (Option.map UInt8.ofNat) (List.find?_congr ?_)
  intro v hv
  rw [byteMapping_getD (List.mem_range.1 hv)]

theorem reverseByte_eq (c : Char) : reverseByte c.toNat = unicodeToByte c := by
  rw [reverseByte_eq_find?, unicodeToByte]
  split
  next h => rw [find?_characterOf (by omega) h.2, Option.map_some]
  next h =>
      -- No direct byte has the character.
      refine congrArg (Option.map UInt8.ofNat) (List.find?_congr ?_)
      intro v hv
      have hlt := List.mem_range.1 hv
      unfold characterOf
      cases hdirect : isDirectByte v with
      | false => rfl
      | true =>
          rw [if_pos rfl, Bool.not_true, Bool.false_and, beq_eq_false_iff_ne]
          intro heq
          subst heq
          exact h ⟨by omega, hdirect⟩

/-- An ASCII character of the alphabet is its own byte. -/
theorem utf8EncodeChar_of_ascii {c : Char} {byte : UInt8} (hbyte : unicodeToByte c = some byte)
    (hascii : c.toNat ≤ 127) : String.utf8EncodeChar c = [byte] := by
  rw [utf8EncodeChar_eq, if_pos hascii]
  unfold unicodeToByte at hbyte
  split at hbyte
  next => rw [Option.some.inj hbyte]
  next =>
      obtain ⟨value, hfind, -⟩ := Option.map_eq_some_iff.1 hbyte
      have hvalue := List.find?_some hfind
      rw [Bool.and_eq_true, beq_iff_eq] at hvalue
      omega

/-- Another character is written with more than one byte. -/
theorem two_le_length_utf8EncodeChar {c : Char} (h : 127 < c.toNat) :
    2 ≤ (String.utf8EncodeChar c).length := by
  rw [utf8EncodeChar_eq, if_neg (by omega)]
  split
  · exact Nat.le_refl 2
  · split
    · exact Nat.le_succ 2
    · exact Nat.le_add_left 2 2

end VBuf.Tokenizer
