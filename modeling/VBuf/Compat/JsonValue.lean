import VBuf.Compat.JsonString
import VBuf.Tokenizer.ByteAlphabet

/-!
# JSON values and their bytes

Values without white space as they are written, the characters of an escaped string,
and byte strings that are the UTF-8 of characters: an ASCII byte cuts them in two.
-/

namespace VBuf.Compat

open VBuf.Lib VBuf.Tokenizer

/-! ### UTF-8 -/

/-- The bytes of characters. -/
def IsUtf8 (bytes : List UInt8) : Prop :=
  ∃ chars : List Char, bytes = chars.flatMap String.utf8EncodeChar

theorem IsUtf8.nil : IsUtf8 [] := ⟨[], rfl⟩

theorem isUtf8_utf8 (s : String) : IsUtf8 (utf8 s) := ⟨s.toList, utf8_eq_flatMap s⟩

theorem IsUtf8.append {xs ys : List UInt8} (h : IsUtf8 xs) (h' : IsUtf8 ys) : IsUtf8 (xs ++ ys) := by
  obtain ⟨chars, rfl⟩ := h
  obtain ⟨chars', rfl⟩ := h'
  exact ⟨chars ++ chars', List.flatMap_append.symm⟩

/-- What comes first is read first, so bytes behind characters are characters themselves. -/
theorem IsUtf8.append_iff {xs ys : List UInt8} (h : IsUtf8 xs) : IsUtf8 (xs ++ ys) ↔ IsUtf8 ys := by
  refine ⟨?_, h.append⟩
  obtain ⟨chars, rfl⟩ := h
  induction chars with
  | nil => exact id
  | cons c rest ih =>
    rintro ⟨all, hall⟩
    refine ih ?_
    have hread := nextUtf8_encode c (rest.flatMap String.utf8EncodeChar ++ ys)
    rw [← List.append_assoc, ← List.flatMap_cons, hall] at hread
    cases all with
    | nil => cases hread
    | cons c' rest' =>
      rw [List.flatMap_cons, nextUtf8_encode] at hread
      exact ⟨rest', (congrArg Prod.snd (Option.some.inj hread)).symm⟩

/-- A character is an ASCII byte or has none. -/
theorem utf8EncodeChar_cases (c : Char) :
    (c.toNat < 0x80 ∧ String.utf8EncodeChar c = [UInt8.ofNat c.toNat]) ∨
      (0x80 ≤ c.toNat ∧ ∀ byte ∈ String.utf8EncodeChar c, 0x80 ≤ byte.toNat) := by
  have hlt := toNat_lt c
  have hhigh : ∀ value : Nat, 0x80 ≤ value → value < 0x100 → 0x80 ≤ (UInt8.ofNat value).toNat := by
    intro value hlow hvalue
    rwa [UInt8.toNat_ofNat_of_lt' hvalue]
  rw [utf8EncodeChar_eq]
  split
  · next hascii => exact .inl ⟨by omega, rfl⟩
  · refine .inr ⟨by omega, ?_⟩
    split
    · simp only [List.forall_mem_cons]
      exact ⟨hhigh _ (by omega) (by omega), hhigh _ (by omega) (by omega), List.forall_mem_nil _⟩
    · split
      · simp only [List.forall_mem_cons]
        exact ⟨hhigh _ (by omega) (by omega), hhigh _ (by omega) (by omega),
          hhigh _ (by omega) (by omega), List.forall_mem_nil _⟩
      · simp only [List.forall_mem_cons]
        exact ⟨hhigh _ (by omega) (by omega), hhigh _ (by omega) (by omega),
          hhigh _ (by omega) (by omega), hhigh _ (by omega) (by omega), List.forall_mem_nil _⟩

theorem isUtf8_byte {byte : UInt8} (h : byte.toNat < 0x80) : IsUtf8 [byte] := by
  refine ⟨[Char.ofNat byte.toNat], ?_⟩
  have hchar : (Char.ofNat byte.toNat).toNat = byte.toNat := toNat_ofNat (by omega)
  rw [List.flatMap_singleton, utf8EncodeChar_eq, hchar, if_pos (by omega), UInt8.ofNat_toNat]

/-- An ASCII byte is not inside of a character. -/
theorem isUtf8_cut {xs ys : List UInt8} {byte : UInt8} (hbyte : byte.toNat < 0x80) :
    IsUtf8 (xs ++ byte :: ys) ↔ IsUtf8 xs ∧ IsUtf8 ys := by
  constructor
  · rintro ⟨chars, h⟩
    induction chars generalizing xs with
    | nil => exact absurd h (by simp)
    | cons c rest ih =>
      rw [List.flatMap_cons] at h
      rcases utf8EncodeChar_cases c with ⟨hascii, hc⟩ | ⟨-, hc⟩
      · rw [hc, List.singleton_append] at h
        cases xs with
        | nil =>
          refine ⟨IsUtf8.nil, rest, ?_⟩
          exact (List.cons.inj h).2
        | cons x xs =>
          obtain ⟨hx, hrest⟩ := List.cons.inj h
          obtain ⟨hleft, hright⟩ := ih hrest
          refine ⟨IsUtf8.append (@isUtf8_byte x ?_) hleft, hright⟩
          rw [hx, UInt8.toNat_ofNat_of_lt' (show c.toNat < 256 by omega)]
          exact hascii
      · -- The bytes of the character are before the ASCII byte, or it is one of them.
        rcases List.append_eq_append_iff.1 h with ⟨middle, hxs, htail⟩ | ⟨middle, hxs, htail⟩
        · cases middle with
          | nil =>
            rw [List.append_nil] at hxs
            refine ⟨⟨[c], ?_⟩, ?_⟩
            · rw [List.flatMap_singleton, hxs]
            · rw [List.nil_append] at htail
              obtain ⟨-, hright⟩ := @ih [] htail
              exact hright
          | cons first middle =>
            have hfirst := (List.cons.inj htail).1
            have := hc first (hxs ▸ List.mem_append_right _ List.mem_cons_self)
            rw [← hfirst] at this
            omega
        · obtain ⟨hleft, hright⟩ := ih htail.symm
          refine ⟨?_, hright⟩
          rw [hxs]
          exact IsUtf8.append ⟨[c], (List.flatMap_singleton _ _).symm⟩ hleft
  · rintro ⟨hxs, hys⟩
    exact hxs.append ((isUtf8_byte hbyte).append hys)

theorem isUtf8_ascii {piece : List UInt8} (h : ∀ byte ∈ piece, byte.toNat < 0x80) :
    IsUtf8 piece := by
  induction piece with
  | nil => exact IsUtf8.nil
  | cons byte rest ih =>
    rw [List.forall_mem_cons] at h
    exact (isUtf8_byte h.1).append (ih h.2)

theorem isUtf8_cut_piece {xs piece ys : List UInt8} (hne : piece ≠ [])
    (h : ∀ byte ∈ piece, byte.toNat < 0x80) :
    IsUtf8 (xs ++ (piece ++ ys)) ↔ IsUtf8 xs ∧ IsUtf8 ys := by
  obtain ⟨first, rest, rfl⟩ := List.exists_cons_of_ne_nil hne
  rw [List.forall_mem_cons] at h
  rw [List.cons_append, isUtf8_cut h.1]
  refine and_congr_right fun _ => ?_
  constructor
  · intro hrest
    cases rest with
    | nil => exact hrest
    | cons second rest =>
      have hlast := List.dropLast_append_getLast (List.cons_ne_nil second rest)
      rw [← hlast, List.append_assoc] at hrest
      exact ((isUtf8_cut (h.2 _ (List.getLast_mem _))).1 hrest).2
  · exact fun hys => (isUtf8_ascii h.2).append hys

/-! ### Escapes -/

/-- An escape is ASCII, and what is not escaped stays. -/
theorem escapeByte_cases (byte : UInt8) :
    (byte.toNat < 0x80 ∧ escapeByte byte ≠ [] ∧ ∀ b ∈ escapeByte byte, b.toNat < 0x80) ∨
      escapeByte byte = [byte] := by
  -- the bytes of an escape are checked as a list, not for every byte there is
  have hall : ∀ n < 256, (let byte := UInt8.ofNat n
      (byte.toNat < 0x80 ∧ escapeByte byte ≠ [] ∧
        (escapeByte byte).all (fun b => b.toNat < 0x80) = true) ∨
          escapeByte byte = [byte]) := by decide +kernel
  have hbyte := hall byte.toNat byte.toNat_lt
  rw [UInt8.ofNat_toNat] at hbyte
  refine hbyte.imp (fun h => ⟨h.1, h.2.1, fun b hb => ?_⟩) id
  exact of_decide_eq_true (List.all_eq_true.1 h.2.2 b hb)

/-- An escaped string is UTF-8 exactly when the string is. -/
theorem isUtf8_jsonEscape {value : List UInt8} : IsUtf8 (jsonEscape value) ↔ IsUtf8 value := by
  have hgeneral : ∀ (value xs : List UInt8), IsUtf8 (xs ++ jsonEscape value) ↔ IsUtf8 (xs ++ value) := by
    intro value
    induction value with
    | nil => exact fun xs => Iff.rfl
    | cons byte rest ih =>
      intro xs
      rw [jsonEscape, List.flatMap_cons]
      rcases escapeByte_cases byte with ⟨hbyte, hne, hascii⟩ | hsame
      · rw [isUtf8_cut_piece hne hascii, isUtf8_cut hbyte]
        exact and_congr_right fun _ => ih []
      · have hmove := ih (xs ++ [byte])
        rw [List.append_assoc, List.append_assoc] at hmove
        rw [hsame]
        exact hmove
  exact hgeneral value []

/-- The character as `json_escape` writes it. -/
def escapeChar (c : Char) : LiteralChar :=
  if hquote : c = '"' then .short .quote
  else if hbackslash : c = '\\' then .short .backslash
  else if c = '\x08' then .short .backspace
  else if c = '\x0c' then .short .formFeed
  else if c = '\n' then .short .newline
  else if c = '\r' then .short .carriageReturn
  else if c = '\t' then .short .tab
  else if hlow : c.toNat < 0x20 then .unicode c (by omega) fun _ => false
  else .raw c ⟨by omega, hquote, hbackslash⟩

theorem escapeChar_meaning (c : Char) : (escapeChar c).meaning = c := by
  unfold escapeChar
  split_ifs <;> simp_all [LiteralChar.meaning, ShortEscape.meaning]

theorem escapeChar_bytes (c : Char) :
    (escapeChar c).bytes = (String.utf8EncodeChar c).flatMap escapeByte := by
  rcases utf8EncodeChar_cases c with ⟨hascii, -⟩ | ⟨hhigh, hbytes⟩
  · have hall : ∀ n < 0x80, (escapeChar (Char.ofNat n)).bytes =
        (String.utf8EncodeChar (Char.ofNat n)).flatMap escapeByte := by decide +kernel
    have hc := hall c.toNat hascii
    rwa [Char.ofNat_toNat] at hc
  · have hraw : (escapeChar c).bytes = String.utf8EncodeChar c := by
      have hne : ∀ d : Char, d.toNat < 0x80 → c ≠ d := by
        rintro d hd rfl
        omega
      unfold escapeChar
      rw [dif_neg (hne _ (by decide)), dif_neg (hne _ (by decide)), if_neg (hne _ (by decide)),
        if_neg (hne _ (by decide)), if_neg (hne _ (by decide)), if_neg (hne _ (by decide)),
        if_neg (hne _ (by decide)), dif_neg (by omega)]
      rfl
    have hsame : ∀ byte ∈ String.utf8EncodeChar c, escapeByte byte = [byte] := by
      intro byte hmem
      have := hbytes byte hmem
      rcases escapeByte_cases byte with ⟨hlow, -⟩ | hsame
      · omega
      · exact hsame
    rw [hraw]
    refine (List.flatMap_singleton' _).symm.trans ?_
    exact List.flatMap_congr fun byte hmem => (hsame byte hmem).symm

/-- The characters of an escaped string. -/
def escapeChars (chars : List Char) : List LiteralChar := chars.map escapeChar

theorem escapeChars_bytes (chars : List Char) :
    (escapeChars chars).flatMap LiteralChar.bytes =
      jsonEscape (chars.flatMap String.utf8EncodeChar) := by
  induction chars with
  | nil => rfl
  | cons c rest ih =>
    rw [escapeChars, List.map_cons, List.flatMap_cons, List.flatMap_cons, jsonEscape,
      List.flatMap_append, escapeChar_bytes]
    exact congrArg _ ih

theorem escapeChars_meaning (chars : List Char) :
    (escapeChars chars).map LiteralChar.meaning = chars := by
  rw [escapeChars, List.map_map]
  refine (List.map_congr_left ?_).trans (List.map_id _)
  exact fun c _ => escapeChar_meaning c

/-! ### Values -/

/-- A JSON value; the numbers are the natural ones. -/
inductive JsonValue
  | null
  | number (value : Nat)
  | string (literal : List LiteralChar)
  | array (items : List JsonValue)
  | object (members : List (List LiteralChar × JsonValue))

namespace JsonValue

mutual

/-- The text of a value, without white space. -/
def bytes : JsonValue → List UInt8
  | null => utf8 "null"
  | number value => utf8 (toString value)
  | string literal => quoted (literal.flatMap LiteralChar.bytes)
  | array items => 0x5b :: (itemsBytes items ++ [0x5d])
  | object members => 0x7b :: (membersBytes members ++ [0x7d])

/-- The items of an array. -/
def itemsBytes : List JsonValue → List UInt8
  | [] => []
  | [item] => item.bytes
  | item :: rest => item.bytes ++ 0x2c :: itemsBytes rest

/-- The members of an object. -/
def membersBytes : List (List LiteralChar × JsonValue) → List UInt8
  | [] => []
  | [(key, value)] => quoted (key.flatMap LiteralChar.bytes) ++ 0x3a :: value.bytes
  | (key, value) :: rest =>
      quoted (key.flatMap LiteralChar.bytes) ++ 0x3a :: value.bytes ++ 0x2c :: membersBytes rest

end

/-- The member of an object. -/
def member? (name : String) : JsonValue → Option JsonValue
  | object members =>
      (members.find? fun pair => pair.1.map LiteralChar.meaning == name.toList).map Prod.snd
  | _ => none

/-- The item of an array. -/
def item? (index : Nat) : JsonValue → Option JsonValue
  | array items => items[index]?
  | _ => none

/-- The bytes of the characters of a string. -/
def text? : JsonValue → Option (List UInt8)
  | string literal => some ((literal.map LiteralChar.meaning).flatMap String.utf8EncodeChar)
  | _ => none

end JsonValue

end VBuf.Compat
