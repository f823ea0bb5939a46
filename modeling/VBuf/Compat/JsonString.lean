import VBuf.Tokenizer.ByteAlphabet

/-!
# JSON strings of the server

`json_string` decodes one escape after the other, so the two escapes of a
supplementary character become the bytes of two surrogates.  Everything else, and
what `json_escape` writes, is read back as it was meant.
-/

namespace VBuf.Compat

open VBuf.Lib VBuf.Tokenizer

/-- The value of a digit, in either case. -/
def hexDigit? (digit : UInt8) : Option Nat :=
  let value := digit.toNat
  if 0x30 ≤ value ∧ value ≤ 0x39 then some (value - 0x30)
  else if 0x61 ≤ value ∧ value ≤ 0x66 then some (value - 0x61 + 10)
  else if 0x41 ≤ value ∧ value ≤ 0x46 then some (value - 0x41 + 10)
  else none

/-- The byte of an escape of one letter. -/
def shortEscape? (escaped : UInt8) : Option UInt8 :=
  match escaped with
  | 0x22 => some 0x22
  | 0x5c => some 0x5c
  | 0x2f => some 0x2f
  | 0x62 => some 0x08
  | 0x66 => some 0x0c
  | 0x6e => some 0x0a
  | 0x72 => some 0x0d
  | 0x74 => some 0x09
  | _ => none

/-- The loop of `json_string`, over the bytes from the cursor on. -/
def jsonStringLoop : List UInt8 → Nat → List UInt8 → Except String (List UInt8 × Nat)
  | [], _, _ => .error "unterminated JSON string"
  | byte :: rest, cursor, output =>
      if byte = 0x22 then .ok (output, cursor + 1)
      else if byte ≠ 0x5c then jsonStringLoop rest (cursor + 1) (output ++ [byte])
      else
        match rest with
        | [] => .error "unterminated JSON escape"
        | escaped :: rest =>
            if escaped = 0x75 then
              match rest with
              | first :: second :: third :: fourth :: rest =>
                  match hexDigit? first, hexDigit? second, hexDigit? third, hexDigit? fourth with
                  | some a, some b, some c, some d =>
                      jsonStringLoop rest (cursor + 6)
                        (output ++ appendUtf8 (((a * 16 + b) * 16 + c) * 16 + d))
                  | _, _, _, _ => .error "invalid JSON unicode escape"
              | _ => .error "short JSON unicode escape"
            else
              match shortEscape? escaped with
              | some byte => jsonStringLoop rest (cursor + 2) (output ++ [byte])
              | none => .error "unsupported JSON escape"

/-- `json_string`: the string, and the cursor behind its closing quote. -/
def jsonString (body : List UInt8) (cursor : Nat) : Except String (List UInt8 × Nat) :=
  match body.drop cursor with
  | 0x22 :: rest => jsonStringLoop rest (cursor + 1) []
  | _ => .error "expected JSON string"

/-- A digit, as `std::hex` writes it. -/
def hexByte (value : Nat) : UInt8 :=
  if value < 10 then UInt8.ofNat (0x30 + value) else UInt8.ofNat (0x61 + (value - 10))

/-- What `json_escape` writes for a byte. -/
def escapeByte (byte : UInt8) : List UInt8 :=
  match byte with
  | 0x22 => [0x5c, 0x22]
  | 0x5c => [0x5c, 0x5c]
  | 0x08 => [0x5c, 0x62]
  | 0x0c => [0x5c, 0x66]
  | 0x0a => [0x5c, 0x6e]
  | 0x0d => [0x5c, 0x72]
  | 0x09 => [0x5c, 0x74]
  | byte =>
      if byte < 0x20 then
        [0x5c, 0x75, 0x30, 0x30, hexByte (byte.toNat / 16), hexByte (byte.toNat % 16)]
      else [byte]

/-- `json_escape`. -/
def jsonEscape (value : List UInt8) : List UInt8 := value.flatMap escapeByte

/-- A string between quotes. -/
def quoted (content : List UInt8) : List UInt8 := 0x22 :: (content ++ [0x22])

/-! ### Literals -/

inductive ShortEscape
  | quote
  | backslash
  | slash
  | backspace
  | formFeed
  | newline
  | carriageReturn
  | tab
  deriving DecidableEq, Repr

namespace ShortEscape

/-- The letter behind the backslash. -/
def letter : ShortEscape → UInt8
  | quote => 0x22
  | backslash => 0x5c
  | slash => 0x2f
  | backspace => 0x62
  | formFeed => 0x66
  | newline => 0x6e
  | carriageReturn => 0x72
  | tab => 0x74

/-- The character that the escape stands for. -/
def meaning : ShortEscape → Char
  | quote => '"'
  | backslash => '\\'
  | slash => '/'
  | backspace => '\x08'
  | formFeed => '\x0c'
  | newline => '\n'
  | carriageReturn => '\r'
  | tab => '\t'

end ShortEscape

/-- A digit of an escape, in one of its cases. -/
def casedHex (value : Nat) (upper : Bool) : UInt8 :=
  if value < 10 then UInt8.ofNat (0x30 + value)
  else if upper = true then UInt8.ofNat (0x41 + (value - 10))
  else UInt8.ofNat (0x61 + (value - 10))

/-- The escape of a code unit; every digit has a case of its own. -/
def unicodeEscape (unit : Nat) (upper : Fin 4 → Bool) : List UInt8 :=
  [0x5c, 0x75, casedHex (unit / 4096 % 16) (upper 0), casedHex (unit / 256 % 16) (upper 1),
    casedHex (unit / 16 % 16) (upper 2), casedHex (unit % 16) (upper 3)]

/-- A character that may stand in a literal as it is. -/
structure IsRaw (c : Char) : Prop where
  printable : 0x20 ≤ c.toNat
  ne_quote : c ≠ '"'
  ne_backslash : c ≠ '\\'

/-- A character of a literal, with the way in which it is written. -/
inductive LiteralChar
  | raw (c : Char) (h : IsRaw c)
  | short (escape : ShortEscape)
  | unicode (c : Char) (h : c.toNat < 0x10000) (upper : Fin 4 → Bool)
  | surrogates (c : Char) (h : 0x10000 ≤ c.toNat) (upperHigh upperLow : Fin 4 → Bool)

namespace LiteralChar

/-- The high surrogate of a supplementary character. -/
def highSurrogate (c : Char) : Nat := 0xd800 + (c.toNat - 0x10000) / 1024

/-- The low surrogate of a supplementary character. -/
def lowSurrogate (c : Char) : Nat := 0xdc00 + (c.toNat - 0x10000) % 1024

/-- The character that is meant. -/
def meaning : LiteralChar → Char
  | raw c _ => c
  | short escape => escape.meaning
  | unicode c _ _ => c
  | surrogates c _ _ _ => c

/-- The bytes that are written. -/
def bytes : LiteralChar → List UInt8
  | raw c _ => String.utf8EncodeChar c
  | short escape => [0x5c, escape.letter]
  | unicode c _ upper => unicodeEscape c.toNat upper
  | surrogates c _ upperHigh upperLow =>
      unicodeEscape (highSurrogate c) upperHigh ++ unicodeEscape (lowSurrogate c) upperLow

/-- The bytes that `json_string` makes of it. -/
def decoded : LiteralChar → List UInt8
  | surrogates c _ _ _ => appendUtf8 (highSurrogate c) ++ appendUtf8 (lowSurrogate c)
  | other => String.utf8EncodeChar other.meaning

/-- The character is written as two escapes. -/
def IsSurrogates : LiteralChar → Prop
  | surrogates .. => True
  | _ => False

end LiteralChar

/-! ### Reading -/

/-- The loop reads a piece and adds to its output. -/
def ReadsAs (piece out : List UInt8) : Prop :=
  ∀ rest cursor output, jsonStringLoop (piece ++ rest) cursor output =
    jsonStringLoop rest (cursor + piece.length) (output ++ out)

theorem ReadsAs.nil : ReadsAs [] [] := by
  intro rest cursor output
  simp

theorem ReadsAs.append {first second out out' : List UInt8} (h : ReadsAs first out)
    (h' : ReadsAs second out') : ReadsAs (first ++ second) (out ++ out') := by
  intro rest cursor output
  rw [List.append_assoc, h, h', List.length_append, Nat.add_assoc, List.append_assoc]

theorem ReadsAs.flatMap {α : Type} {piece out : α → List UInt8} {items : List α}
    (h : ∀ item ∈ items, ReadsAs (piece item) (out item)) :
    ReadsAs (items.flatMap piece) (items.flatMap out) := by
  induction items with
  | nil => exact ReadsAs.nil
  | cons item rest ih =>
      rw [List.forall_mem_cons] at h
      rw [List.flatMap_cons, List.flatMap_cons]
      exact h.1.append (ih h.2)

theorem readsAs_byte {byte : UInt8} (hquote : byte ≠ 0x22) (hbackslash : byte ≠ 0x5c) :
    ReadsAs [byte] [byte] := by
  intro rest cursor output
  rw [List.singleton_append, jsonStringLoop.eq_def]
  simp only [if_neg hquote, if_pos hbackslash]
  rfl

theorem readsAs_bytes {piece : List UInt8} (h : ∀ byte ∈ piece, byte ≠ 0x22 ∧ byte ≠ 0x5c) :
    ReadsAs piece piece := by
  have hflat := ReadsAs.flatMap (fun byte hmem => readsAs_byte (h byte hmem).1 (h byte hmem).2)
  rwa [List.flatMap_singleton'] at hflat

theorem readsAs_short {escaped byte : UInt8} (h : shortEscape? escaped = some byte) :
    ReadsAs [0x5c, escaped] [byte] := by
  intro rest cursor output
  have hunicode : escaped ≠ 0x75 := by
    rintro rfl
    cases h
  show jsonStringLoop (0x5c :: escaped :: rest) cursor output = _
  rw [jsonStringLoop.eq_def]
  simp only [if_neg (by decide : ¬ (0x5c : UInt8) = 0x22),
    if_neg (by decide : ¬ (0x5c : UInt8) ≠ 0x5c), if_neg hunicode, h]
  rfl

theorem hexDigit?_casedHex {value : Nat} (h : value < 16) (upper : Bool) :
    hexDigit? (casedHex value upper) = some value := by
  have hall : ∀ value < 16, ∀ upper, hexDigit? (casedHex value upper) = some value := by decide
  exact hall value h upper

theorem readsAs_unicode {unit : Nat} (h : unit < 0x10000) (upper : Fin 4 → Bool) :
    ReadsAs (unicodeEscape unit upper) (appendUtf8 unit) := by
  intro rest cursor output
  have hunit : ((unit / 4096 % 16 * 16 + unit / 256 % 16) * 16 + unit / 16 % 16) * 16 +
      unit % 16 = unit := by omega
  show jsonStringLoop (0x5c :: 0x75 :: _ :: _ :: _ :: _ :: rest) cursor output = _
  rw [jsonStringLoop.eq_def]
  simp only [if_neg (by decide : ¬ (0x5c : UInt8) = 0x22),
    if_neg (by decide : ¬ (0x5c : UInt8) ≠ 0x5c), if_true, hexDigit?_casedHex (Nat.mod_lt _ (by decide : 0 < 16)), hunit]
  rfl

/-- A string whose content is read. -/
theorem jsonString_of_drop {body content out rest : List UInt8} {cursor : Nat}
    (h : ReadsAs content out) (hdrop : body.drop cursor = quoted content ++ rest) :
    jsonString body cursor = .ok (out, cursor + (quoted content).length) := by
  have hparts : body.drop cursor = 0x22 :: (content ++ (0x22 :: rest)) := by
    rw [hdrop, quoted]
    simp
  unfold jsonString
  rw [hparts]
  show jsonStringLoop _ _ _ = _
  rw [h, jsonStringLoop.eq_def, quoted]
  simp only [if_true, List.nil_append, List.length_cons, List.length_append, List.length_nil]
  refine congrArg (fun cursor => Except.ok (out, cursor)) ?_
  omega

theorem jsonString_quoted {content out : List UInt8} (h : ReadsAs content out)
    (before after : List UInt8) :
    jsonString (before ++ quoted content ++ after) before.length =
      .ok (out, before.length + (quoted content).length) :=
  jsonString_of_drop h (by rw [List.append_assoc, List.drop_left])

/-! ### Escaped strings -/

theorem readsAs_escapeByte (byte : UInt8) : ReadsAs (escapeByte byte) [byte] := by
  have hlow : ∀ low : UInt8, low < 0x20 →
      ReadsAs [0x5c, 0x75, 0x30, 0x30, hexByte (low.toNat / 16), hexByte (low.toNat % 16)] [low] := by
    intro low h
    have hlt : low.toNat < 0x20 := UInt8.lt_iff_toNat_lt.1 h
    have hread := @readsAs_unicode low.toNat (by omega) (fun _ => false)
    have hbytes : unicodeEscape low.toNat (fun _ => false) =
        [0x5c, 0x75, 0x30, 0x30, hexByte (low.toNat / 16), hexByte (low.toNat % 16)] := by
      rw [unicodeEscape, show low.toNat / 4096 % 16 = 0 by omega,
        show low.toNat / 256 % 16 = 0 by omega, show low.toNat / 16 % 16 = low.toNat / 16 by omega]
      rfl
    rwa [hbytes, appendUtf8, if_pos (by omega), UInt8.ofNat_toNat] at hread
  unfold escapeByte
  split
  · exact readsAs_short rfl
  · exact readsAs_short rfl
  · exact readsAs_short rfl
  · exact readsAs_short rfl
  · exact readsAs_short rfl
  · exact readsAs_short rfl
  · exact readsAs_short rfl
  · next hquote hbackslash _ _ _ _ _ =>
      split
      · next h => exact hlow byte h
      · exact readsAs_byte hquote hbackslash

/-- What `json_escape` writes is read back. -/
theorem jsonString_jsonEscape (value : List UInt8) :
    jsonString (quoted (jsonEscape value)) 0 =
      .ok (value, (quoted (jsonEscape value)).length) := by
  have hread := ReadsAs.flatMap (fun byte (_ : byte ∈ value) => readsAs_escapeByte byte)
  rw [List.flatMap_singleton'] at hread
  have hstring := jsonString_quoted hread [] []
  rw [List.nil_append, List.append_nil, List.length_nil, Nat.zero_add] at hstring
  exact hstring

/-! ### Literals -/

namespace LiteralChar

theorem ne_of_mem_utf8EncodeChar {c : Char} (h : IsRaw c) :
    ∀ byte ∈ String.utf8EncodeChar c, byte ≠ 0x22 ∧ byte ≠ 0x5c := by
  have hlt := toNat_lt c
  have hhigh : ∀ value : Nat, 0x80 ≤ value → value < 0x100 →
      UInt8.ofNat value ≠ 0x22 ∧ UInt8.ofNat value ≠ 0x5c := by
    intro value hlow hhigh
    rw [Ne, Ne, ← UInt8.toNat_inj, ← UInt8.toNat_inj, UInt8.toNat_ofNat_of_lt' hhigh]
    exact ⟨by simp; omega, by simp; omega⟩
  rw [utf8EncodeChar_eq]
  split
  · -- an ASCII character is its own byte
    next hascii =>
      rw [List.forall_mem_singleton, Ne, Ne, ← UInt8.toNat_inj, ← UInt8.toNat_inj,
        UInt8.toNat_ofNat_of_lt' (show c.toNat < 256 by omega)]
      refine ⟨fun heq => h.ne_quote (Char.ext ?_), fun heq => h.ne_backslash (Char.ext ?_)⟩
      · exact UInt32.toNat_inj.1 heq
      · exact UInt32.toNat_inj.1 heq
  · split
    · simp only [List.forall_mem_cons]
      exact ⟨hhigh _ (by omega) (by omega), hhigh _ (by omega) (by omega), List.forall_mem_nil _⟩
    · split
      · simp only [List.forall_mem_cons]
        exact ⟨hhigh _ (by omega) (by omega), hhigh _ (by omega) (by omega),
          hhigh _ (by omega) (by omega), List.forall_mem_nil _⟩
      · simp only [List.forall_mem_cons]
        exact ⟨hhigh _ (by omega) (by omega), hhigh _ (by omega) (by omega),
          hhigh _ (by omega) (by omega), hhigh _ (by omega) (by omega), List.forall_mem_nil _⟩

/-- A character of a literal is read, whatever way it is written. -/
theorem readsAs (c : LiteralChar) : ReadsAs c.bytes c.decoded := by
  cases c with
  | raw c h => exact readsAs_bytes (ne_of_mem_utf8EncodeChar h)
  | short escape => cases escape <;> exact readsAs_short rfl
  | unicode c h upper =>
      have hread := readsAs_unicode h upper
      rwa [appendUtf8_eq] at hread
  | surrogates c h upperHigh upperLow =>
      have hlt := toNat_lt c
      exact (readsAs_unicode (by rw [highSurrogate]; omega) upperHigh).append
        (readsAs_unicode (by rw [lowSurrogate]; omega) upperLow)

/-- Two surrogates take more bytes than the character they stand for. -/
theorem length_decoded (c : LiteralChar) :
    (String.utf8EncodeChar c.meaning).length ≤ c.decoded.length ∧
      (c.IsSurrogates → (String.utf8EncodeChar c.meaning).length < c.decoded.length) := by
  cases c with
  | raw c h => exact ⟨Nat.le_refl _, False.elim⟩
  | short escape => exact ⟨Nat.le_refl _, False.elim⟩
  | unicode c h upper => exact ⟨Nat.le_refl _, False.elim⟩
  | surrogates c h upperHigh upperLow =>
      have hlt : (String.utf8EncodeChar c).length < 6 := by
        rw [String.length_utf8EncodeChar]
        exact Nat.lt_of_le_of_lt (Char.utf8Size_le_four c) (by decide)
      have hlength : (decoded (surrogates c h upperHigh upperLow)).length = 6 := by
        have hchar := toNat_lt c
        have hthree : ∀ unit, 0xd800 ≤ unit → unit < 0x10000 → (appendUtf8 unit).length = 3 := by
          intro unit hlow hhigh
          rw [appendUtf8, if_neg (by omega), if_neg (by omega), if_pos (by omega)]
          rfl
        rw [decoded, List.length_append, hthree _ (by rw [highSurrogate]; omega)
          (by rw [highSurrogate]; omega), hthree _ (by rw [lowSurrogate]; omega)
          (by rw [lowSurrogate]; omega)]
      rw [hlength]
      exact ⟨Nat.le_of_lt hlt, fun _ => hlt⟩

theorem decoded_of_not_surrogates {c : LiteralChar} (h : ¬ c.IsSurrogates) :
    c.decoded = String.utf8EncodeChar c.meaning := by
  cases c with
  | surrogates c hc upperHigh upperLow => exact absurd trivial h
  | _ => rfl

/-- The bytes of a literal are those of its characters exactly when no character is
written with surrogates. -/
theorem flatMap_decoded_eq_iff (literal : List LiteralChar) :
    literal.flatMap decoded = (literal.map meaning).flatMap String.utf8EncodeChar ↔
      ∀ c ∈ literal, ¬ c.IsSurrogates := by
  have hle : ∀ literal : List LiteralChar,
      ((literal.map meaning).flatMap String.utf8EncodeChar).length ≤
        (literal.flatMap decoded).length := by
    intro literal
    induction literal with
    | nil => exact Nat.le_refl 0
    | cons c rest ih =>
        rw [List.map_cons, List.flatMap_cons, List.flatMap_cons, List.length_append,
          List.length_append]
        exact Nat.add_le_add c.length_decoded.1 ih
  constructor
  · intro heq
    induction literal with
    | nil => exact List.forall_mem_nil _
    | cons c rest ih =>
        rw [List.map_cons, List.flatMap_cons, List.flatMap_cons] at heq
        have htotal := congrArg List.length heq
        rw [List.length_append, List.length_append] at htotal
        have hrest := hle rest
        have hfirst := c.length_decoded
        have hnot : ¬ c.IsSurrogates := by
          intro hsurrogates
          have hlt := hfirst.2 hsurrogates
          omega
        rw [decoded_of_not_surrogates hnot] at heq
        exact List.forall_mem_cons.2 ⟨hnot, ih (List.append_cancel_left heq)⟩
  · intro h
    induction literal with
    | nil => rfl
    | cons c rest ih =>
        rw [List.forall_mem_cons] at h
        rw [List.map_cons, List.flatMap_cons, List.flatMap_cons, decoded_of_not_surrogates h.1,
          ih h.2]

end LiteralChar

/-- Every literal is read to its closing quote. -/
theorem jsonString_literal (before after : List UInt8) (literal : List LiteralChar) :
    jsonString (before ++ quoted (literal.flatMap LiteralChar.bytes) ++ after) before.length =
      .ok (literal.flatMap LiteralChar.decoded,
        before.length + (quoted (literal.flatMap LiteralChar.bytes)).length) :=
  jsonString_quoted (ReadsAs.flatMap (fun c _ => c.readsAs)) before after

/-- A literal is read as the text that it means, and escaped strings are read back,
exactly when no character of the literal is written with surrogates. -/
theorem jsonString_eq_meaning_iff (before after : List UInt8) (literal : List LiteralChar)
    (value : List UInt8) :
    (jsonString (before ++ quoted (literal.flatMap LiteralChar.bytes) ++ after) before.length =
        .ok (utf8 (String.ofList (literal.map LiteralChar.meaning)),
          before.length + (quoted (literal.flatMap LiteralChar.bytes)).length) ∧
      jsonString (quoted (jsonEscape value)) 0 =
        .ok (value, (quoted (jsonEscape value)).length)) ↔
      ∀ c ∈ literal, ¬ c.IsSurrogates := by
  rw [jsonString_literal, utf8_eq_flatMap, String.toList_ofList,
    ← LiteralChar.flatMap_decoded_eq_iff, Except.ok.injEq, Prod.mk.injEq]
  constructor
  · intro h
    exact h.1.1
  · intro h
    exact ⟨⟨h, rfl⟩, jsonString_jsonEscape value⟩

/-- The escapes of a supplementary character are read as two surrogates. -/
theorem jsonString_supplementary :
    jsonString (utf8 "\"\\ud83d\\ude00\"") 0 =
        .ok ([0xed, 0xa0, 0xbd, 0xed, 0xb8, 0x80], 14) ∧
      jsonString (utf8 "\"\\ud83d\\ude00\"") 0 ≠
        .ok (utf8 (String.singleton (Char.ofNat 0x1f600)), 14) := by
  decide +kernel

end VBuf.Compat
