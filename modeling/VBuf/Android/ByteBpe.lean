import VBuf.Lib.MergeRuns
import VBuf.Tokenizer.RoundTrip

/-!
# The tokenizer of the Android chat

`ByteBpeTokenizer` merges the texts of symbols, and decodes a token character by
character.  Its reverse map knows only the bytes without a character of their own, so
a byte from 161 on comes back as the two bytes of its character.
-/

namespace VBuf.Android

open VBuf.Lib VBuf.Tokenizer

/-- `utf8_codepoint`, which is the same function as `append_utf8` of the server. -/
def utf8Codepoint (codepoint : Nat) : List UInt8 := appendUtf8 codepoint

/-- `read_codepoint`, at the first of some bytes: the code point and what is behind
it.  The bits that are joined do not overlap. -/
def readCodepoint (first : UInt8) (rest : List UInt8) : Nat × List UInt8 :=
  let value := first.toNat
  let bits := fun index => (rest.getD index 0).toNat % 64
  if value < 0x80 then (value, rest)
  else if value / 32 = 6 ∧ 1 ≤ rest.length then (value % 32 * 64 + bits 0, rest.drop 1)
  else if value / 16 = 14 ∧ 2 ≤ rest.length then
    (value % 16 * 4096 + bits 0 * 64 + bits 1, rest.drop 2)
  else if value / 8 = 30 ∧ 3 ≤ rest.length then
    (value % 8 * 262144 + bits 0 * 4096 + bits 1 * 64 + bits 2, rest.drop 3)
  else (value, rest)

/-- `byte_symbols_`; the loop of `initialize_byte_map` is that of the server. -/
def byteSymbols (byte : UInt8) : List UInt8 := utf8Codepoint (byteMapping.getD byte.toNat 0)

/-- `unicode_to_byte_`, which only the bytes without a character of their own enter. -/
def unicodeToByte (codepoint : Nat) : Option UInt8 :=
  ((List.range 256).find? (fun value =>
    !directBytes.contains value && byteMapping.getD value 0 == codepoint)).map UInt8.ofNat

/-- `ByteBpeTokenizer`; the maps are those of its tables. -/
structure ByteBpeTokenizer where
  tokens : List (List UInt8)
  merges : List (UInt32 × UInt32)
  bos : Option UInt32
  addBos : Bool

namespace ByteBpeTokenizer

/-- The constructor, from validated metadata. -/
def ofMetadata (metadata : TokenizerMetadata) : ByteBpeTokenizer where
  tokens := metadata.tokenBytes
  merges := metadata.merges
  bos := metadata.bos
  addBos := metadata.addBos.getD false

variable (tokenizer : ByteBpeTokenizer)

/-- `token_ids_`. -/
def tokenId (symbol : List UInt8) : Option UInt32 := tokenIndex tokenizer.tokens symbol

/-- The lookup in `merge_ranks_`: entry `i` of the table has the rank `i / 2`. -/
def rank (left right : List UInt8) : Option Nat :=
  match tokenizer.tokenId left, tokenizer.tokenId right with
  | some left, some right => (mergeRank tokenizer.merges left right).map (· / 2)
  | _, _ => none

/-- The scan for the best pair, unless there is none. -/
def bestPair (symbols : List (List UInt8)) : Option Nat :=
  let best := (scanMin (pairRank tokenizer.rank symbols) symbols.length (2 ^ 32 - 1)
    (symbols.length - 1)).1
  if best = symbols.length then none else some best

/-- The merge loop; two texts can always be joined. -/
def mergeSymbols (symbols : List (List UInt8)) : Except String (List (List UInt8)) :=
  mergeLoop tokenizer.bestPair (fun left right => some (left ++ right))
    (fun _ _ => "unreachable")
    symbols.length symbols

/-- The leading token of `encode`. -/
def leading : List UInt32 := if tokenizer.addBos = true then tokenizer.bos.toList else []

/-- `encode`. -/
def encode (text : List UInt8) : Except String (List UInt32) := do
  let symbols ← tokenizer.mergeSymbols (text.map byteSymbols)
  let ids ← symbols.mapM fun symbol =>
    okOr (tokenizer.tokenId symbol) "prompt has no tokenizer coverage"
  .ok (tokenizer.leading ++ ids)

/-- The loop of `decode` over a token text. -/
def decodeText : Nat → List UInt8 → List UInt8
  | 0, _ => []
  | _ + 1, [] => []
  | fuel + 1, first :: rest =>
      let read := readCodepoint first rest
      (match unicodeToByte read.1 with
        | some byte => [byte]
        | none => utf8Codepoint read.1) ++ decodeText fuel read.2

/-- `decode`. -/
def decode (token : UInt32) : List UInt8 :=
  match tokenizer.tokens[token.toNat]? with
  | none => []
  | some piece => decodeText piece.length piece

/-! ### Merging -/

variable {tokenizer}

theorem bestPair_eq (hmerges : tokenizer.merges.length ≤ 10000000)
    (symbols : List (List UInt8)) :
    tokenizer.bestPair symbols =
      (leftmostMin (pairRank tokenizer.rank symbols) (symbols.length - 1)).map Prod.fst := by
  refine scanMin_position ?_
  intro position r h
  unfold pairRank at h
  split at h
  · unfold rank at h
    split at h
    · obtain ⟨index, hindex, rfl⟩ := Option.map_eq_some_iff.1 h
      have hlt := mergeRank_lt hindex
      omega
    · cases h
  · cases h

/-- The tokens behind the leading one are those of a reduction of the symbols. -/
theorem encode_eq_ok_iff (hmerges : tokenizer.merges.length ≤ 10000000) (text : List UInt8)
    (ids : List UInt32) :
    tokenizer.encode text = .ok ids ↔ ∃ symbols rest,
      Reduces tokenizer.rank (fun left right => some (left ++ right)) (text.map byteSymbols)
        symbols ∧
      List.Forall₂ (fun symbol id => tokenizer.tokenId symbol = some id) symbols rest ∧
      ids = tokenizer.leading ++ rest := by
  simp only [encode, mergeSymbols, bind_eq_ok_iff,
    mergeLoop_eq_ok_iff (bestPair_eq hmerges) _ _ _ (Nat.le_succ _), mapM_eq_ok_iff,
    okOr_eq_ok_iff, Except.ok.injEq]
  constructor
  · rintro ⟨symbols, hreduces, rest, hrest, rfl⟩
    exact ⟨symbols, rest, hreduces, hrest, rfl⟩
  · rintro ⟨symbols, rest, hreduces, hrest, rfl⟩
    exact ⟨symbols, hreduces, rest, hrest, rfl⟩

/-! ### Decoding -/

end ByteBpeTokenizer

theorem byteSymbols_eq (byte : UInt8) : byteSymbols byte = byteSymbol byte := by
  unfold byteSymbols utf8Codepoint
  rw [byteMapping_eq, appendUtf8_eq]
  rfl

/-- A character of one byte or two is read back. -/
theorem readCodepoint_encode {c : Char} (hc : c.toNat ≤ 0x7ff) {first : UInt8}
    {tail rest : List UInt8} (h : String.utf8EncodeChar c = first :: tail) :
    readCodepoint first (tail ++ rest) = (c.toNat, rest) := by
  rw [utf8EncodeChar_eq] at h
  by_cases hascii : c.toNat ≤ 0x7f
  · rw [if_pos hascii] at h
    obtain ⟨rfl, rfl⟩ := List.cons.inj h
    have hfirst : (UInt8.ofNat c.toNat).toNat = c.toNat :=
      UInt8.toNat_ofNat_of_lt' (show c.toNat < 256 by omega)
    simp only [readCodepoint, hfirst]
    rw [if_pos (by omega)]
    rfl
  · rw [if_neg hascii, if_pos hc] at h
    obtain ⟨rfl, rfl⟩ := List.cons.inj h
    have hfirst : (UInt8.ofNat (c.toNat / 64 % 0x20 + 0xc0)).toNat = c.toNat / 64 + 0xc0 := by
      rw [UInt8.toNat_ofNat_of_lt' (show c.toNat / 64 % 0x20 + 0xc0 < 256 by omega)]
      omega
    have hsecond : (UInt8.ofNat (c.toNat % 0x40 + 0x80)).toNat = c.toNat % 64 + 0x80 :=
      UInt8.toNat_ofNat_of_lt' (show c.toNat % 0x40 + 0x80 < 256 by omega)
    simp only [readCodepoint, hfirst, List.cons_append, List.nil_append, List.getD_cons_zero,
      hsecond]
    rw [if_neg (by omega), if_pos ⟨by omega, by simp⟩]
    refine Prod.ext ?_ rfl
    show (c.toNat / 64 + 0xc0) % 32 * 64 + (c.toNat % 64 + 0x80) % 64 = c.toNat
    omega

/-- What becomes of a byte: one with a character of its own comes back as the bytes of
that character. -/
def returned (byte : UInt8) : List UInt8 :=
  if isDirectByte byte.toNat = true then appendUtf8 byte.toNat else [byte]

theorem unicodeToByte_byteToUnicode (byte : UInt8) :
    unicodeToByte (Tokenizer.byteToUnicode byte).toNat =
      if isDirectByte byte.toNat = true then none else some byte := by
  have hcongr : (List.range 256).find? (fun value =>
      !directBytes.contains value && byteMapping.getD value 0 == characterOf byte.toNat) =
      (List.range 256).find? (fun value =>
        !isDirectByte value && characterOf value == characterOf byte.toNat) := by
    refine List.find?_congr ?_
    intro value hvalue
    have hlt := List.mem_range.1 hvalue
    rw [contains_directBytes hlt, byteMapping_getD hlt]
  rw [unicodeToByte, toNat_byteToUnicode, hcongr]
  cases hfind : (List.range 256).find? (fun value =>
      !isDirectByte value && characterOf value == characterOf byte.toNat) with
  | none =>
      have hno := List.find?_eq_none.1 hfind byte.toNat (List.mem_range.2 byte.toNat_lt)
      have hdirect : isDirectByte byte.toNat = true := by simpa using hno
      rw [if_pos hdirect]
      rfl
  | some found =>
      have hlt := List.mem_range.1 (List.mem_of_find?_eq_some hfind)
      have hfound := List.find?_some hfind
      rw [Bool.and_eq_true, Bool.not_eq_true', beq_iff_eq] at hfound
      have hsame := characterOf_injective hlt byte.toNat_lt hfound.2
      subst hsame
      rw [if_neg (by rw [hfound.1]; exact Bool.false_ne_true), Option.map_some, UInt8.ofNat_toNat]

/-- The characters of bytes are decoded one by one. -/
theorem decodeText_flatMap (bytes : List UInt8) (fuel : Nat)
    (hfuel : (bytes.flatMap byteSymbol).length ≤ fuel) :
    ByteBpeTokenizer.decodeText fuel (bytes.flatMap byteSymbol) = bytes.flatMap returned := by
  induction bytes generalizing fuel with
  | nil =>
      cases fuel with
      | zero => rfl
      | succ fuel => rfl
  | cons byte rest ih =>
      have hsymbol := (length_byteSymbol byte).1
      rw [List.flatMap_cons, List.length_append] at hfuel
      obtain ⟨fuel, rfl⟩ := Nat.exists_eq_succ_of_ne_zero (by omega : fuel ≠ 0)
      obtain ⟨first, tail, hfirst⟩ : ∃ first tail, byteSymbol byte = first :: tail :=
        List.exists_cons_of_length_pos hsymbol
      have hchar : (Tokenizer.byteToUnicode byte).toNat ≤ 0x7ff := by
        have hbyte := byte.toNat_lt
        have hextra := extra_le hbyte
        rw [toNat_byteToUnicode, characterOf]
        split <;> omega
      have hread := @readCodepoint_encode _ hchar first tail (rest.flatMap byteSymbol) hfirst
      rw [List.flatMap_cons, List.flatMap_cons, hfirst, List.cons_append,
        ByteBpeTokenizer.decodeText]
      simp only [hread, unicodeToByte_byteToUnicode]
      rw [ih fuel (by omega), returned]
      by_cases hdirect : isDirectByte byte.toNat = true
      · rw [if_pos hdirect, if_pos hdirect, toNat_byteToUnicode, characterOf, if_pos hdirect]
        rfl
      · rw [if_neg hdirect, if_neg hdirect]

/-- A byte comes back alone unless it has a character of its own beyond ASCII. -/
theorem length_returned (byte : UInt8) :
    returned byte = [byte] ∧ ¬ (0xa1 ≤ byte.toNat ∧ byte.toNat ≠ 0xad) ∨
      2 ≤ (returned byte).length ∧ 0xa1 ≤ byte.toNat ∧ byte.toNat ≠ 0xad := by
  have hbyte := byte.toNat_lt
  have hdirect : isDirectByte byte.toNat = true → byte.toNat < 0x80 ∨
      0xa1 ≤ byte.toNat ∧ byte.toNat ≠ 0xad := by
    simp only [isDirectByte, Bool.or_eq_true, Bool.and_eq_true, decide_eq_true_eq]
    omega
  have hback : 0xa1 ≤ byte.toNat ∧ byte.toNat ≠ 0xad → isDirectByte byte.toNat = true := by
    simp only [isDirectByte, Bool.or_eq_true, Bool.and_eq_true, decide_eq_true_eq]
    omega
  unfold returned
  by_cases hown : isDirectByte byte.toNat = true
  · rw [if_pos hown]
    rcases hdirect hown with hascii | hhigh
    · left
      rw [appendUtf8, if_pos (by omega), UInt8.ofNat_toNat]
      exact ⟨rfl, by omega⟩
    · right
      rw [appendUtf8, if_neg (by omega), if_pos (by omega)]
      exact ⟨Nat.le_refl 2, hhigh⟩
  · rw [if_neg hown]
    exact Or.inl ⟨rfl, fun hhigh => hown (hback hhigh)⟩

theorem flatMap_returned_eq_iff (text : List UInt8) :
    text.flatMap returned = text ↔ ∀ byte ∈ text, ¬ (0xa1 ≤ byte.toNat ∧ byte.toNat ≠ 0xad) := by
  have hle : ∀ text : List UInt8, text.length ≤ (text.flatMap returned).length := by
    intro text
    induction text with
    | nil => exact Nat.le_refl 0
    | cons byte rest ih =>
        rw [List.flatMap_cons, List.length_append, List.length_cons]
        rcases length_returned byte with ⟨hsame, -⟩ | ⟨htwo, -⟩
        · rw [hsame, List.length_singleton]
          omega
        · omega
  induction text with
  | nil => simp
  | cons byte rest ih =>
      rw [List.flatMap_cons, List.forall_mem_cons]
      rcases length_returned byte with ⟨hsame, hlow⟩ | ⟨htwo, hhigh⟩
      · rw [hsame, List.singleton_append, List.cons.injEq]
        exact ⟨fun h => ⟨hlow, ih.1 h.2⟩, fun h => ⟨rfl, ih.2 h.2⟩⟩
      · refine iff_of_false ?_ (fun h => h.1 hhigh)
        intro heq
        have hlength := congrArg List.length heq
        have hrest := hle rest
        rw [List.length_append, List.length_cons] at hlength
        omega

/-- The bytes of a text are below 161, or 173, exactly when the text is ASCII. -/
theorem utf8_low_iff (text : String) :
    (∀ byte ∈ utf8 text, ¬ (0xa1 ≤ byte.toNat ∧ byte.toNat ≠ 0xad)) ↔
      ∀ c ∈ text.toList, c.toNat < 128 := by
  rw [utf8_eq_flatMap]
  simp only [List.mem_flatMap, forall_exists_index, and_imp]
  constructor
  · intro h c hc
    by_contra hhigh
    -- the first byte of another character is at least 192
    have hlt := toNat_lt c
    have hfirst : ∃ byte ∈ String.utf8EncodeChar c, 0xc0 ≤ byte.toNat := by
      have hbyte : ∀ value : Nat, 0xc0 ≤ value → value < 256 →
          0xc0 ≤ (UInt8.ofNat value).toNat := by
        intro value hlow hvalue
        rwa [UInt8.toNat_ofNat_of_lt' hvalue]
      rw [utf8EncodeChar_eq, if_neg (by omega)]
      split
      · exact ⟨_, List.mem_cons_self, hbyte _ (by omega) (by omega)⟩
      · split
        · exact ⟨_, List.mem_cons_self, hbyte _ (by omega) (by omega)⟩
        · exact ⟨_, List.mem_cons_self, hbyte _ (by omega) (by omega)⟩
    obtain ⟨byte, hmem, hlow⟩ := hfirst
    exact h byte c hc hmem ⟨by omega, by omega⟩
  · intro h byte c hc hmem
    have hascii := h c hc
    rw [utf8EncodeChar_eq, if_pos (by omega), List.mem_singleton] at hmem
    rw [hmem, UInt8.toNat_ofNat_of_lt' (show c.toNat < 256 by omega)]
    omega

namespace ByteBpeTokenizer

variable {tokenizer : ByteBpeTokenizer}

/-- A token of a symbol is decoded as the bytes of the symbol come back. -/
theorem decode_tokenId (hcount : tokenizer.tokens.length < 2 ^ 32) {bytes : List UInt8}
    {id : UInt32} (h : tokenizer.tokenId (bytes.flatMap byteSymbol) = some id) :
    tokenizer.decode id = bytes.flatMap returned := by
  rw [decode, tokenIndex_eq hcount h]
  exact decodeText_flatMap bytes _ (Nat.le_refl _)

/-- Whatever was merged, every byte comes back on its own. -/
theorem decode_encode (hcount : tokenizer.tokens.length < 2 ^ 32)
    (hmerges : tokenizer.merges.length ≤ 10000000) {text : List UInt8} {ids : List UInt32}
    (h : tokenizer.encode text = .ok ids) :
    (ids.drop tokenizer.leading.length).flatMap tokenizer.decode = text.flatMap returned := by
  obtain ⟨symbols, rest, hreduces, hrest, rfl⟩ := (encode_eq_ok_iff hmerges text ids).1 h
  have hstart : text.map byteSymbols =
      (text.map fun byte => [byte]).map (fun segment => segment.flatMap byteSymbol) := by
    rw [List.map_map]
    apply List.map_congr_left
    intro byte _
    simp [byteSymbols_eq]
  obtain ⟨segments, hflatten, rfl⟩ := hreduces.exists_segments
    (fun a b c hc => (Option.some.inj hc).symm) hstart
  have htext : segments.flatten = text := by
    rw [hflatten, ← List.flatMap_def, List.flatMap_singleton']
  have hdecoded : ∀ {segments : List (List UInt8)} {rest : List UInt32},
      List.Forall₂ (fun symbol id => tokenizer.tokenId symbol = some id)
        (segments.map (fun segment => segment.flatMap byteSymbol)) rest →
      rest.flatMap tokenizer.decode = segments.flatten.flatMap returned := by
    intro segments
    induction segments with
    | nil =>
        intro rest hrest
        cases hrest
        rfl
    | cons segment segments ih =>
        intro rest hrest
        cases hrest with
        | cons hid hrest =>
            rw [List.flatMap_cons, decode_tokenId hcount hid, ih hrest, List.flatten_cons,
              List.flatMap_append]
  rw [List.drop_left, hdecoded hrest, htext]

/-- The tokens of a text are decoded to the text exactly when it is ASCII. -/
theorem decode_encode_ascii_iff (metadata : TokenizerMetadata) (text : String) (ids : List UInt32)
    (h : (ofMetadata metadata).encode (utf8 text) = .ok ids) :
    (ids.drop (ofMetadata metadata).leading.length).flatMap (ofMetadata metadata).decode =
      utf8 text ↔ ∀ c ∈ text.toList, c.toNat < 128 := by
  have hcount : (ofMetadata metadata).tokens.length < 2 ^ 32 := metadata.tokenBytes_length_lt
  rw [decode_encode hcount metadata.merges_le h, flatMap_returned_eq_iff, utf8_low_iff]

/-- The symbols of a text, without the table of all bytes. -/
theorem encode_byteSymbol (text : List UInt8) :
    tokenizer.encode text = (do
      let symbols ← tokenizer.mergeSymbols (text.map byteSymbol)
      let ids ← symbols.mapM fun symbol =>
        okOr (tokenizer.tokenId symbol) "prompt has no tokenizer coverage"
      .ok (tokenizer.leading ++ ids)) := by
  rw [encode, List.map_congr_left fun byte _ => byteSymbols_eq byte]

end ByteBpeTokenizer

/-! ### A vocabulary of four tokens -/

theorem accentedTexts_length : ∀ text ∈ ["a", "Ã", "©", "aa"], (utf8 text).length ≤ 4096 := by
  decide

theorem accentedTexts_ne_zero : ∀ text ∈ ["a", "Ã", "©", "aa"], ∀ byte ∈ utf8 text, byte ≠ 0 :=
  ne_zero_of_all (by decide)

theorem noIds_lt (texts : List String) : ∀ ids : List UInt32, (none : Option (List UInt32)) =
    some ids → ∀ id ∈ ids, id.toNat < texts.length := by
  intro ids hids
  cases hids

theorem accentedTexts_count : ["a", "Ã", "©", "aa"].length ≤ 10000000 := by
  decide

theorem onePair_le : ([(0, 0)] : List (UInt32 × UInt32)).length ≤ 10000000 := by
  decide

/-- The letter a, the characters of the bytes 195 and 169, and two letters merged. -/
def accentedTokens : TokenizerMetadata where
  kind := .gpt2BpeByteLevel
  hasModel := true
  preTokenizer := some .gpt2ByteLevel
  texts := ["a", "Ã", "©", "aa"]
  merges := [(0, 0)]
  bos := none
  unk := none
  specialIds := none
  addBos := some false
  ignoreMerges := some false
  count_le := accentedTexts_count
  merges_le := onePair_le
  text_length := accentedTexts_length
  text_ne_zero := accentedTexts_ne_zero
  specialIds_lt := noIds_lt _

theorem decode_encode_ascii :
    (ByteBpeTokenizer.ofMetadata accentedTokens).encode (utf8 "aaa") = .ok [3, 0] ∧
      (([3, 0].drop (ByteBpeTokenizer.ofMetadata accentedTokens).leading.length).flatMap
          (ByteBpeTokenizer.ofMetadata accentedTokens).decode = utf8 "aaa" ↔
        ∀ c ∈ "aaa".toList, c.toNat < 128) := by
  have hencode : (ByteBpeTokenizer.ofMetadata accentedTokens).encode (utf8 "aaa") = .ok [3, 0] := by
    rw [ByteBpeTokenizer.encode_byteSymbol]
    decide
  exact ⟨hencode, ByteBpeTokenizer.decode_encode_ascii_iff accentedTokens "aaa" [3, 0] hencode⟩

/-- The two bytes of an accented letter come back as four. -/
theorem decode_encode_accented :
    (ByteBpeTokenizer.ofMetadata accentedTokens).encode (utf8 "é") = .ok [1, 2] ∧
      [1, 2].flatMap (ByteBpeTokenizer.ofMetadata accentedTokens).decode =
        [0xc3, 0x83, 0xc2, 0xa9] ∧
      [1, 2].flatMap (ByteBpeTokenizer.ofMetadata accentedTokens).decode ≠ utf8 "é" := by
  have hcount : (ByteBpeTokenizer.ofMetadata accentedTokens).tokens.length < 2 ^ 32 :=
    accentedTokens.tokenBytes_length_lt
  have hfirst : (ByteBpeTokenizer.ofMetadata accentedTokens).decode 1 = [0xc3].flatMap returned :=
    ByteBpeTokenizer.decode_tokenId hcount (by decide)
  have hsecond : (ByteBpeTokenizer.ofMetadata accentedTokens).decode 2 = [0xa9].flatMap returned :=
    ByteBpeTokenizer.decode_tokenId hcount (by decide)
  have hdecoded : [1, 2].flatMap (ByteBpeTokenizer.ofMetadata accentedTokens).decode =
      [0xc3, 0x83, 0xc2, 0xa9] := by
    rw [List.flatMap_cons, List.flatMap_singleton, hfirst, hsecond]
    decide
  refine ⟨?_, hdecoded, ?_⟩
  · rw [ByteBpeTokenizer.encode_byteSymbol]
    decide
  · rw [hdecoded]
    decide

end VBuf.Android
