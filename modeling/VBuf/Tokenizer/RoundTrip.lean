import VBuf.Tokenizer.Termination

/-!
# Decoding what was encoded

The characters of the tokens of a piece are the characters of its bytes, so decoding
gives the bytes back, unless a token of a piece is special and its text is not ASCII.
-/

namespace VBuf.Tokenizer

open VBuf.Lib

/-! ### The alphabet -/

theorem extra_mono {v w : Nat} (h : v ≤ w) : extra v ≤ extra w := by
  refine monotone_nat_of_le_succ ?_ h
  intro n
  rw [extra_succ]
  split <;> omega

/-- Bytes have characters of their own. -/
theorem characterOf_injective {v w : Nat} (hv : v < 256) (hw : w < 256)
    (h : characterOf v = characterOf w) : v = w := by
  have hlt : ∀ {a b : Nat}, isDirectByte a = false → a < b → extra a < extra b := by
    intro a b ha hab
    have hle := extra_mono hab
    rw [Nat.succ_eq_add_one, extra_succ, ha] at hle
    exact hle
  unfold characterOf at h
  cases hdv : isDirectByte v <;> cases hdw : isDirectByte w <;>
    simp only [hdv, hdw, if_true, Bool.false_eq_true, if_false] at h
  · rcases Nat.lt_trichotomy v w with hvw | heq | hwv
    · have := hlt hdv hvw
      omega
    · exact heq
    · have := hlt hdw hwv
      omega
  · omega
  · omega
  · exact h

/-- The byte of the character of a byte. -/
theorem unicodeToByte_byteToUnicode (byte : UInt8) :
    unicodeToByte (byteToUnicode byte) = some byte := by
  rw [← reverseByte_eq, toNat_byteToUnicode, reverseByte_eq_find?]
  cases hfind : (List.range 256).find? (fun v => characterOf v == characterOf byte.toNat) with
  | none =>
      have hno := List.find?_eq_none.1 hfind byte.toNat (List.mem_range.2 byte.toNat_lt)
      simp at hno
  | some found =>
      have hfound : characterOf found = characterOf byte.toNat := by
        simpa using List.find?_some hfind
      have hlt := List.mem_range.1 (List.mem_of_find?_eq_some hfind)
      rw [characterOf_injective hlt byte.toNat_lt hfound, Option.map_some, UInt8.ofNat_toNat]

/-- The characters of bytes are read as the bytes. -/
theorem flatMap_characterBytes_alphabet (bytes : List UInt8) :
    (bytes.map byteToUnicode).flatMap characterBytes = bytes := by
  induction bytes with
  | nil => rfl
  | cons byte rest ih =>
      rw [List.map_cons, List.flatMap_cons, ih, characterBytes, unicodeToByte_byteToUnicode]
      rfl

/-- Characters are told by their UTF-8. -/
theorem flatMap_utf8EncodeChar_injective {a b : List Char}
    (h : a.flatMap String.utf8EncodeChar = b.flatMap String.utf8EncodeChar) : a = b := by
  have hutf8 : utf8 (String.ofList a) = utf8 (String.ofList b) := by
    rw [utf8_eq_flatMap, utf8_eq_flatMap, String.toList_ofList, String.toList_ofList]
    exact h
  have hstring := congrArg String.toList (utf8_injective hutf8)
  rwa [String.toList_ofList, String.toList_ofList] at hstring

namespace Gpt2ByteLevelTokenizer

variable (tokenizer : Gpt2ByteLevelTokenizer)

/-- A token of the vocabulary. -/
def Known (token : UInt32) : Prop := ∃ text, tokenizer.metadata.texts[token.toNat]? = some text

/-- The characters of a token. -/
def characters (token : UInt32) : List Char :=
  ((tokenizer.metadata.texts[token.toNat]?).getD "").toList

/-- A token that the bytes of a piece of a text between special tokens become. -/
def OrdinaryToken (text : List UInt8) (token : UInt32) : Prop :=
  ∃ pieces bytes symbols part,
    tokenizer.pieces text text.length 0 = some pieces ∧ Piece.plain bytes ∈ pieces ∧
      tokenizer.byteSymbols bytes = .ok symbols ∧
      (if tokenizer.metadata.ignoreMerges.getD false = true then part = symbols
        else Reduces (mergeRank tokenizer.metadata.merges)
          (mergedToken tokenizer.metadata.tokenBytes) symbols part) ∧
      token ∈ part

variable {tokenizer}

theorem known_of_tokenIndex {bytes : List UInt8} {token : UInt32}
    (h : tokenIndex tokenizer.metadata.tokenBytes bytes = some token) : tokenizer.Known token := by
  have htoken := tokenIndex_eq tokenizer.metadata.tokenBytes_length_lt h
  rw [TokenizerMetadata.tokenBytes, List.getElem?_map] at htoken
  obtain ⟨text, htext, _⟩ := Option.map_eq_some_iff.1 htoken
  exact ⟨text, htext⟩

theorem tokenBytes_getD (token : UInt32) :
    (tokenizer.metadata.tokenBytes[token.toNat]?).getD [] =
      (tokenizer.characters token).flatMap String.utf8EncodeChar := by
  rw [TokenizerMetadata.tokenBytes, List.getElem?_map, characters]
  cases tokenizer.metadata.texts[token.toNat]? with
  | none => rfl
  | some text => exact utf8_eq_flatMap text

/-! ### A piece -/

/-- The symbols of bytes have the characters of the bytes. -/
theorem byteSymbols_characters {bytes : List UInt8} {symbols : List UInt32}
    (h : tokenizer.byteSymbols bytes = .ok symbols) :
    (∀ token ∈ symbols, tokenizer.Known token) ∧
      textOf tokenizer.metadata.tokenBytes symbols = bytes.flatMap byteSymbol := by
  have hall := mapM_eq_ok_iff.1 h
  clear h
  induction hall with
  | nil => exact ⟨fun _ hnone => (nomatch hnone), rfl⟩
  | @cons byte token bytes symbols htoken _ ih =>
      have hlookup := okOr_eq_ok_iff.1 htoken
      obtain ⟨hknown, htext⟩ := ih
      refine ⟨?_, ?_⟩
      · intro other hother
        rcases List.mem_cons.1 hother with rfl | hother
        · exact known_of_tokenIndex hlookup
        · exact hknown other hother
      · rw [List.flatMap_cons, ← htext, textOf, List.flatMap_cons,
          tokenIndex_eq tokenizer.metadata.tokenBytes_length_lt hlookup]
        rfl

/-- So have the tokens of a piece. -/
theorem pieceTokens_characters {bytes : List UInt8} {part : List UInt32}
    (h : tokenizer.PieceTokens (.plain bytes) part) :
    (∀ token ∈ part, tokenizer.Known token) ∧
      part.flatMap tokenizer.characters = bytes.map byteToUnicode := by
  obtain ⟨symbols, hsymbols, hpart⟩ := h
  obtain ⟨hknown, htext⟩ := byteSymbols_characters hsymbols
  have hreduced : (∀ token ∈ part, tokenizer.Known token) ∧
      textOf tokenizer.metadata.tokenBytes part = textOf tokenizer.metadata.tokenBytes symbols := by
    split at hpart
    next =>
        subst hpart
        exact ⟨hknown, rfl⟩
    next =>
        have hreduces := mergeSymbols_eq_ok_iff.1 hpart
        refine ⟨hreduces.forall_mem ?_ hknown,
          hreduces.flatMap_eq (textOf_mergedToken tokenizer.metadata.tokenBytes_length_lt)⟩
        intro a b c hm
        unfold mergedToken at hm
        split at hm
        next => exact known_of_tokenIndex hm
        next => cases hm
  refine ⟨hreduced.1, flatMap_utf8EncodeChar_injective ?_⟩
  calc (part.flatMap tokenizer.characters).flatMap String.utf8EncodeChar
      = textOf tokenizer.metadata.tokenBytes part := by
        rw [List.flatMap_assoc, textOf]
        exact List.flatMap_congr fun token _ => (tokenBytes_getD token).symm
    _ = bytes.flatMap byteSymbol := hreduced.2.trans htext
    _ = (bytes.map byteToUnicode).flatMap String.utf8EncodeChar := by
        rw [List.flatMap_map]
        rfl

/-- A known token whose characters are of the alphabet is decoded. -/
theorem exists_decodeToken {token : UInt32} (hknown : tokenizer.Known token)
    (hcharacters : ∀ c ∈ tokenizer.characters token, ∃ byte, unicodeToByte c = some byte) :
    ∃ out, tokenizer.decodeToken token = .ok out := by
  obtain ⟨text, htext⟩ := hknown
  rw [characters, htext, Option.getD_some] at hcharacters
  rw [decodeToken, htext]
  simp only
  split
  · exact ⟨_, rfl⟩
  · refine mapM_eq_ok_of_forall fun c hc => ?_
    obtain ⟨byte, hbyte⟩ := hcharacters c hc
    exact ⟨byte, okOr_eq_ok_iff.2 hbyte⟩

/-- The tokens of a plain piece are decoded to no fewer bytes, and to as many exactly
when each is read as its text; then to the bytes. -/
theorem decode_plain {bytes : List UInt8} {part : List UInt32}
    (h : tokenizer.PieceTokens (.plain bytes) part) :
    ∃ outs, part.mapM tokenizer.decodeToken = .ok outs ∧ bytes.length ≤ outs.flatten.length ∧
      (bytes.length = outs.flatten.length → ∀ token ∈ part, tokenizer.ReadAsText token) ∧
      ((∀ token ∈ part, tokenizer.ReadAsText token) → bytes = outs.flatten) := by
  obtain ⟨hknown, hcharacters⟩ := pieceTokens_characters h
  have halphabet : ∀ token ∈ part, ∀ c ∈ tokenizer.characters token,
      ∃ byte, unicodeToByte c = some byte := by
    intro token htoken c hc
    have hmem : c ∈ part.flatMap tokenizer.characters := List.mem_flatMap.2 ⟨token, htoken, hc⟩
    rw [hcharacters] at hmem
    obtain ⟨byte, _, rfl⟩ := List.mem_map.1 hmem
    exact ⟨byte, unicodeToByte_byteToUnicode byte⟩
  obtain ⟨outs, houts⟩ := mapM_eq_ok_of_forall
    fun token htoken => exists_decodeToken (hknown token htoken) (halphabet token htoken)
  have hall := mapM_eq_ok_iff.1 houts
  have hread : ∀ token ∈ part, ∀ out, tokenizer.decodeToken token = .ok out →
      ((tokenizer.characters token).flatMap characterBytes).length ≤ out.length ∧
      (((tokenizer.characters token).flatMap characterBytes).length = out.length →
        tokenizer.ReadAsText token) ∧
      (tokenizer.ReadAsText token → (tokenizer.characters token).flatMap characterBytes = out) := by
    intro token htoken out hout
    obtain ⟨text, htext⟩ := hknown token htoken
    have hsame : tokenizer.characters token = text.toList := by
      rw [characters, htext, Option.getD_some]
    rw [hsame]
    exact tokenizer.decodeToken_read htext hout
  -- The bytes, cut at the ends of the tokens.
  have hbytes : bytes =
      (part.map fun token => (tokenizer.characters token).flatMap characterBytes).flatten := by
    rw [← List.flatMap_def, ← List.flatMap_assoc, hcharacters, flatMap_characterBytes_alphabet]
  have hparts : List.Forall₂ (fun token out => token ∈ part ∧ tokenizer.decodeToken token = .ok out)
      part outs := by
    refine forall₂_of_common (List.forall₂_same.2 fun token _ => rfl) hall ?_
    rintro token hmem _ out rfl hout
    exact ⟨hmem, hout⟩
  obtain ⟨hle, heq⟩ := eq_of_length_flatten (List.forall₂_map_left_iff.2 (hparts.imp
    fun token out hout => by
      obtain ⟨hle, hshort, hsame⟩ := hread token hout.1 out hout.2
      exact ⟨hle, fun hlength => hsame (hshort hlength)⟩))
  rw [← hbytes] at hle heq
  refine ⟨outs, houts, hle, ?_, ?_⟩
  · intro hlength token htoken
    have hsame := heq hlength
    rw [← hsame, List.forall₂_map_right_iff, List.forall₂_same] at hall
    exact (hread token htoken _ (hall token htoken)).2.1 rfl
  · intro htexts
    rw [hbytes]
    congr 1
    refine List.forall₂_eq_eq_eq ▸ List.forall₂_map_left_iff.2 (hparts.imp ?_)
    exact fun token out hout => (hread token hout.1 out hout.2).2.2 (htexts token hout.1)

/-! ### A text -/

/-- A special piece is the text of its special id. -/
theorem specialAt_token {text : List UInt8} {cursor length : Nat} {id : UInt32}
    (h : tokenizer.specialAt text cursor = some (id, length)) :
    tokenizer.decodeToken id = .ok ((text.drop cursor).take length) := by
  obtain ⟨id', hid, hfound⟩ := List.mem_filterMap.1 (specialAt_mem h)
  split at hfound
  next token htoken =>
      split at hfound
      next hstarts =>
          cases hfound
          obtain ⟨rest, hrest⟩ := List.isPrefixOf_iff_prefix.1 hstarts
          rw [decodeToken, htoken]
          simp only
          rw [if_pos (List.contains_iff_mem.2 hid), ← hrest, List.take_left' rfl]
      next => cases hfound
  next => cases hfound

/-- The tokens of a piece that are not special by place. -/
def ordinaryOf (piece : Piece) (part : List UInt32) : List UInt32 :=
  match piece with
  | .special _ _ => []
  | .plain _ => part

/-- The tokens of the pieces are decoded to no fewer bytes than the pieces, and to as
many exactly when each ordinary one is read as its text. -/
theorem decode_pieces {pieces : List Piece} {parts : List (List UInt32)}
    (h : List.Forall₂ tokenizer.PieceTokens pieces parts)
    (hspecial : ∀ id bytes, Piece.special id bytes ∈ pieces →
      tokenizer.decodeToken id = .ok bytes) :
    ∃ outs, parts.flatten.mapM tokenizer.decodeToken = .ok outs ∧
      (pieces.map Piece.bytes).flatten.length ≤ outs.flatten.length ∧
      ((pieces.map Piece.bytes).flatten.length = outs.flatten.length →
        List.Forall₂ (fun piece part => ∀ token ∈ ordinaryOf piece part,
          tokenizer.ReadAsText token) pieces parts) ∧
      (List.Forall₂ (fun piece part => ∀ token ∈ ordinaryOf piece part,
          tokenizer.ReadAsText token) pieces parts →
        (pieces.map Piece.bytes).flatten = outs.flatten) := by
  induction h with
  | nil => exact ⟨[], rfl, Nat.le_refl 0, fun _ => List.Forall₂.nil, fun _ => rfl⟩
  | @cons piece part pieces parts hpiece _ ih =>
      obtain ⟨rest, hrest, hrest_le, hrest_short, hrest_eq⟩ :=
        ih fun id bytes hmem => hspecial id bytes (List.mem_cons_of_mem piece hmem)
      have hfirst : ∃ outs, part.mapM tokenizer.decodeToken = .ok outs ∧
          piece.bytes.length ≤ outs.flatten.length ∧
          (piece.bytes.length = outs.flatten.length →
            ∀ token ∈ ordinaryOf piece part, tokenizer.ReadAsText token) ∧
          ((∀ token ∈ ordinaryOf piece part, tokenizer.ReadAsText token) →
            piece.bytes = outs.flatten) := by
        cases piece with
        | plain bytes => exact decode_plain hpiece
        | special id bytes =>
            have htoken := hspecial id bytes List.mem_cons_self
            cases hpiece
            refine ⟨[bytes], mapM_eq_ok_iff.2 (List.Forall₂.cons htoken List.Forall₂.nil), ?_⟩
            rw [List.flatten_singleton]
            exact ⟨Nat.le_refl _, fun _ _ hnone => (nomatch hnone), fun _ => rfl⟩
      obtain ⟨outs, houts, hle, hshort, heq⟩ := hfirst
      refine ⟨outs ++ rest, ?_, ?_, ?_, ?_⟩
      · rw [List.flatten_cons, List.mapM_append]
        exact bind_eq_ok_iff.2 ⟨outs, houts, bind_eq_ok_iff.2 ⟨rest, hrest, rfl⟩⟩
      · simp only [List.map_cons, List.flatten_cons, List.flatten_append, List.length_append]
        omega
      · simp only [List.map_cons, List.flatten_cons, List.flatten_append, List.length_append]
        intro hlength
        exact List.Forall₂.cons (hshort (by omega)) (hrest_short (by omega))
      · intro hall
        cases hall with
        | cons hhead htail =>
            simp only [List.map_cons, List.flatten_cons, List.flatten_append]
            rw [heq hhead, hrest_eq htail]

/-- The ordinary tokens of a text are those of its plain pieces. -/
theorem ordinaryToken_iff {text : List UInt8} {pieces : List Piece} {parts : List (List UInt32)}
    (hpieces : tokenizer.pieces text text.length 0 = some pieces)
    (hparts : List.Forall₂ tokenizer.PieceTokens pieces parts) :
    (∀ token, tokenizer.OrdinaryToken text token → tokenizer.ReadAsText token) ↔
      List.Forall₂ (fun piece part => ∀ token ∈ ordinaryOf piece part,
        tokenizer.ReadAsText token) pieces parts := by
  constructor
  · intro hall
    refine forall₂_of_common (List.forall₂_same.2 fun piece _ => rfl) hparts ?_
    rintro piece hmem _ part rfl hpart token htoken
    cases piece with
    | special id bytes => cases htoken
    | plain bytes =>
        obtain ⟨symbols, hsymbols, hpart⟩ := hpart
        rw [mergeSymbols_eq_ok_iff] at hpart
        exact hall token ⟨pieces, bytes, symbols, part, hpieces, hmem, hsymbols, hpart, htoken⟩
  · rintro hall token ⟨pieces', bytes, symbols, part, hpieces', hmem, hsymbols, hpart, htoken⟩
    rw [hpieces] at hpieces'
    cases hpieces'
    obtain ⟨i, hi, hplain⟩ := List.getElem_of_mem hmem
    obtain ⟨hlength, hread⟩ := List.forall₂_iff_get.1 hall
    have htokens := (List.forall₂_iff_get.1 hparts).2 i hi (hlength ▸ hi)
    have hread := hread i hi (hlength ▸ hi)
    rw [List.get_eq_getElem, hplain] at htokens hread
    obtain ⟨symbols', hsymbols', hpart'⟩ := htokens
    rw [hsymbols] at hsymbols'
    cases hsymbols'
    rw [mergeSymbols_eq_ok_iff] at hpart'
    -- The symbols of the piece become one list of tokens.
    have hsame : parts.get ⟨i, hlength ▸ hi⟩ = part := by
      split at hpart
      next hignore =>
          rw [if_pos hignore] at hpart'
          rw [hpart, hpart']
      next hignore =>
          rw [if_neg hignore] at hpart'
          exact hpart'.unique hpart
    exact hread token (hsame ▸ htoken)

/-- Decoding gives a text back exactly when each of its ordinary tokens that is a
special id has a text that is read as itself. -/
theorem decode_encode_iff {metadata : TokenizerMetadata} {pretokenizer : PreTokenizer}
    {tokenizer : Gpt2ByteLevelTokenizer} (hbuild : build metadata pretokenizer = .ok tokenizer)
    (hbos : metadata.addBos ≠ some true) (text : String) (ids : List UInt32)
    (hencode : tokenizer.encode (utf8 text) = .ok ids) :
    tokenizer.decode ids = .ok text ↔
      ∀ token, tokenizer.OrdinaryToken (utf8 text) token → tokenizer.ReadAsText token := by
  have hfrom : tokenizer.encodeFrom (utf8 text) (utf8 text).length 0 = .ok ids := by
    obtain ⟨output, houtput, hout⟩ := bind_eq_ok_iff.1 hencode
    rw [← build_metadata hbuild] at hbos
    split at hout
    next hadd _ => exact absurd hadd hbos
    next =>
        rw [← Except.ok.inj hout]
        exact houtput
  obtain ⟨pieces, parts, hpieces, hparts, rfl⟩ := encodeFrom_pieces hfrom
  have hspecial : ∀ id bytes, Piece.special id bytes ∈ pieces →
      tokenizer.decodeToken id = .ok bytes := fun id bytes hmem =>
    pieces_forall_special (P := fun id bytes => tokenizer.decodeToken id = .ok bytes)
      (fun _ _ _ hfound => specialAt_token hfound) hpieces hmem
  obtain ⟨outs, houts, _, hshort, heq⟩ := decode_pieces hparts hspecial
  have htext : (pieces.map Piece.bytes).flatten = utf8 text := by
    rw [pieces_flatten hpieces, List.drop_zero]
  rw [ordinaryToken_iff hpieces hparts, decode, houts]
  have hdecode : ((Except.ok outs >>= fun bytes =>
      okOr (fromUtf8 bytes.flatten) "decoded bytes are not UTF-8") = .ok text) ↔
      outs.flatten = (pieces.map Piece.bytes).flatten := by
    show okOr (fromUtf8 outs.flatten) _ = .ok text ↔ _
    rw [okOr_eq_ok_iff, fromUtf8_eq_some_iff, htext]
    exact eq_comm
  rw [hdecode]
  constructor
  · exact fun hsame => hshort (congrArg List.length hsame.symm)
  · exact fun hall => (heq hall).symm

/-- A special token and a merged token come back, their characters being ASCII. -/
theorem decode_encode_special :
    ∃ tokenizer, build (fourTokens (0, 0) (some [3]) (by simp)) wholeRest = .ok tokenizer ∧
      tokenizer.encode (utf8 "abaa") = .ok [3, 2] ∧
        tokenizer.decode [3, 2] = .ok "abaa" := by
  have hencode : encode ⟨fourTokens (0, 0) (some [3]) (by simp), wholeRest⟩ (utf8 "abaa") =
      .ok [3, 2] := by
    decide +kernel
  have hbuild : build (fourTokens (0, 0) (some [3]) (by simp)) wholeRest = .ok ⟨_, wholeRest⟩ := rfl
  exact ⟨_, hbuild, hencode,
    (decode_encode_iff hbuild (fun h => nomatch h) "abaa" [3, 2] hencode).2 fun token _ =>
      readAsText_fourTokens wholeRest token⟩

end Gpt2ByteLevelTokenizer

/-! ### A special symbol -/

theorem spaceSymbol_length :
    ∀ text ∈ [String.singleton (byteToUnicode 0x20)], (utf8 text).length ≤ 4096 := by
  simp only [List.mem_singleton, forall_eq]
  decide

theorem spaceSymbol_ne_zero :
    ∀ text ∈ [String.singleton (byteToUnicode 0x20)], ∀ byte ∈ utf8 text, byte ≠ 0 :=
  ne_zero_of_all (by decide)

/-- A vocabulary whose token of the space is special. -/
def spaceSpecial : TokenizerMetadata where
  kind := .gpt2BpeByteLevel
  hasModel := true
  preTokenizer := some .gpt2ByteLevel
  texts := [String.singleton (byteToUnicode 0x20)]
  merges := []
  bos := none
  unk := none
  specialIds := some [0]
  addBos := some false
  ignoreMerges := some false
  count_le := by decide
  merges_le := noMerges_le
  text_length := spaceSymbol_length
  text_ne_zero := spaceSymbol_ne_zero
  specialIds_lt := firstSpecial_lt (by decide)

/-- A space is encoded as its symbol, and comes back as the character of the symbol. -/
theorem decode_spaceSpecial :
    ∃ tokenizer, Gpt2ByteLevelTokenizer.build spaceSpecial wholeRest = .ok tokenizer ∧
      spaceSpecial.addBos ≠ some true ∧ tokenizer.encode (utf8 " ") = .ok [0] ∧
      tokenizer.decode [0] = .ok (String.singleton (byteToUnicode 0x20)) ∧
      tokenizer.decode [0] ≠ .ok " " := by
  have hdecode : Gpt2ByteLevelTokenizer.decode ⟨spaceSpecial, wholeRest⟩ [0] =
      .ok (String.singleton (byteToUnicode 0x20)) := by
    decide
  refine ⟨⟨spaceSpecial, wholeRest⟩, rfl, by decide, by decide, hdecode, ?_⟩
  rw [hdecode]
  decide

end VBuf.Tokenizer
