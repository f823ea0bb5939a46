import Mathlib.Data.List.TakeWhile
import VBuf.Lib.MergeRuns
import VBuf.Tokenizer.Pieces

/-!
# When the tokenizers agree

The server merges over the whole text.  It encodes like the runtime when its merges
stay inside the pieces of the runtime and each piece ends as the runtime leaves it,
and it decodes like the runtime when no special token has a character beyond ASCII
of the byte alphabet.
-/

namespace VBuf.Tokenizer

open VBuf.Lib

/-! ### The server -/

namespace VbufTokenizer

variable {tokenizer : VbufTokenizer}

/-- The token of a byte. -/
def byteId (tokenizer : VbufTokenizer) (byte : UInt8) : Except String UInt32 :=
  tokenizer.symbolId (byteSymbol byte)

/-- The symbols of an encoded text are those of its bytes. -/
theorem symbolIds_eq (bytes : List UInt8) (fuel : Nat)
    (hfuel : (bytes.flatMap byteSymbol).length ≤ fuel) :
    tokenizer.symbolIds fuel (bytes.flatMap byteSymbol) = bytes.mapM tokenizer.byteId := by
  induction bytes generalizing fuel with
  | nil => cases fuel with
    | zero => rfl
    | succ fuel => rfl
  | cons byte rest ih =>
      have hsymbol := (length_byteSymbol byte).1
      rw [List.flatMap_cons, List.length_append] at hfuel
      obtain ⟨fuel, rfl⟩ := Nat.exists_eq_succ_of_ne_zero (by omega : fuel ≠ 0)
      obtain ⟨first, tail, hfirst⟩ : ∃ first tail, byteSymbol byte = first :: tail :=
        List.exists_cons_of_length_pos hsymbol
      have hnext : nextUtf8 (byteSymbol byte ++ rest.flatMap byteSymbol) =
          some ((byteToUnicode byte).toNat, rest.flatMap byteSymbol) := nextUtf8_encode _ _
      have htake : (byteSymbol byte ++ rest.flatMap byteSymbol).take
          ((byteSymbol byte ++ rest.flatMap byteSymbol).length - (rest.flatMap byteSymbol).length) =
          byteSymbol byte := by
        rw [List.length_append, Nat.add_sub_cancel, List.take_left' rfl]
      rw [List.flatMap_cons, List.mapM_cons, ← ih fuel (by omega)]
      rw [hfirst] at hnext htake ⊢
      rw [List.cons_append] at hnext htake ⊢
      rw [symbolIds, hnext]
      · simp only [htake]
        rw [byteId, hfirst]
        rfl
      · intro hnil
        cases hnil

/-- The scan finds the first pair of least rank. -/
theorem bestPair_eq (hmerges : tokenizer.merges.length ≤ 10000000) (ids : List UInt32) :
    tokenizer.bestPair ids =
      (leftmostMin (pairRank (mergeRank tokenizer.merges) ids) (ids.length - 1)).map Prod.fst := by
  have hrank : ∀ position r, pairRank (mergeRank tokenizer.merges) ids position = some r →
      r < 2 ^ 32 - 1 := by
    intro position r h
    unfold pairRank at h
    split at h
    next => exact Nat.lt_of_lt_of_le (mergeRank_lt h) (Nat.le_trans hmerges (by decide))
    next => cases h
  exact scanMin_position hrank

/-- A text is one part, whose symbols need no table of all bytes. -/
theorem encodeText_eq_part (text : List UInt8) (out : List UInt32) :
    tokenizer.encodeText text false = .ok out ↔
      (do
        let ids ← tokenizer.symbolIds (text.flatMap byteSymbol).length (text.flatMap byteSymbol)
        mergeLoop tokenizer.bestPair (mergedToken tokenizer.tokenTexts)
          (fun _ _ => "vBuf tokenizer merge result is absent") ids.length ids) = .ok out := by
  have hpart : tokenizer.encodeText text false = .ok out ↔
      tokenizer.encodePart (.text text) = .ok out := by
    unfold encodeText encodeParts
    simp only [List.mapM_cons, List.mapM_nil]
    cases tokenizer.encodePart (.text text) with
    | error e => exact Iff.rfl
    | ok ids =>
        show Except.ok ([ids].flatten) = Except.ok out ↔ _
        rw [List.flatten_singleton]
  rw [hpart, encodePart, byteEncoded_eq]

/-- The server reduces the tokens of all bytes. -/
theorem encodeText_eq_ok_iff (hmerges : tokenizer.merges.length ≤ 10000000) (text : List UInt8)
    (out : List UInt32) :
    tokenizer.encodeText text false = .ok out ↔
      ∃ ids, text.mapM tokenizer.byteId = .ok ids ∧
        Reduces (mergeRank tokenizer.merges) (mergedToken tokenizer.tokenTexts) ids out := by
  rw [encodeText_eq_part, bind_eq_ok_iff, symbolIds_eq text _ (Nat.le_refl _)]
  constructor
  · intro h
    obtain ⟨ids, hids, hloop⟩ := h
    exact ⟨ids, hids, (mergeLoop_eq_ok_iff (bestPair_eq hmerges) _ _ _ (Nat.le_succ _)).1 hloop⟩
  · intro h
    obtain ⟨ids, hids, hreduces⟩ := h
    exact ⟨ids, hids, (mergeLoop_eq_ok_iff (bestPair_eq hmerges) _ _ _ (Nat.le_succ _)).2 hreduces⟩

/-- The characters of a text, as the server decodes them. -/
theorem decodeText_eq (characters : List Char) (fuel : Nat)
    (hfuel : (characters.flatMap String.utf8EncodeChar).length ≤ fuel) :
    decodeText fuel (characters.flatMap String.utf8EncodeChar) =
      characters.flatMap fun c =>
        match unicodeToByte c with
        | some byte => [byte]
        | none => String.utf8EncodeChar c := by
  induction characters generalizing fuel with
  | nil => cases fuel with
    | zero => rfl
    | succ fuel => rfl
  | cons c rest ih =>
      have hpos : 0 < (String.utf8EncodeChar c).length :=
        List.length_pos_of_ne_nil String.utf8EncodeChar_ne_nil
      rw [List.flatMap_cons, List.length_append] at hfuel
      obtain ⟨fuel, rfl⟩ := Nat.exists_eq_succ_of_ne_zero (by omega : fuel ≠ 0)
      rw [List.flatMap_cons, List.flatMap_cons, decodeText, nextUtf8_encode]
      simp only [reverseByte_eq, appendUtf8_eq]
      exact congrArg₂ (· ++ ·) rfl (ih fuel (by omega))

end VbufTokenizer

/-! ### Encoding -/

section Encoding

variable {runtime : Gpt2ByteLevelTokenizer} {server : VbufTokenizer}

/-- What the runtime leaves of a piece, where the merges do not tell. -/
def Gpt2ByteLevelTokenizer.EndsAs (runtime : Gpt2ByteLevelTokenizer) (piece : Piece)
    (part : List UInt32) : Prop :=
  match piece with
  | .special id _ => part = [id]
  | .plain bytes =>
      runtime.metadata.ignoreMerges.getD false = true → runtime.byteSymbols bytes = .ok part

/-- The merges of the server over a text stay inside the pieces of the runtime: a
special piece ends as its token, and a plain piece is not merged where the runtime
ignores merges. -/
def MergesInPieces (runtime : Gpt2ByteLevelTokenizer) (server : VbufTokenizer) (text : List UInt8) :
    Prop :=
  ∃ pieces segments parts,
    runtime.pieces text text.length 0 = some pieces ∧
    List.Forall₂ (fun piece segment => piece.bytes.mapM server.byteId = .ok segment) pieces
      segments ∧
    ReducesInside (mergeRank server.merges) (mergedToken server.tokenTexts) segments parts ∧
    List.Forall₂ runtime.EndsAs pieces parts

/-- The server holds the tables of the runtime. -/
structure SameTables (runtime : Gpt2ByteLevelTokenizer) (server : VbufTokenizer) : Prop where
  texts : server.tokenTexts = runtime.metadata.tokenBytes
  merges : server.merges = runtime.metadata.merges
  unk : server.unk = runtime.metadata.unk

theorem build_metadata {metadata : TokenizerMetadata} {pretokenizer : PreTokenizer}
    (hruntime : Gpt2ByteLevelTokenizer.build metadata pretokenizer = .ok runtime) :
    runtime.metadata = metadata := by
  unfold Gpt2ByteLevelTokenizer.build at hruntime
  split at hruntime
  · cases hruntime
  · rw [← Except.ok.inj hruntime]

theorem sameTables {metadata : TokenizerMetadata} {pretokenizer : PreTokenizer}
    (hruntime : Gpt2ByteLevelTokenizer.build metadata pretokenizer = .ok runtime)
    (hserver : VbufTokenizer.ofMetadata metadata = .ok server) : SameTables runtime server := by
  have hmetadata := build_metadata hruntime
  unfold VbufTokenizer.ofMetadata at hserver
  split at hserver
  next => cases hserver
  next =>
      rw [← Except.ok.inj hserver]
      constructor
      · rw [hmetadata, TokenizerMetadata.tokenBytes]
        apply List.map_congr_left
        intro text hmem
        rw [List.takeWhile_eq_self_iff]
        exact fun byte hbyte => decide_eq_true (metadata.text_ne_zero text hmem byte hbyte)
      · rw [hmetadata]
      · rw [hmetadata]

theorem SameTables.count_lt (h : SameTables runtime server) :
    server.tokenTexts.length < 2 ^ 32 := by
  rw [h.texts, TokenizerMetadata.tokenBytes, List.length_map]
  exact Nat.lt_of_le_of_lt runtime.metadata.count_le (by decide)

/-- The bytes of a plain piece have the same tokens. -/
theorem SameTables.mapM_byteId (h : SameTables runtime server) {bytes : List UInt8}
    {symbols : List UInt32} (hsymbols : runtime.byteSymbols bytes = .ok symbols) :
    bytes.mapM server.byteId = .ok symbols := by
  refine mapM_eq_ok_iff.2 ((mapM_eq_ok_iff.1 hsymbols).imp ?_)
  intro byte id hid
  rw [VbufTokenizer.byteId, VbufTokenizer.symbolId, h.texts, okOr_eq_ok_iff.1 hid]

/-- A piece that is reduced on its own is what the runtime gives. -/
theorem SameTables.parts_eq (h : SameTables runtime server) {pieces : List Piece}
    {segments parts parts' : List (List UInt32)}
    (hsegments : List.Forall₂ (fun piece segment => piece.bytes.mapM server.byteId = .ok segment)
      pieces segments)
    (hreduces : List.Forall₂ (Reduces (mergeRank server.merges) (mergedToken server.tokenTexts))
      segments parts)
    (hends : List.Forall₂ runtime.EndsAs pieces parts)
    (htokens : List.Forall₂ runtime.PieceTokens pieces parts') : parts = parts' := by
  induction pieces generalizing segments parts parts' with
  | nil =>
      cases hends
      cases htokens
      rfl
  | cons piece pieces ih =>
      cases hends with
      | @cons _ part _ parts hend hends =>
          cases htokens with
          | @cons _ part' _ parts' htoken htokens =>
              cases hreduces with
              | @cons segment _ segments _ hreduce hreduces =>
                  cases hsegments with
                  | cons hsegment hsegments =>
                      rw [ih hsegments hreduces hends htokens]
                      congr 1
                      cases piece with
                      | special id bytes => exact Eq.trans hend (Eq.symm htoken)
                      | plain bytes =>
                          obtain ⟨symbols, hsymbols, hmerged⟩ := htoken
                          by_cases hignore : runtime.metadata.ignoreMerges.getD false = true
                          · rw [if_pos hignore] at hmerged
                            have hpart := hend hignore
                            rw [hsymbols, Except.ok.injEq] at hpart
                            rw [← hpart, hmerged]
                          · rw [if_neg hignore, Gpt2ByteLevelTokenizer.mergeSymbols_eq_ok_iff,
                              ← h.merges, ← h.texts] at hmerged
                            have hsame := h.mapM_byteId hsymbols
                            have hsegment' : bytes.mapM server.byteId = .ok segment := hsegment
                            rw [hsame, Except.ok.injEq] at hsegment'
                            rw [hsegment'] at hmerged
                            exact hreduce.unique hmerged

/-- Where the merges stay inside the pieces, the server encodes like the runtime. -/
theorem SameTables.encodeText_of_mergesInPieces (h : SameTables runtime server) {text : List UInt8}
    {ids : List UInt32} (hids : runtime.encodeFrom text text.length 0 = .ok ids)
    (hmerges : MergesInPieces runtime server text) : server.encodeText text false = .ok ids := by
  obtain ⟨pieces, segments, parts, hpieces, hsegments, hinside, hends⟩ := hmerges
  obtain ⟨pieces', parts', hpieces', htokens, rfl⟩ :=
    Gpt2ByteLevelTokenizer.encodeFrom_pieces hids
  rw [hpieces, Option.some.injEq] at hpieces'
  subst hpieces'
  obtain ⟨hwhole, hparts⟩ := hinside.reduces
  have htext := Gpt2ByteLevelTokenizer.pieces_flatten hpieces
  rw [List.drop_zero] at htext
  rw [VbufTokenizer.encodeText_eq_ok_iff (by rw [h.merges]; exact runtime.metadata.merges_le),
    ← h.parts_eq hsegments hparts hends htokens]
  refine ⟨segments.flatten, ?_, hwhole⟩
  rw [← htext]
  exact mapM_flatten_eq_ok_iff.2 ⟨segments, List.forall₂_map_left_iff.2 hsegments, rfl⟩

/-- A byte has a token of its own, or the server rejects a text with it. -/
def VbufTokenizer.Knows (server : VbufTokenizer) (byte : UInt8) : Prop :=
  server.unk = none ∨ (tokenIndex server.tokenTexts (byteSymbol byte)).isSome

theorem VbufTokenizer.Knows.tokenLength_eq (hcount : server.tokenTexts.length < 2 ^ 32)
    {byte : UInt8} {id : UInt32} (hknows : server.Knows byte) (hid : server.byteId byte = .ok id) :
    tokenLength server.tokenTexts id = (byteSymbol byte).length := by
  unfold byteId symbolId at hid
  cases hindex : tokenIndex server.tokenTexts (byteSymbol byte) with
  | some found =>
      rw [hindex] at hid
      cases hid
      exact tokenLength_of_tokenIndex hcount hindex
  | none =>
      rcases hknows with hunk | hsome
      · rw [hindex, hunk] at hid
        cases hid
      · rw [hindex] at hsome
        cases hsome

/-- The tokens of known bytes are as long as their symbols. -/
theorem VbufTokenizer.weight_byteIds (hcount : server.tokenTexts.length < 2 ^ 32)
    {bytes : List UInt8} {ids : List UInt32} (hknows : ∀ byte ∈ bytes, server.Knows byte)
    (hids : bytes.mapM server.byteId = .ok ids) :
    weightOf (tokenLength server.tokenTexts) ids = (bytes.flatMap byteSymbol).length := by
  have hall := mapM_eq_ok_iff.1 hids
  clear hids
  induction hall with
  | nil => rfl
  | @cons byte id bytes ids hid _ ih =>
      rw [weightOf_cons, (hknows byte List.mem_cons_self).tokenLength_eq hcount hid,
        ih (fun byte hbyte => hknows byte (List.mem_cons_of_mem _ hbyte)), List.flatMap_cons,
        List.length_append]

theorem length_le_flatMap_byteSymbol (bytes : List UInt8) :
    bytes.length ≤ (bytes.flatMap byteSymbol).length := by
  induction bytes with
  | nil => exact Nat.le_refl 0
  | cons byte rest ih =>
      have hsymbol := (length_byteSymbol byte).1
      rw [List.flatMap_cons, List.length_append, List.length_cons]
      omega

/-- What the runtime gives for a piece is no longer than the symbols of the piece. -/
theorem SameTables.weight_part_le (h : SameTables runtime server) {piece : Piece}
    {segment part : List UInt32}
    (hspecial : ∀ id bytes, piece = .special id bytes →
      tokenLength server.tokenTexts id = bytes.length)
    (hknows : ∀ byte ∈ piece.bytes, server.Knows byte)
    (hsegment : piece.bytes.mapM server.byteId = .ok segment)
    (htokens : runtime.PieceTokens piece part) :
    weightOf (tokenLength server.tokenTexts) part ≤
      weightOf (tokenLength server.tokenTexts) segment := by
  cases piece with
  | special id bytes =>
      rw [VbufTokenizer.weight_byteIds h.count_lt hknows hsegment, show part = [id] from htokens,
        weightOf_cons, weightOf_nil, Nat.add_zero, hspecial id bytes rfl]
      exact length_le_flatMap_byteSymbol bytes
  | plain bytes =>
      obtain ⟨symbols, hsymbols, hmerged⟩ := htokens
      have hsame := (h.mapM_byteId hsymbols).symm.trans hsegment
      rw [Except.ok.injEq] at hsame
      subst hsame
      split at hmerged
      next => rw [hmerged]
      next =>
          rw [Gpt2ByteLevelTokenizer.mergeSymbols_eq_ok_iff, ← h.texts] at hmerged
          exact Nat.le_of_eq (hmerged.weight_eq (tokenLength_mergedToken h.count_lt))

/-- Where the server encodes like the runtime, its merges stay inside the pieces. -/
theorem SameTables.mergesInPieces_of_encodeText (h : SameTables runtime server)
    {text : List UInt8} {ids : List UInt32}
    (hids : runtime.encodeFrom text text.length 0 = .ok ids)
    (hknows : ∀ byte ∈ text, server.Knows byte) (hserver : server.encodeText text false = .ok ids) :
    MergesInPieces runtime server text := by
  obtain ⟨pieces, parts, hpieces, htokens, rfl⟩ := Gpt2ByteLevelTokenizer.encodeFrom_pieces hids
  have htext := Gpt2ByteLevelTokenizer.pieces_flatten hpieces
  rw [List.drop_zero] at htext
  rw [VbufTokenizer.encodeText_eq_ok_iff (by rw [h.merges]; exact runtime.metadata.merges_le)]
    at hserver
  obtain ⟨symbols, hsymbols, hreduces⟩ := hserver
  -- The tokens of the text are those of its pieces, and all have a length.
  have hpositive : ∀ id ∈ symbols, 0 < tokenLength server.tokenTexts id := by
    intro id hid
    obtain ⟨byte, hbyte, hbyteId⟩ := exists_of_mem_right (mapM_eq_ok_iff.1 hsymbols) hid
    rw [(hknows byte hbyte).tokenLength_eq h.count_lt hbyteId]
    exact (length_byteSymbol byte).1
  rw [← htext] at hsymbols hknows
  obtain ⟨segments, hsegments, rfl⟩ := mapM_flatten_eq_ok_iff.1 hsymbols
  have hsegments := List.forall₂_map_left_iff.1 hsegments
  -- No piece gets longer and the text keeps its length, so each piece keeps its own.
  have hle : List.Forall₂ (fun s o => weightOf (tokenLength server.tokenTexts) o ≤
      weightOf (tokenLength server.tokenTexts) s) segments parts := by
    refine forall₂_of_common hsegments htokens ?_
    intro piece hpiece segment part hsegment htoken
    refine h.weight_part_le ?_ ?_ hsegment htoken
    · intro id bytes heq
      rw [h.texts]
      exact Gpt2ByteLevelTokenizer.pieces_special hpieces (heq ▸ hpiece)
    · intro byte hbyte
      exact hknows byte (List.mem_flatten.2 ⟨_, List.mem_map_of_mem hpiece, hbyte⟩)
  have hjoin := tokenLength_mergedToken h.count_lt
  have hweights := forall₂_weight_eq hle (hreduces.weight_eq hjoin)
  have hinside := hreduces.inside hjoin rfl rfl hpositive hweights
  refine ⟨pieces, segments, parts, hpieces, hsegments, hinside, htokens.imp ?_⟩
  intro piece part htoken
  cases piece with
  | special id bytes => exact htoken
  | plain bytes =>
      obtain ⟨part', hsymbols, hmerged⟩ := htoken
      intro hignore
      rw [if_pos hignore] at hmerged
      rw [hmerged]
      exact hsymbols

end Encoding

/-! ### Decoding -/

section Decoding

variable {runtime : Gpt2ByteLevelTokenizer} {server : VbufTokenizer}

/-- The bytes that the server reads a character as. -/
def characterBytes (c : Char) : List UInt8 :=
  match unicodeToByte c with
  | some byte => [byte]
  | none => String.utf8EncodeChar c

/-- A character is read as its UTF-8: it is ASCII, or not of the byte alphabet. -/
def OutsideAlphabet (c : Char) : Prop := c.toNat ≤ 127 ∨ unicodeToByte c = none

theorem characterBytes_eq {c : Char} (h : OutsideAlphabet c) :
    characterBytes c = String.utf8EncodeChar c := by
  unfold characterBytes
  cases hbyte : unicodeToByte c with
  | none => rfl
  | some byte =>
      rcases h with hascii | hnone
      · exact (utf8EncodeChar_of_ascii hbyte hascii).symm
      · rw [hbyte] at hnone
        cases hnone

theorem length_characterBytes (c : Char) :
    (characterBytes c).length ≤ (String.utf8EncodeChar c).length ∧
      ((characterBytes c).length = (String.utf8EncodeChar c).length → OutsideAlphabet c) := by
  by_cases h : OutsideAlphabet c
  · rw [characterBytes_eq h]
    exact ⟨Nat.le_refl _, fun _ => h⟩
  · obtain ⟨hascii, hbyte⟩ := not_or.1 h
    obtain ⟨byte, hbyte⟩ := Option.ne_none_iff_exists'.1 hbyte
    have hlength := two_le_length_utf8EncodeChar (Nat.lt_of_not_le hascii)
    have hone : (characterBytes c).length = 1 := by
      rw [characterBytes, hbyte]
      rfl
    exact ⟨by omega, fun heq => absurd heq (by omega)⟩

/-- The bytes of a token on the server. -/
def VbufTokenizer.bytesOf (server : VbufTokenizer) (token : UInt32) : List UInt8 :=
  match server.tokenTexts[token.toNat]? with
  | none => []
  | some text => VbufTokenizer.decodeText text.length text

theorem VbufTokenizer.decode_eq (tokens : List UInt32) :
    server.decode tokens = (tokens.map server.bytesOf).flatten := rfl

/-- A special token is read as its text. -/
def Gpt2ByteLevelTokenizer.ReadAsText (runtime : Gpt2ByteLevelTokenizer) (token : UInt32) : Prop :=
  (runtime.metadata.specialIds.getD []).contains token = true →
    ∀ text, runtime.metadata.texts[token.toNat]? = some text → ∀ c ∈ text.toList, OutsideAlphabet c

/-- The characters of a text are read as its bytes exactly when each is. -/
theorem flatMap_characterBytes (text : String) :
    (text.toList.flatMap characterBytes).length ≤ (utf8 text).length ∧
      ((text.toList.flatMap characterBytes).length = (utf8 text).length →
        ∀ c ∈ text.toList, OutsideAlphabet c) ∧
      ((∀ c ∈ text.toList, OutsideAlphabet c) → text.toList.flatMap characterBytes = utf8 text) := by
  have hparts : List.Forall₂ (fun part out => part.length ≤ out.length ∧
      (part.length = out.length → part = out)) (text.toList.map characterBytes)
      (text.toList.map String.utf8EncodeChar) := by
    rw [List.forall₂_map_left_iff, List.forall₂_map_right_iff, List.forall₂_same]
    intro c _
    obtain ⟨hle, heq⟩ := length_characterBytes c
    exact ⟨hle, fun hlength => characterBytes_eq (heq hlength)⟩
  obtain ⟨hle, heq⟩ := eq_of_length_flatten hparts
  rw [utf8_eq_flatMap, List.flatMap_def, List.flatMap_def]
  refine ⟨hle, ?_, ?_⟩
  · intro hlength c hc
    apply (length_characterBytes c).2
    rw [List.map_inj_left.1 (heq hlength) c hc]
  · intro hall
    rw [List.map_congr_left fun c hc => characterBytes_eq (hall c hc)]

/-- A token has no fewer bytes than its characters are read as, and as many exactly
when it is read as its text. -/
theorem Gpt2ByteLevelTokenizer.decodeToken_read {token : UInt32} {text : String}
    (htext : runtime.metadata.texts[token.toNat]? = some text) {part : List UInt8}
    (hpart : runtime.decodeToken token = .ok part) :
    (text.toList.flatMap characterBytes).length ≤ part.length ∧
      ((text.toList.flatMap characterBytes).length = part.length → runtime.ReadAsText token) ∧
      (runtime.ReadAsText token → text.toList.flatMap characterBytes = part) := by
  unfold Gpt2ByteLevelTokenizer.decodeToken at hpart
  rw [htext] at hpart
  simp only at hpart
  split at hpart
  next hspecial =>
      cases hpart
      obtain ⟨hle, heq, hread⟩ := flatMap_characterBytes text
      refine ⟨hle, ?_, ?_⟩
      · intro hlength _ text' htext'
        rw [htext, Option.some.injEq] at htext'
        exact htext' ▸ heq hlength
      · exact fun hall => hread (hall hspecial text htext)
  next hspecial =>
      have hsame : text.toList.flatMap characterBytes = part := by
        have hall := mapM_eq_ok_iff.1 hpart
        clear hpart htext
        generalize text.toList = characters at hall ⊢
        induction hall with
        | nil => rfl
        | @cons c byte characters rest hbyte _ ih =>
            rw [List.flatMap_cons, ih, characterBytes, okOr_eq_ok_iff.1 hbyte]
            rfl
      rw [hsame]
      exact ⟨Nat.le_refl _, fun _ hcontains => absurd hcontains hspecial, fun _ => rfl⟩

/-- The server gives no more bytes for a token than the runtime, and as many exactly
when it gives the same. -/
theorem SameTables.bytesOf_decodeToken (h : SameTables runtime server) {token : UInt32}
    {part : List UInt8} (hpart : runtime.decodeToken token = .ok part) :
    (server.bytesOf token).length ≤ part.length ∧
      ((server.bytesOf token).length = part.length → runtime.ReadAsText token) ∧
      (runtime.ReadAsText token → server.bytesOf token = part) := by
  cases htext : runtime.metadata.texts[token.toNat]? with
  | none =>
      rw [Gpt2ByteLevelTokenizer.decodeToken, htext] at hpart
      cases hpart
  | some text =>
      have hbytes : server.bytesOf token = text.toList.flatMap characterBytes := by
        rw [VbufTokenizer.bytesOf, h.texts, TokenizerMetadata.tokenBytes, List.getElem?_map, htext]
        show VbufTokenizer.decodeText (utf8 text).length (utf8 text) = _
        rw [utf8_eq_flatMap, VbufTokenizer.decodeText_eq _ _ (Nat.le_refl _)]
        rfl
      rw [hbytes]
      exact runtime.decodeToken_read htext hpart

/-- The server decodes like the runtime exactly when every special token is read as
its text. -/
theorem SameTables.decode_eq_iff (h : SameTables runtime server) {tokens : List UInt32} {s : String}
    (hs : runtime.decode tokens = .ok s) :
    server.decode tokens = utf8 s ↔ ∀ token ∈ tokens, runtime.ReadAsText token := by
  obtain ⟨parts, hparts, hs⟩ := bind_eq_ok_iff.1 hs
  have hall := mapM_eq_ok_iff.1 hparts
  rw [fromUtf8_eq_some_iff.1 (okOr_eq_ok_iff.1 hs), VbufTokenizer.decode_eq]
  constructor
  · intro hdecode
    have hbytes : tokens.map server.bytesOf = parts := by
      refine (eq_of_length_flatten ?_).2 (congrArg List.length hdecode)
      refine List.forall₂_map_left_iff.2 (hall.imp ?_)
      intro token part hpart
      obtain ⟨hle, heq, hread⟩ := h.bytesOf_decodeToken hpart
      exact ⟨hle, fun hlength => hread (heq hlength)⟩
    rw [← hbytes, List.forall₂_map_right_iff, List.forall₂_same] at hall
    intro token hmem
    exact (h.bytesOf_decodeToken (hall token hmem)).2.1 rfl
  · intro hread
    congr 1
    refine List.forall₂_eq_eq_eq ▸ List.forall₂_map_left_iff.2 ?_
    refine forall₂_of_common (List.forall₂_same.2 fun token _ => rfl) hall ?_
    intro token hmem _ part heq hpart
    subst heq
    exact (h.bytesOf_decodeToken hpart).2.2 (hread token hmem)

end Decoding

/-! ### Agreement -/

/-- The tokenizers agree on a text when, and if the server knows its bytes only when,
the merges of the server stay inside the pieces of the runtime; they agree on tokens
exactly when every special token is read as its text. -/
theorem tokenizers_agree_iff {metadata : TokenizerMetadata} {pretokenizer : PreTokenizer}
    {runtime : Gpt2ByteLevelTokenizer} {server : VbufTokenizer}
    (hruntime : Gpt2ByteLevelTokenizer.build metadata pretokenizer = .ok runtime)
    (hserver : VbufTokenizer.ofMetadata metadata = .ok server)
    (hbos : metadata.addBos ≠ some true) :
    (∀ text ids, runtime.encode (utf8 text) = .ok ids →
      (MergesInPieces runtime server (utf8 text) →
        server.encodeText (utf8 text) false = .ok ids) ∧
      ((∀ byte ∈ utf8 text, server.Knows byte) →
        (server.encodeText (utf8 text) false = .ok ids ↔
          MergesInPieces runtime server (utf8 text)))) ∧
    (∀ tokens s, runtime.decode tokens = .ok s →
      (server.decode tokens = utf8 s ↔ ∀ token ∈ tokens, runtime.ReadAsText token)) := by
  have htables := sameTables hruntime hserver
  refine ⟨?_, fun tokens s hs => htables.decode_eq_iff hs⟩
  intro text ids hids
  have hfrom : runtime.encodeFrom (utf8 text) (utf8 text).length 0 = .ok ids := by
    obtain ⟨output, houtput, hout⟩ := bind_eq_ok_iff.1 hids
    rw [← (build_metadata hruntime)] at hbos
    split at hout
    next hadd _ => exact absurd hadd hbos
    next =>
        rw [← Except.ok.inj hout]
        exact houtput
  refine ⟨htables.encodeText_of_mergesInPieces hfrom, ?_⟩
  intro hknows
  exact ⟨htables.mergesInPieces_of_encodeText hfrom hknows,
    htables.encodeText_of_mergesInPieces hfrom⟩

/-! ### A special token -/

/-- A pre-tokenizer that takes what is left of a text as one piece. -/
def wholeRest : PreTokenizer where
  findAt text cursor := if cursor < text.length then some (cursor, text.length) else none
  cursor_le := by
    intro text cursor start stop h
    split at h
    · cases h
      exact Nat.le_refl cursor
    · cases h
  start_lt := by
    intro text cursor start stop h
    split at h
    next hlt =>
        cases h
        exact hlt
    next => cases h
  stop_le := by
    intro text cursor start stop h
    split at h
    · cases h
      exact Nat.le_refl text.length
    · cases h

/-- A vocabulary of four tokens, with one merge. -/
def fourTokens (merge : UInt32 × UInt32) (specialIds : Option (List UInt32))
    (hspecial : ∀ ids, specialIds = some ids → ∀ id ∈ ids, id.toNat < 4) : TokenizerMetadata where
  kind := .gpt2BpeByteLevel
  hasModel := true
  preTokenizer := some .gpt2ByteLevel
  texts := ["a", "b", "aa", "ab"]
  merges := [merge]
  bos := none
  unk := none
  specialIds := specialIds
  addBos := some false
  ignoreMerges := some false
  count_le := by decide
  merges_le := by
    rw [List.length_singleton]
    decide
  text_length := by decide +kernel
  text_ne_zero := ne_zero_of_all (by decide +kernel)
  specialIds_lt := hspecial

/-- The server over the four tokens. -/
def fourTokensServer (merge : UInt32 × UInt32) : VbufTokenizer :=
  ⟨[[97], [98], [97, 97], [97, 98]], [merge], none, none⟩

theorem ofMetadata_fourTokens {merge : UInt32 × UInt32} {specialIds : Option (List UInt32)}
    {hspecial : ∀ ids, specialIds = some ids → ∀ id ∈ ids, id.toNat < 4} :
    VbufTokenizer.ofMetadata (fourTokens merge specialIds hspecial) =
      .ok (fourTokensServer merge) := by
  have hshort : ¬ ∃ text ∈ ["a", "b", "aa", "ab"], (utf8 text).length + 1 > 8192 := by
    decide +kernel
  have htexts : ["a", "b", "aa", "ab"].map (fun text => (utf8 text).takeWhile (fun b => b ≠ 0)) =
      [[97], [98], [97, 97], [97, 98]] := by
    decide +kernel
  rw [VbufTokenizer.ofMetadata, fourTokens, if_neg hshort, htexts]
  rfl

/-- The four tokens are of ASCII characters. -/
theorem readAsText_fourTokens {merge : UInt32 × UInt32} {specialIds : Option (List UInt32)}
    {hspecial : ∀ ids, specialIds = some ids → ∀ id ∈ ids, id.toNat < 4}
    (pretokenizer : PreTokenizer) (token : UInt32) :
    Gpt2ByteLevelTokenizer.ReadAsText ⟨fourTokens merge specialIds hspecial, pretokenizer⟩ token := by
  intro _ text htext c hc
  have hascii : (["a", "b", "aa", "ab"].all fun text =>
      text.toList.all fun c => c.toNat ≤ 127) = true := by
    decide
  have htoken := List.all_eq_true.1 hascii text (List.mem_of_getElem? htext)
  exact Or.inl (of_decide_eq_true (List.all_eq_true.1 htoken c hc))

/-- The special token of a text is two tokens on the server. -/
theorem encodeText_splits_special :
    ∃ metadata runtime server,
      Gpt2ByteLevelTokenizer.build metadata wholeRest = .ok runtime ∧
        VbufTokenizer.ofMetadata metadata = .ok server ∧ metadata.addBos ≠ some true ∧
        runtime.encode (utf8 "ab") = .ok [3] ∧
        server.encodeText (utf8 "ab") false = .ok [0, 1] := by
  refine ⟨fourTokens (0, 0) (some [3]) (by simp), ⟨_, wholeRest⟩, fourTokensServer (0, 0), rfl,
    ofMetadata_fourTokens, ?_, ?_, ?_⟩
  · exact fun h => nomatch h
  · decide +kernel
  · rw [VbufTokenizer.encodeText_eq_part]
    decide +kernel

/-- Two special tokens with a letter between them are the merged letters of the server. -/
theorem tokenizers_agree_merged :
    ∃ runtime, MergesInPieces runtime (fourTokensServer (0, 1)) (utf8 "abaab") ∧
      runtime.encode (utf8 "abaab") = .ok [3, 0, 3] ∧
      (fourTokensServer (0, 1)).encodeText (utf8 "abaab") false = .ok [3, 0, 3] ∧
      (fourTokensServer (0, 1)).decode [3, 0, 3] = utf8 "abaab" := by
  have hruntime : Gpt2ByteLevelTokenizer.build (fourTokens (0, 1) (some [3]) (by simp)) wholeRest =
      .ok ⟨_, wholeRest⟩ := rfl
  obtain ⟨hencode, hdecode⟩ :=
    tokenizers_agree_iff hruntime ofMetadata_fourTokens (fun h => nomatch h)
  have hids : Gpt2ByteLevelTokenizer.encode ⟨fourTokens (0, 1) (some [3]) (by simp), wholeRest⟩
      (utf8 "abaab") = .ok [3, 0, 3] := by
    decide +kernel
  have htext : (fourTokensServer (0, 1)).encodeText (utf8 "abaab") false = .ok [3, 0, 3] := by
    rw [VbufTokenizer.encodeText_eq_part]
    decide +kernel
  have hstring : Gpt2ByteLevelTokenizer.decode ⟨fourTokens (0, 1) (some [3]) (by simp), wholeRest⟩
      [3, 0, 3] = .ok "abaab" := by
    decide +kernel
  refine ⟨_, ((hencode "abaab" [3, 0, 3] hids).2 ?_).1 htext, hids, htext,
    (hdecode _ _ hstring).2 fun token _ => readAsText_fourTokens wholeRest token⟩
  exact fun byte _ => Or.inl rfl

end VBuf.Tokenizer
