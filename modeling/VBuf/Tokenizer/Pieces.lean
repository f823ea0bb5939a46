import VBuf.Tokenizer.ByteAlphabet

/-!
# The pieces of a text

The runtime splits a text into special tokens and plain pieces and encodes each on
its own; the server encodes the whole.
-/

namespace VBuf.Tokenizer

open VBuf.Lib

/-- A piece of a text: a special token or a match of the regular expression. -/
inductive Piece
  | special (id : UInt32) (bytes : List UInt8)
  | plain (bytes : List UInt8)

def Piece.bytes : Piece → List UInt8
  | special _ bytes => bytes
  | plain bytes => bytes

/-! ### Tables -/

theorem tokenIndex_eq {texts : List (List UInt8)} (hcount : texts.length < 2 ^ 32)
    {bytes : List UInt8} {id : UInt32} (h : tokenIndex texts bytes = some id) :
    texts[id.toNat]? = some bytes := by
  obtain ⟨entry, hfind, rfl⟩ := Option.map_eq_some_iff.1 h
  have hbytes := List.find?_some hfind
  have hmem := List.mem_reverse.1 (List.mem_of_find?_eq_some hfind)
  obtain ⟨_, hlt, hget⟩ := List.mem_zipIdx hmem
  rw [decide_eq_true_eq] at hbytes
  rw [Nat.zero_add] at hlt
  rw [UInt32.toNat_ofNat_of_lt' (Nat.lt_trans hlt hcount), List.getElem?_eq_getElem hlt, ← hbytes,
    hget]
  rfl

theorem mergeRank_lt {merges : List (UInt32 × UInt32)} {left right : UInt32} {r : Nat}
    (h : mergeRank merges left right = some r) : r < merges.length := by
  obtain ⟨entry, hfind, rfl⟩ := Option.map_eq_some_iff.1 h
  have hmem := List.mem_reverse.1 (List.mem_of_find?_eq_some hfind)
  obtain ⟨_, hlt, _⟩ := List.mem_zipIdx hmem
  rw [Nat.zero_add] at hlt
  exact hlt

/-- The length of the text of a token. -/
def tokenLength (texts : List (List UInt8)) (id : UInt32) : Nat :=
  (texts.getD id.toNat []).length

theorem tokenLength_of_tokenIndex {texts : List (List UInt8)} (hcount : texts.length < 2 ^ 32)
    {bytes : List UInt8} {id : UInt32} (h : tokenIndex texts bytes = some id) :
    tokenLength texts id = bytes.length := by
  rw [tokenLength, List.getD_eq_getElem?_getD, tokenIndex_eq hcount h]
  rfl

/-- A merged token is as long as the two. -/
theorem tokenLength_mergedToken {texts : List (List UInt8)} (hcount : texts.length < 2 ^ 32)
    (a b c : UInt32) (h : mergedToken texts a b = some c) :
    tokenLength texts c = tokenLength texts a + tokenLength texts b := by
  unfold mergedToken at h
  split at h
  next leftText rightText hleft hright =>
      rw [tokenLength_of_tokenIndex hcount h, List.length_append, tokenLength, tokenLength,
        List.getD_eq_getElem?_getD, List.getD_eq_getElem?_getD, hleft, hright]
      rfl
  next => cases h

/-! ### The pieces of the runtime -/

namespace Gpt2ByteLevelTokenizer

variable (tokenizer : Gpt2ByteLevelTokenizer)

/-- The pieces of a text, from a cursor on. -/
def pieces (text : List UInt8) : Nat → Nat → Option (List Piece)
  | fuel, cursor =>
      if text.length ≤ cursor then some []
      else
        match fuel with
        | 0 => none
        | fuel + 1 =>
            match tokenizer.specialAt text cursor with
            | some (id, length) =>
                (pieces text fuel (cursor + length)).map
                  (Piece.special id ((text.drop cursor).take length) :: ·)
            | none =>
                match tokenizer.pretokenizer.findAt text cursor with
                | none => none
                | some (start, stop) =>
                    if start ≠ cursor then none
                    else (pieces text fuel stop).map
                      (Piece.plain ((text.drop cursor).take (stop - cursor)) :: ·)

/-- The tokens of a piece on its own. -/
def PieceTokens (piece : Piece) (part : List UInt32) : Prop :=
  match piece with
  | .special id _ => part = [id]
  | .plain bytes =>
      ∃ symbols, tokenizer.byteSymbols bytes = .ok symbols ∧
        (if tokenizer.metadata.ignoreMerges.getD false = true then part = symbols
          else tokenizer.mergeSymbols symbols = .ok part)

variable {tokenizer}

/-- A choice along a list takes one of its items. -/
theorem foldl_mem {α : Type*} {step : Option α → α → Option α}
    (hstep : ∀ best entry, step best entry = some entry ∨ step best entry = best) {found : List α}
    {best : Option α} {x : α} (h : found.foldl step best = some x) : x ∈ found ∨ best = some x := by
  induction found generalizing best with
  | nil => exact Or.inr h
  | cons entry rest ih =>
      rw [List.foldl_cons] at h
      rcases ih h with hrest | hfirst
      · exact Or.inl (List.mem_cons_of_mem entry hrest)
      · rcases hstep best entry with hentry | hbest
        · rw [hentry] at hfirst
          exact Or.inl (by rw [Option.some.inj hfirst]; exact List.mem_cons_self)
        · rw [hbest] at hfirst
          exact Or.inr hfirst

theorem longerSpecial_eq (best : Option (UInt32 × Nat)) (entry : UInt32 × Nat) :
    longerSpecial best entry = some entry ∨ longerSpecial best entry = best := by
  cases best with
  | none => exact Or.inl rfl
  | some b =>
      by_cases hlonger : entry.2 ≥ b.2
      · exact Or.inl (if_pos hlonger)
      · exact Or.inr (if_neg hlonger)

/-- A special token is the text at the cursor. -/
theorem specialAt_eq {text : List UInt8} {cursor length : Nat} {id : UInt32}
    (h : tokenizer.specialAt text cursor = some (id, length)) :
    tokenLength tokenizer.metadata.tokenBytes id = length ∧
      ((text.drop cursor).take length).length = length := by
  rcases foldl_mem longerSpecial_eq h with hfound | hnone
  · obtain ⟨id', _, hid'⟩ := List.mem_filterMap.1 hfound
    split at hid'
    next token htoken =>
        split at hid'
        next hprefix =>
            cases hid'
            obtain ⟨later, hlater⟩ := List.isPrefixOf_iff_prefix.1 hprefix
            refine ⟨?_, ?_⟩
            · rw [tokenLength, List.getD_eq_getElem?_getD, TokenizerMetadata.tokenBytes,
                List.getElem?_map, htoken]
              rfl
            · rw [← hlater, List.take_left' rfl]
        next => cases hid'
    next => cases hid'
  · cases hnone

/-- The pieces of a text are the text. -/
theorem pieces_flatten {text : List UInt8} {fuel cursor : Nat} {ps : List Piece}
    (h : tokenizer.pieces text fuel cursor = some ps) :
    (ps.map Piece.bytes).flatten = text.drop cursor := by
  induction fuel generalizing cursor ps with
  | zero =>
      rw [pieces] at h
      split at h
      next hend =>
          cases h
          rw [List.drop_eq_nil_of_le hend]
          rfl
      next => cases h
  | succ fuel ih =>
      rw [pieces] at h
      split at h
      next hend =>
          cases h
          rw [List.drop_eq_nil_of_le hend]
          rfl
      next =>
          split at h
          next id length _ =>
              obtain ⟨rest, hrest, rfl⟩ := Option.map_eq_some_iff.1 h
              rw [List.map_cons, List.flatten_cons, ih hrest]
              show (text.drop cursor).take length ++ _ = _
              rw [← List.drop_drop, List.take_append_drop]
          next =>
              split at h
              next => cases h
              next start stop hfind =>
                  split at h
                  next => cases h
                  next hstart =>
                      rw [not_not] at hstart
                      obtain ⟨rest, hrest, rfl⟩ := Option.map_eq_some_iff.1 h
                      have hlt := tokenizer.pretokenizer.start_lt _ _ _ _ hfind
                      rw [List.map_cons, List.flatten_cons, ih hrest]
                      show (text.drop cursor).take (stop - cursor) ++ _ = _
                      rw [show text.drop stop = (text.drop cursor).drop (stop - cursor) by
                        rw [List.drop_drop, Nat.add_sub_cancel' (by omega)], List.take_append_drop]

/-- What holds of the special tokens found in a text holds of its special pieces. -/
theorem pieces_forall_special {text : List UInt8} {P : UInt32 → List UInt8 → Prop}
    (hP : ∀ cursor id length, tokenizer.specialAt text cursor = some (id, length) →
      P id ((text.drop cursor).take length))
    {fuel cursor : Nat} {ps : List Piece} (h : tokenizer.pieces text fuel cursor = some ps)
    {id : UInt32} {bytes : List UInt8} (hmem : Piece.special id bytes ∈ ps) : P id bytes := by
  induction fuel generalizing cursor ps with
  | zero =>
      rw [pieces] at h
      split at h
      next =>
          cases h
          cases hmem
      next => cases h
  | succ fuel ih =>
      rw [pieces] at h
      split at h
      next =>
          cases h
          cases hmem
      next =>
          split at h
          next hspecial =>
              obtain ⟨rest, hrest, rfl⟩ := Option.map_eq_some_iff.1 h
              rcases List.mem_cons.1 hmem with heq | hmem
              · cases heq
                exact hP _ _ _ hspecial
              · exact ih hrest hmem
          next =>
              split at h
              next => cases h
              next =>
                  split at h
                  next => cases h
                  next =>
                      obtain ⟨rest, hrest, rfl⟩ := Option.map_eq_some_iff.1 h
                      rcases List.mem_cons.1 hmem with heq | hmem
                      · cases heq
                      · exact ih hrest hmem

/-- A special piece is as long as its token. -/
theorem pieces_special {text : List UInt8} {fuel cursor : Nat} {ps : List Piece}
    (h : tokenizer.pieces text fuel cursor = some ps) {id : UInt32} {bytes : List UInt8}
    (hmem : Piece.special id bytes ∈ ps) :
    tokenLength tokenizer.metadata.tokenBytes id = bytes.length := by
  refine pieces_forall_special (P := fun id bytes =>
    tokenLength tokenizer.metadata.tokenBytes id = bytes.length) ?_ h hmem
  intro cursor id length hspecial
  obtain ⟨hlength, hbytes⟩ := specialAt_eq hspecial
  rw [hlength, hbytes]

/-- A text is encoded piece by piece. -/
theorem encodeFrom_pieces {text : List UInt8} {fuel cursor : Nat} {out : List UInt32}
    (h : tokenizer.encodeFrom text fuel cursor = .ok out) :
    ∃ ps parts, tokenizer.pieces text fuel cursor = some ps ∧
      List.Forall₂ tokenizer.PieceTokens ps parts ∧ out = parts.flatten := by
  induction fuel generalizing cursor out with
  | zero =>
      rw [encodeFrom] at h
      rw [pieces]
      split at h
      next hend =>
          cases h
          rw [if_pos hend]
          exact ⟨[], [], rfl, List.Forall₂.nil, rfl⟩
      next => cases h
  | succ fuel ih =>
      rw [encodeFrom] at h
      rw [pieces]
      split at h
      next hend =>
          cases h
          rw [if_pos hend]
          exact ⟨[], [], rfl, List.Forall₂.nil, rfl⟩
      next hend =>
          rw [if_neg hend]
          cases hspecial : tokenizer.specialAt text cursor with
          | some entry =>
              simp only [hspecial] at h
              obtain ⟨rest, hrest, hout⟩ := bind_eq_ok_iff.1 h
              obtain ⟨ps, parts, hps, hparts, rfl⟩ := ih hrest
              simp only [hps]
              refine ⟨_, [entry.1] :: parts, rfl, List.Forall₂.cons rfl hparts, ?_⟩
              exact (Except.ok.inj hout).symm
          | none =>
              simp only [hspecial] at h
              cases hfind : tokenizer.pretokenizer.findAt text cursor with
              | none =>
                  simp only [hfind] at h
                  cases h
              | some piece =>
                  simp only [hfind] at h
                  split at h
                  next => cases h
                  next hstart =>
                      obtain ⟨symbols, hsymbols, h⟩ := bind_eq_ok_iff.1 h
                      obtain ⟨part, hpart, h⟩ := bind_eq_ok_iff.1 h
                      obtain ⟨rest, hrest, hout⟩ := bind_eq_ok_iff.1 h
                      obtain ⟨ps, parts, hps, hparts, rfl⟩ := ih hrest
                      simp only [if_neg hstart, hps]
                      refine ⟨_, part :: parts, rfl, List.Forall₂.cons ?_ hparts, ?_⟩
                      · refine ⟨symbols, hsymbols, ?_⟩
                        split at hpart
                        next hignore =>
                            rw [if_pos hignore]
                            exact (Except.ok.inj hpart).symm
                        next hignore =>
                            rw [if_neg hignore]
                            exact hpart
                      · exact (Except.ok.inj hout).symm

/-- `merge_symbols` reduces the symbols. -/
theorem mergeSymbols_eq_ok_iff {symbols out : List UInt32} :
    tokenizer.mergeSymbols symbols = .ok out ↔
      Reduces (mergeRank tokenizer.metadata.merges) (mergedToken tokenizer.metadata.tokenBytes)
        symbols out :=
  mergeLoop_eq_ok_iff (fun _ => rfl) symbols.length symbols out (Nat.le_succ _)

end Gpt2ByteLevelTokenizer

/-! ### Texts without a zero byte -/

/-- The bytes are run through as a list, not over every byte there is. -/
theorem ne_zero_of_all {texts : List String}
    (h : texts.all (fun text => (utf8 text).all (fun byte => byte != 0)) = true) :
    ∀ text ∈ texts, ∀ byte ∈ utf8 text, byte ≠ 0 := by
  intro text htext byte hbyte
  exact bne_iff_ne.1 (List.all_eq_true.1 (List.all_eq_true.1 h text htext) byte hbyte)

end VBuf.Tokenizer
