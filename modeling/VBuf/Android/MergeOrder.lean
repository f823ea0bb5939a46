import VBuf.Android.ByteBpe
import VBuf.Tokenizer.Agreement

/-!
# The merge order of the Android chat

The table of `ByteBpeTokenizer` gives the entries `2k` and `2k + 1` one rank, so that
of two such pairs the left one is merged first.  As long as no two of them compete,
the tokens of a text are those of `merge_symbols`.
-/

namespace VBuf.Android

open VBuf.Lib VBuf.Tokenizer

namespace ByteBpeTokenizer

variable (tokenizer : ByteBpeTokenizer)

/-- The index of a pair of symbols in the table. -/
def tableRank (left right : List UInt8) : Option Nat :=
  match tokenizer.tokenId left, tokenizer.tokenId right with
  | some left, some right => mergeRank tokenizer.merges left right
  | _, _ => none

/-- Two symbols as one. -/
def joined (left right : List UInt8) : Option (List UInt8) := some (left ++ right)

/-- In no list that merging by table index passes through does a pair of an odd index
stand left of the least pair, when that pair has the index before. -/
def OrderKept (text : List UInt8) : Prop :=
  ∀ symbols, Passes tokenizer.tableRank joined (text.map byteSymbols) symbols →
    TieFree tokenizer.tableRank (· / 2) symbols

/-- Every list that the loop passes through has its least pair in table order. -/
def MergesInTableOrder (text : List UInt8) : Prop :=
  ∀ symbols, Passes tokenizer.rank joined (text.map byteSymbols) symbols →
    LeastAlike tokenizer.rank tokenizer.tableRank symbols

variable {tokenizer}

theorem rank_eq : tokenizer.rank = fun left right => (tokenizer.tableRank left right).map (· / 2) := by
  funext left right
  unfold rank tableRank
  cases tokenizer.tokenId left with
  | none => rfl
  | some leftId =>
      cases tokenizer.tokenId right with
      | none => rfl
      | some rightId => rfl

theorem monotone_half : Monotone fun index : Nat => index / 2 :=
  fun _ _ h => Nat.div_le_div_right h

theorem mergesInTableOrder_iff (text : List UInt8) :
    tokenizer.MergesInTableOrder text ↔ tokenizer.OrderKept text := by
  unfold MergesInTableOrder OrderKept
  rw [rank_eq]
  exact passes_tieFree_iff monotone_half (text.map byteSymbols)

/-- A symbol without a token is never merged. -/
theorem stuck_of_tokenId {symbol : List UInt8} (h : tokenizer.tokenId symbol = none) :
    Stuck tokenizer.tableRank symbol := by
  intro other
  unfold tableRank
  rw [h]
  refine ⟨rfl, ?_⟩
  cases tokenizer.tokenId other with
  | none => rfl
  | some id => rfl

/-! ### Tokens for symbols -/

/-- The text of a token. -/
def tokenText (tokens : List (List UInt8)) (id : UInt32) : List UInt8 :=
  (tokens[id.toNat]?).getD []

/-- A token that its own text is looked up as. -/
def Canonical (tokens : List (List UInt8)) (id : UInt32) : Prop :=
  tokenIndex tokens (tokenText tokens id) = some id

theorem tokenText_of_tokenIndex {tokens : List (List UInt8)} (hcount : tokens.length < 2 ^ 32)
    {symbol : List UInt8} {id : UInt32} (h : tokenIndex tokens symbol = some id) :
    tokenText tokens id = symbol ∧ Canonical tokens id := by
  have htext : tokenText tokens id = symbol := by
    rw [tokenText, tokenIndex_eq hcount h, Option.getD_some]
  refine ⟨htext, ?_⟩
  rw [Canonical, htext]
  exact h

theorem Canonical.getElem? {tokens : List (List UInt8)} (hcount : tokens.length < 2 ^ 32)
    {id : UInt32} (h : Canonical tokens id) : tokens[id.toNat]? = some (tokenText tokens id) :=
  tokenIndex_eq hcount h

/-- Symbols that have tokens are the texts of canonical ones. -/
theorem exists_canonical (hcount : tokenizer.tokens.length < 2 ^ 32) {symbols : List (List UInt8)}
    (h : ∀ symbol ∈ symbols, tokenizer.tokenId symbol ≠ none) :
    ∃ ids : List UInt32, symbols = ids.map (tokenText tokenizer.tokens) ∧
      (∀ id ∈ ids, Canonical tokenizer.tokens id) ∧
      List.Forall₂ (fun symbol id => tokenizer.tokenId symbol = some id) symbols ids := by
  induction symbols with
  | nil => exact ⟨[], rfl, fun id hid => (by cases hid), .nil⟩
  | cons symbol rest ih =>
      obtain ⟨ids, hrest, hcanonical, hids⟩ := ih fun other hother =>
        h other (List.mem_cons_of_mem symbol hother)
      obtain ⟨id, hid⟩ := Option.ne_none_iff_exists'.1 (h symbol List.mem_cons_self)
      obtain ⟨htext, hgood⟩ := tokenText_of_tokenIndex hcount hid
      refine ⟨id :: ids, ?_, ?_, .cons hid hids⟩
      · rw [List.map_cons, htext, hrest]
      · exact List.forall_mem_cons.2 ⟨hgood, hcanonical⟩

theorem canonical_of_mergedToken {tokens : List (List UInt8)} (hcount : tokens.length < 2 ^ 32)
    (a b c : UInt32) (h : mergedToken tokens a b = some c) : Canonical tokens c := by
  unfold mergedToken at h
  split at h
  · exact (tokenText_of_tokenIndex hcount h).2
  · cases h

theorem tokenId_ne_none {symbols : List (List UInt8)} {ids : List UInt32}
    (h : List.Forall₂ (fun symbol id => tokenizer.tokenId symbol = some id) symbols ids) :
    ∀ symbol ∈ symbols, tokenizer.tokenId symbol ≠ none := by
  induction h with
  | nil => exact fun symbol hmem => (by cases hmem)
  | cons hid _ ih =>
      rw [List.forall_mem_cons, hid]
      exact ⟨Option.some_ne_none _, ih⟩

theorem tableRank_tokenText (a b : UInt32) (ha : Canonical tokenizer.tokens a)
    (hb : Canonical tokenizer.tokens b) :
    tokenizer.tableRank (tokenText tokenizer.tokens a) (tokenText tokenizer.tokens b) =
      mergeRank tokenizer.merges a b := by
  unfold tableRank tokenId
  rw [ha, hb]

/-- The text of two tokens is that of the merged token, or has none. -/
theorem joined_tokenText (hcount : tokenizer.tokens.length < 2 ^ 32) (a b : UInt32)
    (c : List UInt8) (ha : Canonical tokenizer.tokens a) (hb : Canonical tokenizer.tokens b)
    (hc : joined (tokenText tokenizer.tokens a) (tokenText tokenizer.tokens b) = some c) :
    (∃ id, mergedToken tokenizer.tokens a b = some id ∧ tokenText tokenizer.tokens id = c ∧
      Canonical tokenizer.tokens id) ∨ tokenizer.tokenId c = none := by
  rw [joined, Option.some.injEq] at hc
  subst hc
  cases hid : tokenizer.tokenId (tokenText tokenizer.tokens a ++ tokenText tokenizer.tokens b) with
  | none => exact Or.inr rfl
  | some id =>
      obtain ⟨htext, hgood⟩ := tokenText_of_tokenIndex hcount hid
      refine Or.inl ⟨id, ?_, htext, hgood⟩
      unfold mergedToken
      rw [ha.getElem? hcount, hb.getElem? hcount]
      exact hid

/-- A reduction of symbols, all of which have tokens in the end, is one of the tokens. -/
theorem reduces_tokens (hcount : tokenizer.tokens.length < 2 ^ 32) {start symbols : List (List UInt8)}
    {rest : List UInt32} (h : Reduces tokenizer.tableRank joined start symbols)
    (hrest : List.Forall₂ (fun symbol id => tokenizer.tokenId symbol = some id) symbols rest) :
    ∃ startIds, List.Forall₂ (fun symbol id => tokenizer.tokenId symbol = some id) start startIds ∧
      Reduces (mergeRank tokenizer.merges) (mergedToken tokenizer.tokens) startIds rest := by
  have hids := tokenId_ne_none hrest
  -- a symbol without a token would be left
  have hstart : ∀ symbol ∈ start, tokenizer.tokenId symbol ≠ none := by
    intro symbol hmem hnone
    exact hids symbol ((stuck_of_tokenId hnone).mem h hmem) hnone
  obtain ⟨startIds, hmap, hcanonical, hstartIds⟩ := exists_canonical hcount hstart
  have hlost : ∀ symbol, tokenizer.tokenId symbol = none → Stuck tokenizer.tableRank symbol :=
    fun _ => stuck_of_tokenId
  obtain ⟨ids, hout, hreduces⟩ := h.of_map hlost tableRank_tokenText (joined_tokenText hcount) hmap
    hcanonical hids
  have hgood := hreduces.forall_mem (canonical_of_mergedToken hcount) hcanonical
  have hsame : List.Forall₂ (fun symbol id => tokenizer.tokenId symbol = some id) symbols ids := by
    rw [hout, List.forall₂_map_left_iff, List.forall₂_same]
    exact hgood
  have hunique : Relator.RightUnique fun symbol id => tokenizer.tokenId symbol = some id := by
    intro symbol id id' hid hid'
    exact Option.some.inj (hid.symm.trans hid')
  rw [List.right_unique_forall₂' hunique hrest hsame]
  exact ⟨startIds, hstartIds, hreduces⟩

/-- The loop merges in table order exactly when the order is kept, and then the tokens
behind the leading one are those of `merge_symbols`. -/
theorem encode_in_table_order (metadata : TokenizerMetadata) (pretokenizer : PreTokenizer)
    (text : List UInt8) (ids : List UInt32) (h : (ofMetadata metadata).encode text = .ok ids) :
    ((ofMetadata metadata).MergesInTableOrder text ↔ (ofMetadata metadata).OrderKept text) ∧
      ((ofMetadata metadata).OrderKept text →
        ∃ symbols merged, Gpt2ByteLevelTokenizer.byteSymbols ⟨metadata, pretokenizer⟩ text =
            .ok symbols ∧
          Gpt2ByteLevelTokenizer.mergeSymbols ⟨metadata, pretokenizer⟩ symbols = .ok merged ∧
          ids = (ofMetadata metadata).leading ++ merged) := by
  refine ⟨mergesInTableOrder_iff text, ?_⟩
  intro hkept
  have hcount : (ofMetadata metadata).tokens.length < 2 ^ 32 := metadata.tokenBytes_length_lt
  obtain ⟨symbols, rest, hreduces, hrest, rfl⟩ :=
    (@encode_eq_ok_iff (ofMetadata metadata) metadata.merges_le text ids).1 h
  rw [rank_eq] at hreduces
  have htable := hreduces.of_coarser monotone_half hkept
  obtain ⟨symbols, hsymbols, hids⟩ := reduces_tokens hcount htable hrest
  refine ⟨symbols, rest, ?_, Gpt2ByteLevelTokenizer.mergeSymbols_eq_ok_iff.2 hids, rfl⟩
  rw [Gpt2ByteLevelTokenizer.byteSymbols, mapM_eq_ok_iff]
  rw [List.forall₂_map_left_iff] at hsymbols
  refine hsymbols.imp ?_
  intro byte id hid
  rw [okOr_eq_ok_iff, ← byteSymbols_eq]
  exact hid

end ByteBpeTokenizer

/-! ### Two entries that compete -/

theorem fiveTexts_length : ∀ text ∈ ["a", "b", "c", "ab", "bc"], (utf8 text).length ≤ 4096 := by
  decide

theorem fiveTexts_ne_zero :
    ∀ text ∈ ["a", "b", "c", "ab", "bc"], ∀ byte ∈ utf8 text, byte ≠ 0 :=
  ne_zero_of_all (by decide)

theorem fiveTexts_count : ["a", "b", "c", "ab", "bc"].length ≤ 10000000 := by
  decide

theorem twoMerges_le : ([(1, 2), (0, 1)] : List (UInt32 × UInt32)).length ≤ 10000000 := by
  decide

/-- Three letters, of which the last two are merged first. -/
def competing : TokenizerMetadata where
  kind := .gpt2BpeByteLevel
  hasModel := true
  preTokenizer := some .gpt2ByteLevel
  texts := ["a", "b", "c", "ab", "bc"]
  merges := [(1, 2), (0, 1)]
  bos := none
  unk := none
  specialIds := none
  addBos := some false
  ignoreMerges := some false
  count_le := fiveTexts_count
  merges_le := twoMerges_le
  text_length := fiveTexts_length
  text_ne_zero := fiveTexts_ne_zero
  specialIds_lt := noIds_lt _

/-- The pair of index 0 stands left of the pair of index 1. -/
theorem orderKept_competing : (ByteBpeTokenizer.ofMetadata competing).OrderKept (utf8 "bcab") := by
  intro symbols hpasses
  rw [List.map_congr_left fun byte _ => byteSymbols_eq byte] at hpasses
  rcases hpasses.eq_or_next 0 0 (by decide) rfl rfl rfl with rfl | hpasses
  · exact tieFree_of_leftmostMin (by decide)
  rcases hpasses.eq_or_next 1 1 (by decide) rfl rfl rfl with rfl | hpasses
  · exact tieFree_of_leftmostMin (by decide)
  obtain rfl := hpasses.eq_of_none (by decide)
  exact tieFree_of_leftmostMin (by decide)

theorem encode_competing_kept :
    (ByteBpeTokenizer.ofMetadata competing).encode (utf8 "bcab") = .ok [4, 3] ∧
      (ByteBpeTokenizer.ofMetadata competing).MergesInTableOrder (utf8 "bcab") ∧
      ∃ symbols merged,
        Gpt2ByteLevelTokenizer.byteSymbols ⟨competing, wholeRest⟩ (utf8 "bcab") = .ok symbols ∧
        Gpt2ByteLevelTokenizer.mergeSymbols ⟨competing, wholeRest⟩ symbols = .ok merged ∧
        [4, 3] = (ByteBpeTokenizer.ofMetadata competing).leading ++ merged := by
  have hencode : (ByteBpeTokenizer.ofMetadata competing).encode (utf8 "bcab") = .ok [4, 3] := by
    rw [ByteBpeTokenizer.encode_byteSymbol]
    decide
  obtain ⟨horder, htokens⟩ :=
    ByteBpeTokenizer.encode_in_table_order competing wholeRest (utf8 "bcab") [4, 3] hencode
  exact ⟨hencode, horder.2 orderKept_competing, htokens orderKept_competing⟩

/-- The pair of index 1 is merged before the pair of index 0. -/
theorem encode_competing :
    (ByteBpeTokenizer.ofMetadata competing).encode (utf8 "abc") = .ok [3, 2] ∧
      (ByteBpeTokenizer.ofMetadata competing).leading = [] ∧
      Gpt2ByteLevelTokenizer.byteSymbols ⟨competing, wholeRest⟩ (utf8 "abc") = .ok [0, 1, 2] ∧
      Gpt2ByteLevelTokenizer.mergeSymbols ⟨competing, wholeRest⟩ [0, 1, 2] = .ok [0, 4] := by
  rw [ByteBpeTokenizer.encode_byteSymbol]
  decide

end VBuf.Android
