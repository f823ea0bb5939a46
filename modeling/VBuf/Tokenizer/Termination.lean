import VBuf.Tokenizer.Agreement
import VBuf.Tokenizer.Merging

/-!
# The loop of the encoder

An iteration of `encode` takes a special token or a match of the regular expression.
The match is never empty, but a special token may be.
-/

namespace VBuf.Tokenizer

open VBuf.Lib

namespace Gpt2ByteLevelTokenizer

variable (tokenizer : Gpt2ByteLevelTokenizer)

/-- One iteration of the loop of `encode`, from a cursor and the tokens so far. -/
def encodeIteration (text : List UInt8) (state : Nat × List UInt32) :
    Iteration (Nat × List UInt32) (Except String (List UInt32)) :=
  if text.length ≤ state.1 then .done (.ok state.2)
  else
    match tokenizer.specialAt text state.1 with
    | some found => .next (state.1 + found.2, state.2 ++ [found.1])
    | none =>
        match tokenizer.pretokenizer.findAt text state.1 with
        | none => .done (.error "GPT-2 pre-tokenization made no progress")
        | some piece =>
            if piece.1 ≠ state.1 then
              .done (.error "GPT-2 pre-tokenizer left an uncovered input span")
            else
              match tokenizer.byteSymbols ((text.drop state.1).take (piece.2 - state.1)) with
              | .error e => .done (.error e)
              | .ok symbols =>
                  match (if tokenizer.metadata.ignoreMerges.getD false = true then .ok symbols
                    else tokenizer.mergeSymbols symbols) with
                  | .error e => .done (.error e)
                  | .ok symbols => .next (piece.2, state.2 ++ symbols)

/-- The texts of the special ids. -/
def specialTexts : List (List UInt8) :=
  (tokenizer.metadata.specialIds.getD []).filterMap fun id =>
    (tokenizer.metadata.texts[id.toNat]?).map utf8

end Gpt2ByteLevelTokenizer

/-- A text is special tokens end to end, each the longest that the rest starts with. -/
inductive CoveredBySpecials (tokens : List (List UInt8)) : List UInt8 → Prop
  | nil : CoveredBySpecials tokens []
  | cons {token rest : List UInt8} (hmem : token ∈ tokens) (hne : token ≠ [])
      (hlongest : ∀ other ∈ tokens, other <+: token ++ rest → other.length ≤ token.length)
      (hrest : CoveredBySpecials tokens rest) : CoveredBySpecials tokens (token ++ rest)

/-! ### The longest special token -/

namespace Gpt2ByteLevelTokenizer

/-- The choice is no shorter than any candidate. -/
theorem foldl_longerSpecial {found : List (UInt32 × Nat)} {best : Option (UInt32 × Nat)} :
    (found.foldl longerSpecial best = none ↔ best = none ∧ found = []) ∧
      ∀ choice, found.foldl longerSpecial best = some choice →
        (∀ b, best = some b → b.2 ≤ choice.2) ∧ ∀ entry ∈ found, entry.2 ≤ choice.2 := by
  induction found generalizing best with
  | nil =>
      refine ⟨by simp, ?_⟩
      rintro choice hchoice
      refine ⟨?_, fun entry hentry => nomatch hentry⟩
      rintro b rfl
      cases hchoice
      exact Nat.le_refl _
  | cons entry rest ih =>
      rw [List.foldl_cons]
      obtain ⟨hnone, hsome⟩ := @ih (longerSpecial best entry)
      have hstep : ∃ b, longerSpecial best entry = some b ∧ entry.2 ≤ b.2 ∧
          ∀ b', best = some b' → b'.2 ≤ b.2 := by
        unfold longerSpecial
        cases best with
        | none => exact ⟨entry, rfl, Nat.le_refl _, fun _ h => nomatch h⟩
        | some b =>
            by_cases hlonger : entry.2 ≥ b.2
            · refine ⟨entry, if_pos hlonger, Nat.le_refl _, ?_⟩
              rintro b' ⟨⟩
              exact hlonger
            · refine ⟨b, if_neg hlonger, by omega, ?_⟩
              rintro b' ⟨⟩
              exact Nat.le_refl _
      obtain ⟨b, hb, hentry, hbest⟩ := hstep
      refine ⟨?_, ?_⟩
      · rw [hnone, hb]
        simp
      · intro choice hchoice
        obtain ⟨hle, hrest⟩ := hsome choice hchoice
        have hfirst := hle b hb
        refine ⟨fun b' hb' => Nat.le_trans (hbest b' hb') hfirst, ?_⟩
        intro other hother
        rcases List.mem_cons.1 hother with rfl | hother
        · omega
        · exact hrest other hother

/-- The special ids whose tokens the rest starts with, and the lengths of these. -/
def candidates (tokenizer : Gpt2ByteLevelTokenizer) (text : List UInt8) (cursor : Nat) :
    List (UInt32 × Nat) :=
  (tokenizer.metadata.specialIds.getD []).filterMap fun id =>
    match tokenizer.metadata.texts[id.toNat]? with
    | some token =>
        if (utf8 token).isPrefixOf (text.drop cursor) then some (id, (utf8 token).length) else none
    | none => none

variable {tokenizer : Gpt2ByteLevelTokenizer} {text : List UInt8} {cursor : Nat}

theorem specialAt_eq_foldl :
    tokenizer.specialAt text cursor =
      (tokenizer.candidates text cursor).foldl longerSpecial none := rfl

theorem specialAt_mem {found : UInt32 × Nat} (h : tokenizer.specialAt text cursor = some found) :
    found ∈ tokenizer.candidates text cursor := by
  rcases foldl_mem longerSpecial_eq h with hmem | hnone
  · exact hmem
  · cases hnone

theorem mem_candidates {length : Nat} :
    (∃ id, (id, length) ∈ tokenizer.candidates text cursor) ↔
      ∃ token ∈ tokenizer.specialTexts, token <+: text.drop cursor ∧ token.length = length := by
  simp only [candidates, List.mem_filterMap, specialTexts]
  constructor
  · rintro ⟨id, id', hid, heq⟩
    split at heq
    next token htoken =>
        split at heq
        next hstarts =>
            cases heq
            exact ⟨utf8 token, ⟨id, hid, by rw [htoken]; rfl⟩,
              List.isPrefixOf_iff_prefix.1 hstarts, rfl⟩
        next => cases heq
    next => cases heq
  · rintro ⟨token, ⟨id, hid, htoken⟩, hstarts, rfl⟩
    obtain ⟨string, hstring, rfl⟩ := Option.map_eq_some_iff.1 htoken
    refine ⟨id, id, hid, ?_⟩
    rw [hstring]
    exact if_pos (List.isPrefixOf_iff_prefix.2 hstarts)

/-- The special token at a cursor is a longest one that the rest starts with. -/
theorem specialAt_longest {found : UInt32 × Nat}
    (h : tokenizer.specialAt text cursor = some found) :
    (∃ token ∈ tokenizer.specialTexts, token <+: text.drop cursor ∧ token.length = found.2) ∧
      ∀ other ∈ tokenizer.specialTexts, other <+: text.drop cursor → other.length ≤ found.2 := by
  refine ⟨mem_candidates.1 ⟨found.1, specialAt_mem h⟩, ?_⟩
  · intro other hother hstarts
    obtain ⟨id, hid⟩ := mem_candidates.2 ⟨other, hother, hstarts, rfl⟩
    exact (foldl_longerSpecial.2 found h).2 _ hid

theorem specialAt_eq_none_iff :
    tokenizer.specialAt text cursor = none ↔
      ∀ other ∈ tokenizer.specialTexts, ¬ other <+: text.drop cursor := by
  rw [specialAt_eq_foldl, foldl_longerSpecial.1]
  constructor
  · rintro ⟨_, hempty⟩ other hother hstarts
    obtain ⟨id, hid⟩ := mem_candidates.2 ⟨other, hother, hstarts, rfl⟩
    rw [hempty] at hid
    cases hid
  · intro hall
    refine ⟨rfl, List.eq_nil_iff_forall_not_mem.2 ?_⟩
    intro entry hentry
    obtain ⟨token, htoken, hstarts, _⟩ := mem_candidates.1 ⟨entry.1, hentry⟩
    exact hall token htoken hstarts

/-! ### Iterations -/

/-- An iteration that goes on takes a special token, or a piece that is not empty. -/
theorem encodeIteration_next {state after : Nat × List UInt32}
    (h : tokenizer.encodeIteration text state = .next after) :
    state.1 < text.length ∧
      ((∃ found, tokenizer.specialAt text state.1 = some found ∧
          after = (state.1 + found.2, state.2 ++ [found.1])) ∨
        tokenizer.specialAt text state.1 = none ∧ state.1 < after.1) := by
  rw [encodeIteration] at h
  split at h
  next => cases h
  next hlt =>
      refine ⟨by omega, ?_⟩
      split at h
      next found hfound =>
          cases h
          exact Or.inl ⟨found, hfound, rfl⟩
      next hnone =>
          refine Or.inr ⟨hnone, ?_⟩
          split at h
          next => cases h
          next piece hpiece =>
              split at h
              next => cases h
              next hstart =>
                  split at h
                  next => cases h
                  next =>
                      split at h
                      next => cases h
                      next =>
                          cases h
                          have hnonempty := tokenizer.pretokenizer.start_lt _ _ _ _ hpiece
                          rw [not_not] at hstart
                          simp only
                          omega

/-- Where a special token is found, the loop goes on. -/
theorem encodeIteration_special {state : Nat × List UInt32} (hlt : state.1 < text.length)
    {found : UInt32 × Nat} (hfound : tokenizer.specialAt text state.1 = some found) :
    tokenizer.encodeIteration text state =
      .next (state.1 + found.2, state.2 ++ [found.1]) := by
  rw [encodeIteration, if_neg (by omega), hfound]

/-! ### The loop and the recursion over the text -/

/-- What an iteration does when tokens stand before its own. -/
def prependTokens (output : List UInt32) :
    Iteration (Nat × List UInt32) (Except String (List UInt32)) →
      Iteration (Nat × List UInt32) (Except String (List UInt32))
  | .next state => .next (state.1, output ++ state.2)
  | .done (.ok tokens) => .done (.ok (output ++ tokens))
  | .done (.error e) => .done (.error e)

/-- What the recursion makes of an iteration. -/
def goOn (encodeRest : Nat → Except String (List UInt32)) :
    Iteration (Nat × List UInt32) (Except String (List UInt32)) → Except String (List UInt32)
  | .done result => result
  | .next after => do
      let rest ← encodeRest after.1
      .ok (after.2 ++ rest)

/-- An iteration only appends to the tokens so far. -/
theorem encodeIteration_prepend (output : List UInt32) :
    tokenizer.encodeIteration text (cursor, output) =
      prependTokens output (tokenizer.encodeIteration text (cursor, [])) := by
  unfold encodeIteration
  simp only
  by_cases hend : text.length ≤ cursor
  · rw [if_pos hend, if_pos hend, prependTokens, List.append_nil]
  · rw [if_neg hend, if_neg hend]
    cases tokenizer.specialAt text cursor with
    | some found => rfl
    | none =>
        cases tokenizer.pretokenizer.findAt text cursor with
        | none => rfl
        | some piece =>
            by_cases hstart : piece.1 ≠ cursor
            · simp only [if_pos hstart, prependTokens]
            · simp only [if_neg hstart]
              cases tokenizer.byteSymbols ((text.drop cursor).take (piece.2 - cursor)) with
              | error e => rfl
              | ok symbols =>
                  simp only
                  cases (if tokenizer.metadata.ignoreMerges.getD false = true then .ok symbols
                    else tokenizer.mergeSymbols symbols) with
                  | error e => rfl
                  | ok symbols => rfl

/-- The recursion makes an iteration and goes on behind it. -/
theorem encodeFrom_succ (fuel : Nat) :
    tokenizer.encodeFrom text (fuel + 1) cursor =
      goOn (tokenizer.encodeFrom text fuel) (tokenizer.encodeIteration text (cursor, [])) := by
  rw [encodeFrom]
  unfold encodeIteration
  simp only
  by_cases hend : text.length ≤ cursor
  · rw [if_pos hend, if_pos hend]
    rfl
  · rw [if_neg hend, if_neg hend]
    cases tokenizer.specialAt text cursor with
    | some found => rfl
    | none =>
        cases tokenizer.pretokenizer.findAt text cursor with
        | none => rfl
        | some piece =>
            simp only
            by_cases hstart : piece.1 ≠ cursor
            · simp only [if_pos hstart]
              rfl
            · simp only [if_neg hstart]
              cases tokenizer.byteSymbols ((text.drop cursor).take (piece.2 - cursor)) with
              | error e => rfl
              | ok symbols =>
                  by_cases hignore : tokenizer.metadata.ignoreMerges.getD false = true
                  · simp only [if_pos hignore]
                    rfl
                  · simp only [if_neg hignore]
                    show (tokenizer.mergeSymbols symbols >>= _) = _
                    cases tokenizer.mergeSymbols symbols with
                    | error e => rfl
                    | ok merged => rfl

theorem returns_of_encodeFrom {fuel : Nat} {out : List UInt32}
    (h : tokenizer.encodeFrom text fuel cursor = .ok out) (output : List UInt32) :
    Returns (tokenizer.encodeIteration text) (cursor, output) (.ok (output ++ out)) := by
  induction fuel generalizing cursor out output with
  | zero =>
      rw [encodeFrom] at h
      split at h
      next hend =>
          cases h
          refine Returns.done ?_
          rw [encodeIteration, if_pos hend, List.append_nil]
      next => cases h
  | succ fuel ih =>
      rw [encodeFrom_succ] at h
      cases hbody : tokenizer.encodeIteration text (cursor, []) with
      | done result =>
          simp only [hbody] at h
          subst h
          refine Returns.done ?_
          rw [encodeIteration_prepend, hbody]
          rfl
      | next after =>
          simp only [hbody] at h
          obtain ⟨rest, hrest, hout⟩ := bind_eq_ok_iff.1 h
          cases hout
          have hnext : tokenizer.encodeIteration text (cursor, output) =
              .next (after.1, output ++ after.2) := by
            rw [encodeIteration_prepend, hbody]
            rfl
          refine Returns.next hnext ?_
          rw [← List.append_assoc]
          exact ih hrest _

theorem encodeFrom_of_returns {fuel : Nat} (hfuel : text.length - cursor ≤ fuel)
    {output result : List UInt32}
    (h : Returns (tokenizer.encodeIteration text) (cursor, output) (.ok result)) :
    ∃ out, tokenizer.encodeFrom text fuel cursor = .ok out ∧ result = output ++ out := by
  induction fuel generalizing cursor output with
  | zero =>
      have hend : text.length ≤ cursor := by omega
      have hdone : tokenizer.encodeIteration text (cursor, output) = .done (.ok output) := by
        rw [encodeIteration, if_pos hend]
      refine ⟨[], ?_, ?_⟩
      · rw [encodeFrom, if_pos hend]
      · rw [List.append_nil]
        exact Except.ok.inj (h.unique (Returns.done hdone))
  | succ fuel ih =>
      rw [encodeFrom_succ]
      have hbody := @encodeIteration_prepend tokenizer text cursor output
      cases hfirst : tokenizer.encodeIteration text (cursor, []) with
      | done first =>
          rw [hfirst] at hbody
          cases first with
          | error e => cases h.unique (Returns.done hbody)
          | ok tokens => exact ⟨tokens, rfl, Except.ok.inj (h.unique (Returns.done hbody))⟩
      | next after =>
          rw [hfirst] at hbody
          have hrest : Returns (tokenizer.encodeIteration text) (after.1, output ++ after.2)
              (.ok result) := by
            cases h with
            | done hdone => cases hbody.symm.trans hdone
            | next hnext hrest =>
                have hsame := Iteration.next.inj (hbody.symm.trans hnext)
                exact hsame ▸ hrest
          have hmoves : cursor < after.1 := by
            obtain ⟨hlt, ⟨found, hfound, rfl⟩ | ⟨_, hmoves⟩⟩ := encodeIteration_next hfirst
            · refine Nat.lt_of_le_of_ne (Nat.le_add_right _ _) fun heq => ?_
              refine not_returns (fun state => state.1 = cursor) ?_ rfl _ h
              rintro ⟨place, tokens⟩ hplace
              have hplace : place = cursor := hplace
              subst hplace
              exact ⟨_, @encodeIteration_special tokenizer text (place, tokens) hlt found hfound,
                heq.symm⟩
            · exact hmoves
          obtain ⟨out, hout, rfl⟩ := ih (by omega) hrest
          refine ⟨after.2 ++ out, ?_, List.append_assoc _ _ _⟩
          rw [goOn, hout]
          rfl

/-- The loop returns the tokens that the recursion over the text gives. -/
theorem encodeFrom_eq_ok_iff_returns {out : List UInt32} :
    tokenizer.encodeFrom text text.length 0 = .ok out ↔
      Returns (tokenizer.encodeIteration text) (0, []) (.ok out) := by
  constructor
  · exact fun h => returns_of_encodeFrom h []
  · intro h
    obtain ⟨out', hout, rfl⟩ := encodeFrom_of_returns (Nat.sub_le _ _) h
    exact hout

/-! ### Empty special tokens -/

/-- With an empty special token, the loop returns only at the end of special tokens. -/
theorem covered_of_returns (hempty : [] ∈ tokenizer.specialTexts) {state : Nat × List UInt32}
    {result : Except String (List UInt32)}
    (h : Returns (tokenizer.encodeIteration text) state result) :
    CoveredBySpecials tokenizer.specialTexts (text.drop state.1) := by
  have hspecial : ∀ cursor, tokenizer.specialAt text cursor ≠ none := by
    intro cursor hnone
    exact specialAt_eq_none_iff.1 hnone [] hempty List.nil_prefix
  induction h with
  | @done state result hdone =>
      rw [encodeIteration] at hdone
      split at hdone
      next hend =>
          rw [List.drop_eq_nil_of_le hend]
          exact CoveredBySpecials.nil
      next =>
          split at hdone
          next => cases hdone
          next hnone => exact absurd hnone (hspecial _)
  | @next state after result hnext _ ih =>
      obtain ⟨_, ⟨found, hfound, rfl⟩ | ⟨hnone, _⟩⟩ := encodeIteration_next hnext
      · obtain ⟨⟨token, htoken, ⟨rest, hrest⟩, hlength⟩, hlongest⟩ := specialAt_longest hfound
        by_cases hzero : token = []
        · -- The iteration went on from the same cursor.
          subst hzero
          rw [← hlength] at ih
          exact ih
        · have hafter : text.drop (state.1 + found.2) = rest := by
            rw [← List.drop_drop, ← hrest, ← hlength, List.drop_left]
          rw [hafter] at ih
          rw [← hrest] at hlongest ⊢
          refine CoveredBySpecials.cons htoken hzero ?_ ih
          intro other hother hstarts
          rw [hlength]
          exact hlongest other hother hstarts
      · exact absurd hnone (hspecial _)

/-- The loop goes along special tokens to the end of the text. -/
theorem returns_of_covered {rest : List UInt8}
    (h : CoveredBySpecials tokenizer.specialTexts rest) {cursor : Nat}
    (hrest : text.drop cursor = rest) (output : List UInt32) :
    ∃ result, Returns (tokenizer.encodeIteration text) (cursor, output) result := by
  induction h generalizing cursor output with
  | nil =>
      refine ⟨.ok output, Returns.done ?_⟩
      rw [encodeIteration, if_pos (List.drop_eq_nil_iff.1 hrest)]
  | @cons token rest hmem hne hlongest _ ih =>
      have hlt : cursor < text.length := by
        refine Nat.lt_of_not_le fun hle => hne ?_
        rw [List.drop_eq_nil_of_le hle] at hrest
        exact (List.append_eq_nil_iff.1 hrest.symm).1
      have hstarts : token <+: text.drop cursor := ⟨rest, hrest.symm⟩
      cases hfound : tokenizer.specialAt text cursor with
      | none => exact absurd hstarts (specialAt_eq_none_iff.1 hfound token hmem)
      | some found =>
          obtain ⟨⟨other, hother, hother_starts, hlength⟩, hfound_longest⟩ :=
            specialAt_longest hfound
          have hle := hfound_longest token hmem hstarts
          have hge := hlongest other hother (hrest ▸ hother_starts)
          have hafter : text.drop (cursor + found.2) = rest := by
            rw [← List.drop_drop, hrest, show found.2 = token.length by omega, List.drop_left]
          obtain ⟨result, hresult⟩ := ih hafter (output ++ [found.1])
          exact ⟨result, Returns.next (encodeIteration_special hlt hfound) hresult⟩

/-- Without an empty special token each iteration moves the cursor. -/
theorem returns_of_nonempty (hnonempty : ∀ token ∈ tokenizer.specialTexts, token ≠ []) :
    ∃ result, Returns (tokenizer.encodeIteration text) (0, []) result := by
  refine exists_returns (fun _ => True) (fun state => text.length - state.1) ?_ _ trivial
  intro state after _ hnext
  refine ⟨trivial, ?_⟩
  obtain ⟨hlt, ⟨found, hfound, rfl⟩ | ⟨_, hmoves⟩⟩ := encodeIteration_next hnext
  · obtain ⟨⟨token, htoken, _, hlength⟩, _⟩ := specialAt_longest hfound
    have hpos := List.length_pos_of_ne_nil (hnonempty token htoken)
    simp only
    omega
  · omega

/-- Merging returns always; `encode` returns exactly when no special token is empty, or
the text is special tokens end to end. -/
theorem encode_returns_iff (tokenizer : Gpt2ByteLevelTokenizer) (text : String) :
    (∃ indexes, RuntimeTokenizerIndexes.build tokenizer.metadata = .ok indexes ∧
      ∀ symbols, ∃ result,
        Returns (indexes.mergeIteration tokenizer.metadata.tokenBytes) symbols result) ∧
    ((∃ result, Returns (tokenizer.encodeIteration (utf8 text)) (0, []) result) ↔
      (∀ token ∈ tokenizer.specialTexts, token ≠ []) ∨
        CoveredBySpecials tokenizer.specialTexts (utf8 text)) := by
  refine ⟨?_, ?_, ?_⟩
  · obtain ⟨indexes, hbuild, htoken, _⟩ := RuntimeTokenizerIndexes.build_spec tokenizer.metadata
    exact ⟨indexes, hbuild, RuntimeTokenizerIndexes.exists_returns_mergeIteration htoken⟩
  · rintro ⟨result, hreturns⟩
    by_cases hempty : [] ∈ tokenizer.specialTexts
    · exact Or.inr (covered_of_returns hempty hreturns)
    · refine Or.inl fun token htoken hnil => hempty (hnil ▸ htoken)
  · rintro (hnonempty | hcovered)
    · exact returns_of_nonempty hnonempty
    · exact returns_of_covered hcovered List.drop_zero []

end Gpt2ByteLevelTokenizer

/-! ### A vocabulary with an empty special token -/

theorem noMerges_le : ([] : List (UInt32 × UInt32)).length ≤ 10000000 := Nat.zero_le _

/-- The first of some tokens is one of them. -/
theorem firstSpecial_lt {texts : List String} (h : 0 < texts.length) (ids : List UInt32)
    (hids : some [0] = some ids) : ∀ id ∈ ids, id.toNat < texts.length := by
  cases hids
  intro id hid
  rw [List.mem_singleton.1 hid]
  exact h

/-- A vocabulary whose first token is empty and special. -/
def emptySpecial : TokenizerMetadata where
  kind := .gpt2BpeByteLevel
  hasModel := true
  preTokenizer := some .gpt2ByteLevel
  texts := ["", "a"]
  merges := []
  bos := none
  unk := none
  specialIds := some [0]
  addBos := some false
  ignoreMerges := some false
  count_le := by decide
  merges_le := noMerges_le
  text_length := by decide +kernel
  text_ne_zero := ne_zero_of_all (by decide +kernel)
  specialIds_lt := firstSpecial_lt (by decide)

/-- The empty special token is taken at the start of a text for ever. -/
theorem encode_emptySpecial :
    ∃ runtime, Gpt2ByteLevelTokenizer.build emptySpecial wholeRest = .ok runtime ∧
      ¬ ∃ result, Returns (runtime.encodeIteration (utf8 "a")) (0, []) result := by
  refine ⟨⟨emptySpecial, wholeRest⟩, rfl, ?_⟩
  rintro ⟨result, hresult⟩
  refine not_returns (fun state => state.1 = 0) ?_ rfl result hresult
  rintro ⟨cursor, output⟩ rfl
  have hfound : Gpt2ByteLevelTokenizer.specialAt ⟨emptySpecial, wholeRest⟩ (utf8 "a") 0 =
      some (0, 0) := by
    decide +kernel
  have hlt : 0 < (utf8 "a").length := by
    decide +kernel
  exact ⟨_, Gpt2ByteLevelTokenizer.encodeIteration_special hlt hfound, rfl⟩

end VBuf.Tokenizer
