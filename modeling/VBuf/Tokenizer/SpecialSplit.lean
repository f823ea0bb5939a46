import VBuf.Tokenizer.Gpt2Pattern
import VBuf.Tokenizer.RoundTrip

/-!
# Special tokens between two texts

Special tokens are looked for between pieces only.  When the regular expression ends a
piece where a special token starts, the texts around it are encoded on their own.
-/

namespace VBuf.Tokenizer

open VBuf.Lib

namespace Gpt2ByteLevelTokenizer

variable (tokenizer : Gpt2ByteLevelTokenizer)

/-! ### Encoding as a relation -/

/-- The tokens of a text from a cursor on. -/
inductive EncodesFrom (text : List UInt8) : Nat → List UInt32 → Prop
  | done {cursor : Nat} (h : text.length ≤ cursor) : EncodesFrom text cursor []
  | special {cursor length : Nat} {id : UInt32} {rest : List UInt32} (hlt : cursor < text.length)
      (h : tokenizer.specialAt text cursor = some (id, length))
      (hrest : EncodesFrom text (cursor + length) rest) : EncodesFrom text cursor (id :: rest)
  | piece {cursor stop : Nat} {part rest : List UInt32} (hlt : cursor < text.length)
      (hnone : tokenizer.specialAt text cursor = none)
      (hfind : tokenizer.pretokenizer.findAt text cursor = some (cursor, stop))
      (hpart : tokenizer.PieceTokens (.plain ((text.drop cursor).take (stop - cursor))) part)
      (hrest : EncodesFrom text stop rest) : EncodesFrom text cursor (part ++ rest)

/-- The id of a special token: the last special id of its text. -/
def specialId (s : String) : Option UInt32 :=
  (tokenizer.metadata.specialIds.getD []).reverse.find? fun id =>
    tokenizer.metadata.texts[id.toNat]? = some s

variable {tokenizer}

theorem encodesFrom_of_encodeFrom {text : List UInt8} {fuel cursor : Nat} {out : List UInt32}
    (h : tokenizer.encodeFrom text fuel cursor = .ok out) : tokenizer.EncodesFrom text cursor out := by
  induction fuel generalizing cursor out with
  | zero =>
      rw [encodeFrom] at h
      split at h
      next hend =>
          cases h
          exact .done hend
      next => cases h
  | succ fuel ih =>
      rw [encodeFrom] at h
      split at h
      next hend =>
          cases h
          exact .done hend
      next hend =>
          cases hspecial : tokenizer.specialAt text cursor with
          | some entry =>
              simp only [hspecial] at h
              obtain ⟨rest, hrest, hout⟩ := bind_eq_ok_iff.1 h
              rw [← Except.ok.inj hout]
              exact .special (Nat.lt_of_not_le hend) hspecial (ih hrest)
          | none =>
              simp only [hspecial] at h
              cases hfind : tokenizer.pretokenizer.findAt text cursor with
              | none =>
                  simp only [hfind] at h
                  cases h
              | some found =>
                  simp only [hfind] at h
                  split at h
                  next => cases h
                  next hstart =>
                      rw [not_not] at hstart
                      obtain ⟨symbols, hsymbols, h⟩ := bind_eq_ok_iff.1 h
                      obtain ⟨part, hpart, h⟩ := bind_eq_ok_iff.1 h
                      obtain ⟨rest, hrest, hout⟩ := bind_eq_ok_iff.1 h
                      rw [← Except.ok.inj hout]
                      refine .piece (Nat.lt_of_not_le hend) hspecial ?_ ?_ (ih hrest)
                      · rw [hfind, ← hstart]
                      · refine ⟨symbols, hsymbols, ?_⟩
                        split at hpart
                        next hignore =>
                            rw [if_pos hignore]
                            exact (Except.ok.inj hpart).symm
                        next hignore =>
                            rw [if_neg hignore]
                            exact hpart

theorem PieceTokens.unique {piece : Piece} {part part' : List UInt32}
    (h : tokenizer.PieceTokens piece part) (h' : tokenizer.PieceTokens piece part') :
    part = part' := by
  cases piece with
  | special id bytes => exact h.trans h'.symm
  | plain bytes =>
      obtain ⟨symbols, hsymbols, hpart⟩ := h
      obtain ⟨symbols', hsymbols', hpart'⟩ := h'
      rw [hsymbols, Except.ok.injEq] at hsymbols'
      subst hsymbols'
      split at hpart
      next hignore =>
          rw [if_pos hignore] at hpart'
          rw [hpart, hpart']
      next hignore =>
          rw [if_neg hignore, hpart, Except.ok.injEq] at hpart'
          exact hpart'

/-- A text has one encoding. -/
theorem EncodesFrom.unique {text : List UInt8} {cursor : Nat} {out out' : List UInt32}
    (h : tokenizer.EncodesFrom text cursor out) (h' : tokenizer.EncodesFrom text cursor out') :
    out = out' := by
  induction h generalizing out' with
  | done hend =>
      cases h' with
      | done _ => rfl
      | special hlt _ _ => omega
      | piece hlt _ _ _ _ => omega
  | special hlt hspecial _ ih =>
      cases h' with
      | done hend => omega
      | special _ hspecial' hrest' =>
          rw [hspecial, Option.some.injEq, Prod.mk.injEq] at hspecial'
          obtain ⟨rfl, rfl⟩ := hspecial'
          rw [ih hrest']
      | piece _ hnone _ _ _ =>
          rw [hspecial] at hnone
          cases hnone
  | piece hlt hnone hfind hpart _ ih =>
      cases h' with
      | done hend => omega
      | special _ hspecial _ =>
          rw [hnone] at hspecial
          cases hspecial
      | piece _ _ hfind' hpart' hrest' =>
          rw [hfind, Option.some.injEq, Prod.mk.injEq] at hfind'
          obtain ⟨-, rfl⟩ := hfind'
          rw [hpart.unique hpart', ih hrest']

/-! ### The special token -/

/-- The choice is the last of the candidates of a length that none exceeds. -/
theorem foldl_longerSpecial_eq {found : List (UInt32 × Nat)} {length : Nat}
    (hle : ∀ entry ∈ found, entry.2 ≤ length) (hmem : ∃ entry ∈ found, entry.2 = length) :
    found.foldl longerSpecial none = found.reverse.find? (fun entry => entry.2 = length) := by
  induction found using List.reverseRecOn with
  | nil =>
      obtain ⟨entry, hentry, -⟩ := hmem
      cases hentry
  | append_singleton front last ih =>
      rw [List.foldl_append, List.foldl_cons, List.foldl_nil, List.reverse_append,
        List.reverse_singleton, List.singleton_append, List.find?_cons]
      by_cases hlast : last.2 = length
      · rw [decide_eq_true hlast]
        cases hchoice : front.foldl longerSpecial none with
        | none => rfl
        | some choice =>
            have hchosen := (foldl_mem longerSpecial_eq hchoice).resolve_right (fun h => by cases h)
            have hshorter := hle choice (List.mem_append_left [last] hchosen)
            exact if_pos (by omega)
      · rw [decide_eq_false hlast]
        obtain ⟨entry, hentry, hlength⟩ := hmem
        have hfront : entry ∈ front := by
          rcases List.mem_append.1 hentry with hfront | hsame
          · exact hfront
          · rw [List.mem_singleton.1 hsame] at hlength
            exact absurd hlength hlast
        have hchoice := ih (fun entry hentry => hle entry (List.mem_append_left [last] hentry))
          ⟨entry, hfront, hlength⟩
        have hshorter := hle last (List.mem_append_right front List.mem_cons_self)
        rw [hchoice]
        cases hfound : front.reverse.find? (fun entry => entry.2 = length) with
        | none =>
            have hnone := List.find?_eq_none.1 hfound entry (List.mem_reverse.2 hfront)
            rw [decide_eq_true hlength] at hnone
            exact absurd rfl hnone
        | some choice =>
            have hlong := List.find?_some hfound
            rw [decide_eq_true_eq] at hlong
            exact if_neg (by omega)

/-- Of one length, the candidates are the ids of the text. -/
theorem find?_candidates {text : List UInt8} {cursor : Nat} {s : String}
    (hstarts : utf8 s <+: text.drop cursor) (ids : List UInt32) :
    (ids.filterMap fun id =>
      match tokenizer.metadata.texts[id.toNat]? with
      | some token => if (utf8 token).isPrefixOf (text.drop cursor) then
          some (id, (utf8 token).length) else none
      | none => none).find? (fun entry => entry.2 = (utf8 s).length) =
      (ids.find? fun id => tokenizer.metadata.texts[id.toNat]? = some s).map
        (·, (utf8 s).length) := by
  induction ids with
  | nil => rfl
  | cons other rest ih =>
      rw [List.filterMap_cons, List.find?_cons]
      cases htoken : tokenizer.metadata.texts[other.toNat]? with
      | none =>
          rw [decide_eq_false (by simp)]
          exact ih
      | some token =>
          simp only
          by_cases hsame : token = s
          · subst hsame
            rw [if_pos (List.isPrefixOf_iff_prefix.2 hstarts), decide_eq_true rfl]
            simp only [List.find?_cons, decide_true, Option.map_some]
          · rw [decide_eq_false (by simpa using hsame)]
            split
            next hother => exact ih
            next found hother =>
                split at hother
                next hprefix =>
                    cases hother
                    -- a text of the same length in the same place is the same
                    have hne : ¬ (utf8 token).length = (utf8 s).length := by
                      intro hlength
                      refine hsame (utf8_injective ?_)
                      have hle := List.prefix_of_prefix_length_le
                        (List.isPrefixOf_iff_prefix.1 hprefix) hstarts (Nat.le_of_eq hlength)
                      exact hle.eq_of_length hlength
                    simp only [List.find?_cons, hne, decide_false]
                    exact ih
                next => cases hother

/-- Where a special token starts and none longer does, its id is found. -/
theorem specialAt_specialId {text : List UInt8} {cursor : Nat} {s : String} {id : UInt32}
    (hid : tokenizer.specialId s = some id) (hstarts : utf8 s <+: text.drop cursor)
    (hlongest : ∀ token ∈ tokenizer.specialTexts, token <+: text.drop cursor →
      token.length ≤ (utf8 s).length) :
    tokenizer.specialAt text cursor = some (id, (utf8 s).length) := by
  have htext : tokenizer.metadata.texts[id.toNat]? = some s := by
    simpa using List.find?_some hid
  have hmem : id ∈ tokenizer.metadata.specialIds.getD [] :=
    List.mem_reverse.1 (List.mem_of_find?_eq_some hid)
  have hcandidate : (id, (utf8 s).length) ∈ tokenizer.candidates text cursor := by
    rw [candidates, List.mem_filterMap]
    refine ⟨id, hmem, ?_⟩
    rw [htext]
    exact if_pos (List.isPrefixOf_iff_prefix.2 hstarts)
  rw [specialAt_eq_foldl, @foldl_longerSpecial_eq _ (utf8 s).length]
  · rw [candidates, ← List.filterMap_reverse]
    refine (find?_candidates hstarts _).trans ?_
    rw [specialId] at hid
    rw [hid, Option.map_some]
  · intro entry hentry
    obtain ⟨token, htoken, hprefix, hlength⟩ := mem_candidates.1 ⟨entry.1, hentry⟩
    rw [← hlength]
    exact hlongest token htoken hprefix
  · exact ⟨_, hcandidate, rfl⟩

end Gpt2ByteLevelTokenizer

/-! ### Where the pattern cuts -/

/-- From a cursor on, matches follow each other up to a position. -/
inductive Cuts (pretokenizer : PreTokenizer) (text : List UInt8) (position : Nat) : Nat → Prop
  | done : Cuts pretokenizer text position position
  | step {cursor next : Nat} (hfind : pretokenizer.findAt text cursor = some (cursor, next))
      (hrest : Cuts pretokenizer text position next) : Cuts pretokenizer text position cursor

theorem Cuts.le {pretokenizer : PreTokenizer} {text : List UInt8} {position cursor : Nat}
    (h : Cuts pretokenizer text position cursor) : cursor ≤ position := by
  induction h with
  | done => exact Nat.le_refl position
  | step hfind _ ih =>
      have hlt := pretokenizer.start_lt _ _ _ _ hfind
      omega

namespace Gpt2ByteLevelTokenizer

variable {classes : CharClasses} {metadata : TokenizerMetadata}

/-- Up to a cut, a text without special tokens is encoded as it is alone. -/
theorem EncodesFrom.front {front later : List Char} {cursor : Nat} {rest : List Char}
    (hcut : Cuts (gpt2PreTokenizer classes) (bytesOf (front ++ later)) (bytesOf front).length cursor)
    (hrest : ∃ done, front = done ++ rest ∧ cursor = (bytesOf done).length)
    (hnone : ∀ position < (bytesOf front).length, ∀ token ∈ (Gpt2ByteLevelTokenizer.specialTexts
      ⟨metadata, gpt2PreTokenizer classes⟩), ¬ token <+: (bytesOf (front ++ later)).drop position)
    {out outLater : List UInt32}
    (hfront : EncodesFrom ⟨metadata, gpt2PreTokenizer classes⟩ (bytesOf front) cursor out)
    (hlater : EncodesFrom ⟨metadata, gpt2PreTokenizer classes⟩ (bytesOf (front ++ later))
      (bytesOf front).length outLater) :
    EncodesFrom ⟨metadata, gpt2PreTokenizer classes⟩ (bytesOf (front ++ later)) cursor
      (out ++ outLater) := by
  induction hcut generalizing rest out with
  | done =>
      cases hfront with
      | done _ => exact hlater
      | special hlt _ _ => exact absurd hlt (Nat.lt_irrefl _)
      | piece hlt _ _ _ _ => exact absurd hlt (Nat.lt_irrefl _)
  | @step cursor next hfind hcut ih =>
      obtain ⟨done, rfl, rfl⟩ := hrest
      have hnext := hcut.le
      have hlt := (gpt2PreTokenizer classes).start_lt _ _ _ _ hfind
      have halone : (bytesOf (done ++ rest)).drop (bytesOf done).length = bytesOf rest := by
        rw [bytesOf_append, List.drop_left]
      have hlonger : (bytesOf (done ++ rest ++ later)).drop (bytesOf done).length =
          bytesOf (rest ++ later) := by
        rw [List.append_assoc, bytesOf_append, List.drop_left]
      rw [bytesOf_append, List.length_append] at hnext
      obtain ⟨n, hn, rfl, hsame⟩ := gpt2FindAt_front halone hlonger hnext hfind
      have hcursor : (bytesOf done).length < (bytesOf (done ++ rest)).length := by
        rw [bytesOf_append, List.length_append]
        omega
      have hno := hnone _ hcursor
      cases hfront with
      | done hend => omega
      | special _ hspecial _ =>
          -- a special token of the text alone would be one of the longer text
          obtain ⟨token, htoken, hstarts, -⟩ := (specialAt_longest hspecial).1
          rw [halone] at hstarts
          refine absurd ?_ (hno token htoken)
          rw [hlonger, bytesOf_append]
          exact hstarts.trans (List.prefix_append _ _)
      | piece _ _ hfind' hpart hpieces =>
          rw [show (gpt2PreTokenizer classes).findAt = gpt2FindAt classes from rfl, hsame,
            Option.some.injEq, Prod.mk.injEq] at hfind'
          obtain ⟨-, rfl⟩ := hfind'
          rw [List.append_assoc _ _ outLater]
          have hbehind : ∃ done', done ++ rest = done' ++ rest.drop n ∧
              (bytesOf done).length + (bytesOf (rest.take n)).length = (bytesOf done').length := by
            refine ⟨done ++ rest.take n, ?_, ?_⟩
            · rw [List.append_assoc, List.take_append_drop]
            · rw [bytesOf_append, List.length_append]
          refine .piece ?_ (specialAt_eq_none_iff.2 hno) hfind ?_ (ih hbehind hpieces)
          · rw [bytesOf_append, List.length_append]
            omega
          · rw [halone] at hpart
            rw [hlonger, bytesOf_append, List.take_append_of_le_length]
            · exact hpart
            · omega

theorem specialAt_behind (tokenizer : Gpt2ByteLevelTokenizer) (front text : List UInt8)
    (cursor : Nat) :
    tokenizer.specialAt (front ++ text) (front.length + cursor) = tokenizer.specialAt text cursor := by
  unfold specialAt
  rw [List.drop_append, List.drop_eq_nil_of_le (Nat.le_add_right _ _), List.nil_append,
    Nat.add_sub_cancel_left]

/-- What is in front of a text does not change its encoding. -/
theorem EncodesFrom.behind (front : List UInt8) {text : List UInt8} {cursor : Nat}
    {out : List UInt32}
    (h : EncodesFrom ⟨metadata, gpt2PreTokenizer classes⟩ text cursor out) :
    EncodesFrom ⟨metadata, gpt2PreTokenizer classes⟩ (front ++ text) (front.length + cursor) out := by
  induction h with
  | done hend => exact .done (by rw [List.length_append]; omega)
  | special hlt hspecial _ ih =>
      refine .special (by rw [List.length_append]; omega) ?_ (by rw [Nat.add_assoc]; exact ih)
      rw [specialAt_behind, hspecial]
  | @piece cursor stop part rest hlt hnone hfind hpart _ ih =>
      refine .piece (by rw [List.length_append]; omega) ?_ ?_ ?_ ih
      · rw [specialAt_behind, hnone]
      · show gpt2FindAt classes _ _ = _
        have hfind' : gpt2FindAt classes text cursor = some (cursor, stop) := hfind
        rw [gpt2FindAt_behind, hfind', Option.map_some]
      · rw [List.drop_append, List.drop_eq_nil_of_le (Nat.le_add_right _ _), List.nil_append,
          Nat.add_sub_cancel_left, show front.length + stop - (front.length + cursor) =
            stop - cursor by omega]
        exact hpart

/-- Without an automatic token in front, a text is encoded from its start. -/
theorem encodesFrom_of_encode {tokenizer : Gpt2ByteLevelTokenizer}
    (hbos : tokenizer.metadata.addBos ≠ some true ∨ tokenizer.metadata.bos = none)
    {text : List UInt8} {out : List UInt32} (h : tokenizer.encode text = .ok out) :
    tokenizer.EncodesFrom text 0 out := by
  obtain ⟨output, houtput, hout⟩ := bind_eq_ok_iff.1 h
  split at hout
  next hadd hsome =>
      rcases hbos with hno | hno
      · exact absurd hadd hno
      · rw [hsome] at hno
        cases hno
  next =>
      rw [← Except.ok.inj hout]
      exact encodesFrom_of_encodeFrom houtput

/-! ### Back from the tokens -/

/-- Without special tokens, the tokens have as many characters as the text has bytes. -/
theorem EncodesFrom.characters_length {tokenizer : Gpt2ByteLevelTokenizer} {text : List UInt8}
    {cursor : Nat} {out : List UInt32} (h : tokenizer.EncodesFrom text cursor out)
    (hcursor : cursor ≤ text.length)
    (hnone : ∀ position < text.length, tokenizer.specialAt text position = none) :
    (out.flatMap tokenizer.characters).length = text.length - cursor := by
  induction h with
  | done hend => exact (Nat.sub_eq_zero_of_le hend).symm
  | special hlt hspecial _ _ =>
      rw [hnone _ hlt] at hspecial
      cases hspecial
  | piece hlt _ hfind hpart _ ih =>
      have hstart := tokenizer.pretokenizer.start_lt _ _ _ _ hfind
      have hstop := tokenizer.pretokenizer.stop_le _ _ _ _ hfind
      rw [List.flatMap_append, List.length_append, ih hstop, (pieceTokens_characters hpart).2,
        List.length_map, List.length_take, List.length_drop]
      omega

/-- A token that no piece has ends the pieces where the characters before it end. -/
theorem EncodesFrom.cuts {tokenizer : Gpt2ByteLevelTokenizer} {text : List UInt8}
    {cursor position : Nat} {id : UInt32} {out before after : List UInt32}
    (h : tokenizer.EncodesFrom text cursor out) (hout : out = before ++ id :: after)
    (hplain : ∀ bytes part, tokenizer.PieceTokens (.plain bytes) part → id ∉ part)
    (hnone : ∀ p < position, tokenizer.specialAt text p = none) (hcursor : cursor ≤ position)
    (hbefore : (before.flatMap tokenizer.characters).length = position - cursor) :
    Cuts tokenizer.pretokenizer text position cursor := by
  induction h generalizing before with
  | done _ => simp at hout
  | special _ hspecial _ _ =>
      -- special tokens start at the position or behind it
      rcases Nat.lt_or_eq_of_le hcursor with hlt | rfl
      · rw [hnone _ hlt] at hspecial
        cases hspecial
      · exact .done
  | @piece cursor stop part rest _ _ hfind hpart _ ih =>
      have hstart := tokenizer.pretokenizer.start_lt _ _ _ _ hfind
      have hstop := tokenizer.pretokenizer.stop_le _ _ _ _ hfind
      obtain ⟨later, rfl, hrest⟩ : ∃ later, before = part ++ later ∧ rest = later ++ id :: after := by
        rcases List.append_eq_append_iff.1 hout with ⟨later, hbefore', hrest⟩ | ⟨later, hpart', hid⟩
        · exact ⟨later, hbefore', hrest⟩
        · cases later with
          | nil => exact ⟨[], by simpa using hpart'.symm, by simpa using hid.symm⟩
          | cons first later =>
              rw [List.cons_append, List.cons.injEq] at hid
              refine absurd ?_ (hplain _ _ hpart)
              rw [hpart', ← hid.1]
              exact List.mem_append_right _ List.mem_cons_self
      rw [List.flatMap_append, List.length_append, (pieceTokens_characters hpart).2,
        List.length_map, List.length_take, List.length_drop] at hbefore
      exact .step hfind (ih hrest (by omega) (by omega))

/-- A special token without text is found again and again. -/
theorem EncodesFrom.ne_zero {tokenizer : Gpt2ByteLevelTokenizer} {text : List UInt8} {cursor : Nat}
    {id : UInt32} {out : List UInt32} (h : tokenizer.EncodesFrom text cursor out)
    (hlt : cursor < text.length) : tokenizer.specialAt text cursor ≠ some (id, 0) := by
  intro hzero
  cases h with
  | done hend => omega
  | special _ hspecial hrest =>
      rw [hzero, Option.some.injEq, Prod.mk.injEq] at hspecial
      obtain ⟨rfl, rfl⟩ := hspecial
      have hsame := (EncodesFrom.special hlt hzero hrest).unique hrest
      exact absurd (congrArg List.length hsame) (by rw [List.length_cons]; omega)
  | piece _ hnone _ _ _ =>
      rw [hzero] at hnone
      cases hnone

theorem mem_specialTexts {tokenizer : Gpt2ByteLevelTokenizer} {s : String} {id : UInt32}
    (hid : tokenizer.specialId s = some id) : utf8 s ∈ tokenizer.specialTexts := by
  have htext : tokenizer.metadata.texts[id.toNat]? = some s := by
    simpa using List.find?_some hid
  rw [specialTexts, List.mem_filterMap]
  exact ⟨id, List.mem_reverse.1 (List.mem_of_find?_eq_some hid), by rw [htext]; rfl⟩

/-! ### The texts around a special token -/

section Around

variable {tokenizer : Gpt2ByteLevelTokenizer} {a s b : String} {id : UInt32}
  {before after out : List UInt32}

theorem drop_around (a s b : String) :
    (utf8 (a ++ s ++ b)).drop (utf8 a).length = utf8 (s ++ b) := by
  simp only [utf8_eq_bytesOf, String.append_assoc, String.toList_append, bytesOf_append,
    List.drop_left]

/-- When the regular expression cuts the text where the special token starts, the tokens
are those of what is before, the special token, and those of what is behind. -/
theorem encode_of_cuts
    (hbos : metadata.addBos ≠ some true ∨ metadata.bos = none)
    (hid : specialId ⟨metadata, gpt2PreTokenizer classes⟩ s = some id)
    (hfirst : ∀ position < (utf8 a).length, ∀ token ∈ specialTexts
      ⟨metadata, gpt2PreTokenizer classes⟩, ¬ token <+: (utf8 (a ++ s ++ b)).drop position)
    (hlongest : ∀ token ∈ specialTexts ⟨metadata, gpt2PreTokenizer classes⟩,
      token <+: utf8 (s ++ b) → token.length ≤ (utf8 s).length)
    (hbefore : encode ⟨metadata, gpt2PreTokenizer classes⟩ (utf8 a) = .ok before)
    (hafter : encode ⟨metadata, gpt2PreTokenizer classes⟩ (utf8 b) = .ok after)
    (hout : encode ⟨metadata, gpt2PreTokenizer classes⟩ (utf8 (a ++ s ++ b)) = .ok out)
    (hs : s ≠ "")
    (hcut : Cuts (gpt2PreTokenizer classes) (utf8 (a ++ s ++ b)) (utf8 a).length 0) :
    out = before ++ id :: after := by
  have htext : utf8 (a ++ s ++ b) = bytesOf (a.toList ++ (s ++ b).toList) := by
    rw [utf8_eq_bytesOf, String.append_assoc, String.toList_append]
  have hrest := drop_around a s b
  have hsplit : utf8 (a ++ s ++ b) = utf8 (a ++ s) ++ utf8 b := by
    simp only [utf8_eq_bytesOf, String.toList_append, bytesOf_append]
  have hlength : (utf8 (a ++ s)).length = (utf8 a).length + (utf8 s).length := by
    simp only [utf8_eq_bytesOf, String.toList_append, bytesOf_append, List.length_append]
  have hpos : 0 < (utf8 s).length := by
    refine List.length_pos_iff.2 (fun hnil => hs (utf8_injective ?_))
    exact hnil
  -- the special token and what is behind it
  have hlater : EncodesFrom ⟨metadata, gpt2PreTokenizer classes⟩ (utf8 (a ++ s ++ b))
      (utf8 a).length (id :: after) := by
    refine .special ?_ (specialAt_specialId hid ?_ ?_) ?_
    · rw [hsplit, List.length_append]
      omega
    · rw [hrest, utf8_eq_bytesOf, utf8_eq_bytesOf, String.toList_append, bytesOf_append]
      exact List.prefix_append _ _
    · rw [hrest]
      exact hlongest
    · rw [hsplit, ← hlength]
      exact (encodesFrom_of_encode hbos hafter).behind (utf8 (a ++ s))
  refine (encodesFrom_of_encode hbos hout).unique ?_
  rw [htext, utf8_eq_bytesOf a] at hcut hlater hfirst
  rw [htext]
  refine EncodesFrom.front hcut ⟨[], rfl, rfl⟩ hfirst ?_ hlater
  rw [← utf8_eq_bytesOf]
  exact encodesFrom_of_encode hbos hbefore

/-- The tokens around a special token that no piece has show a cut. -/
theorem cuts_of_encode
    (hbos : tokenizer.metadata.addBos ≠ some true ∨ tokenizer.metadata.bos = none)
    (hid : tokenizer.specialId s = some id)
    (hfirst : ∀ position < (utf8 a).length, ∀ token ∈ tokenizer.specialTexts,
      ¬ token <+: (utf8 (a ++ s ++ b)).drop position)
    (hlongest : ∀ token ∈ tokenizer.specialTexts, token <+: utf8 (s ++ b) →
      token.length ≤ (utf8 s).length)
    (hplain : ∀ bytes part, tokenizer.PieceTokens (.plain bytes) part → id ∉ part)
    (hbefore : tokenizer.encode (utf8 a) = .ok before)
    (hout : tokenizer.encode (utf8 (a ++ s ++ b)) = .ok (before ++ id :: after)) :
    s ≠ "" ∧ Cuts tokenizer.pretokenizer (utf8 (a ++ s ++ b)) (utf8 a).length 0 := by
  have htext := encodesFrom_of_encode hbos hout
  have hnone : ∀ p < (utf8 a).length, tokenizer.specialAt (utf8 (a ++ s ++ b)) p = none :=
    fun p hp => specialAt_eq_none_iff.2 (hfirst p hp)
  have halone : ∀ p < (utf8 a).length, tokenizer.specialAt (utf8 a) p = none := by
    intro p hp
    rw [specialAt_eq_none_iff]
    intro token htoken hstarts
    refine hfirst p hp token htoken (hstarts.trans ?_)
    rw [utf8_eq_bytesOf, utf8_eq_bytesOf (a ++ s ++ b), String.append_assoc, String.toList_append,
      bytesOf_append, List.drop_append_of_le_length (by rw [← utf8_eq_bytesOf]; omega)]
    exact List.prefix_append _ _
  have hcuts := htext.cuts rfl hplain hnone (Nat.zero_le _)
    ((encodesFrom_of_encode hbos hbefore).characters_length (Nat.zero_le _) halone)
  refine ⟨?_, hcuts⟩
  rintro rfl
  -- an empty special token starts everywhere, so nothing is before it
  have hempty : (utf8 a).length = 0 := by
    by_contra hne
    exact hfirst 0 (by omega) _ (mem_specialTexts hid) List.nil_prefix
  have hat : tokenizer.specialAt (utf8 (a ++ "" ++ b)) 0 = some (id, 0) := by
    refine specialAt_specialId hid List.nil_prefix ?_
    intro token htoken hstarts
    refine hlongest token htoken ?_
    rw [← drop_around a "" b, hempty]
    exact hstarts
  rcases Nat.eq_zero_or_pos (utf8 (a ++ "" ++ b)).length with hzero | hpos
  · have hnil := htext.unique (.done (Nat.le_of_eq hzero))
    simp at hnil
  · exact htext.ne_zero hpos hat

end Around

/-- The texts around the first special token of a text are encoded on their own when the
regular expression cuts the text where the token starts, and only then if no ordinary
text becomes the token. -/
theorem encode_special_iff (classes : CharClasses) (metadata : TokenizerMetadata)
    (tokenizer : Gpt2ByteLevelTokenizer)
    (hbuild : build metadata (gpt2PreTokenizer classes) = .ok tokenizer)
    (hbos : metadata.addBos ≠ some true ∨ metadata.bos = none) (a s b : String) (id : UInt32)
    (hid : tokenizer.specialId s = some id)
    (hfirst : ∀ position < (utf8 a).length, ∀ token ∈ tokenizer.specialTexts,
      ¬ token <+: (utf8 (a ++ s ++ b)).drop position)
    (hlongest : ∀ token ∈ tokenizer.specialTexts, token <+: utf8 (s ++ b) →
      token.length ≤ (utf8 s).length)
    (before after out : List UInt32) (hbefore : tokenizer.encode (utf8 a) = .ok before)
    (hafter : tokenizer.encode (utf8 b) = .ok after)
    (hout : tokenizer.encode (utf8 (a ++ s ++ b)) = .ok out) :
    (s ≠ "" ∧ Cuts (gpt2PreTokenizer classes) (utf8 (a ++ s ++ b)) (utf8 a).length 0 →
        out = before ++ id :: after) ∧
      ((∀ bytes part, tokenizer.PieceTokens (.plain bytes) part → id ∉ part) →
        (out = before ++ id :: after ↔
          s ≠ "" ∧ Cuts (gpt2PreTokenizer classes) (utf8 (a ++ s ++ b)) (utf8 a).length 0)) := by
  have htokenizer : tokenizer = ⟨metadata, gpt2PreTokenizer classes⟩ := by
    rw [build] at hbuild
    split at hbuild
    · cases hbuild
    · exact (Except.ok.inj hbuild).symm
  subst htokenizer
  have henough : s ≠ "" ∧ Cuts (gpt2PreTokenizer classes) (utf8 (a ++ s ++ b)) (utf8 a).length 0 →
      out = before ++ id :: after :=
    fun h => encode_of_cuts hbos hid hfirst hlongest hbefore hafter hout h.1 h.2
  refine ⟨henough, fun hplain => ⟨?_, henough⟩⟩
  rintro rfl
  exact cuts_of_encode hbos hid hfirst hlongest hplain hbefore hout

end Gpt2ByteLevelTokenizer

/-! ### A special token behind a mark -/

/-- Classes that are right for ASCII. -/
def asciiClasses : CharClasses := ⟨Char.isAlpha, Char.isDigit, Char.isWhitespace⟩

theorem markTexts_length : ∀ text ∈ ["!", "<", "x", ">", "<x>"], (utf8 text).length ≤ 4096 := by
  decide

theorem markTexts_ne_zero :
    ∀ text ∈ ["!", "<", "x", ">", "<x>"], ∀ byte ∈ utf8 text, byte ≠ 0 :=
  ne_zero_of_all (by decide)

theorem markTexts_count : ["!", "<", "x", ">", "<x>"].length ≤ 10000000 := by
  decide

theorem markMerges_le : ([] : List (UInt32 × UInt32)).length ≤ 10000000 := Nat.zero_le _

theorem markSpecials_lt : ∀ ids : List UInt32, some [(4 : UInt32)] = some ids →
    ∀ id ∈ ids, id.toNat < ["!", "<", "x", ">", "<x>"].length := by
  intro ids hids id hid
  rw [← Option.some.inj hids, List.mem_singleton] at hid
  rw [hid]
  decide

/-- Four characters, and a special token of three of them. -/
def markTokens : TokenizerMetadata where
  kind := .gpt2BpeByteLevel
  hasModel := true
  preTokenizer := some .gpt2ByteLevel
  texts := ["!", "<", "x", ">", "<x>"]
  merges := []
  bos := none
  unk := none
  specialIds := some [4]
  addBos := some false
  ignoreMerges := some false
  count_le := markTexts_count
  merges_le := markMerges_le
  text_length := markTexts_length
  text_ne_zero := markTexts_ne_zero
  specialIds_lt := markSpecials_lt

/-- The tokenizer of the four characters. -/
def markTokenizer : Gpt2ByteLevelTokenizer := ⟨markTokens, gpt2PreTokenizer asciiClasses⟩

theorem encode_special_letter :
    markTokenizer.encode (utf8 ("x" ++ "<x>" ++ "!")) = .ok [2, 4, 0] ∧
      ([2, 4, 0] : List UInt32) = [2] ++ 4 :: [0] := by
  have hout : markTokenizer.encode (utf8 ("x" ++ "<x>" ++ "!")) = .ok [2, 4, 0] := by
    decide
  have hfind : (gpt2PreTokenizer asciiClasses).findAt (utf8 ("x" ++ "<x>" ++ "!")) 0 = some (0, 1) := by
    decide
  refine ⟨hout, (Gpt2ByteLevelTokenizer.encode_special_iff asciiClasses markTokens markTokenizer rfl
    (Or.inr rfl) "x" "<x>" "!" 4 ?_ ?_ ?_ [2] [0] [2, 4, 0] ?_ ?_ hout).1 ⟨?_, ?_⟩⟩
  · decide
  · decide
  · decide
  · decide
  · decide
  · decide
  · exact .step hfind .done

/-- A mark takes the start of the special token behind it into its piece. -/
theorem encode_special_swallowed :
    markTokenizer.specialId "<x>" = some 4 ∧
      (∀ position < (utf8 "!").length, ∀ token ∈ markTokenizer.specialTexts,
        ¬ token <+: (utf8 ("!" ++ "<x>" ++ "")).drop position) ∧
      (∀ token ∈ markTokenizer.specialTexts, token <+: utf8 ("<x>" ++ "") →
        token.length ≤ (utf8 "<x>").length) ∧
      markTokenizer.encode (utf8 "!") = .ok [0] ∧ markTokenizer.encode (utf8 "") = .ok [] ∧
      markTokenizer.encode (utf8 ("!" ++ "<x>" ++ "")) = .ok [0, 1, 2, 3] ∧
      ([0, 1, 2, 3] : List UInt32) ≠ [0] ++ 4 :: [] := by
  decide

end VBuf.Tokenizer
