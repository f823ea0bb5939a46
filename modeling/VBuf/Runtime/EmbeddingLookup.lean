import VBuf.Lib.AssocTotal
import VBuf.Runtime.Generic

/-!
# Looking up embeddings

`embedding_lookup` keeps the rows it has read, over a provider with a state of its own.
It asks for each accepted token once, in the order of the first occurrences, and puts
the rows together in the order of the tokens.
-/

namespace VBuf.Runtime

open VBuf.Lib

/-- The rows read so far. -/
abbrev Rows (F : Type) := AssocMap Nat (List F)

/-- The arguments of `embedding_lookup`: `asToken` gives the number of a finite value that
is a whole number and not negative, and the provider is asked for the row of a token. -/
structure EmbeddingLookup (F σ : Type) where
  asToken : F → Option Nat
  vocabularySize : UInt64
  hiddenSize : UInt64
  rowProvider : Nat → σ → Except String (List F) × σ

namespace EmbeddingLookup

variable {F σ : Type} (lookup : EmbeddingLookup F σ)

/-- The token of a value. -/
def checkToken (value : F) : Except String Nat :=
  match lookup.asToken value with
  | none => .error "embedding token ID is not a non-negative integer"
  | some token =>
      if lookup.vocabularySize.toNat ≤ token then
        .error "embedding token ID is outside vocabulary"
      else .ok token

/-- A row from the provider, with its width checked. -/
def readRow (token : Nat) (state : σ) : Except String (List F) × σ :=
  match lookup.rowProvider token state with
  | (.error error, state) => (.error error, state)
  | (.ok row, state) =>
      if row.length ≠ lookup.hiddenSize.toNat then
        (.error "embedding row width does not match hidden size", state)
      else (.ok row, state)

/-- The loop of `embedding_lookup` over the tokens. -/
def loop : List F → Rows F → List F → σ → Except String (List F) × σ
  | [], _, output, state => (.ok output, state)
  | value :: rest, rows, output, state =>
      match lookup.checkToken value with
      | .error error => (.error error, state)
      | .ok token =>
          match rows.lookup token with
          | some row => loop rest rows (output ++ row) state
          | none =>
              match lookup.readRow token state with
              | (.error error, state) => (.error error, state)
              | (.ok row, state) => loop rest (rows.insert token row) (output ++ row) state

/-- `embedding_lookup`. -/
def embeddingLookup (tokenIds : GenericTensor F) (state : σ) :
    Except String (GenericTensor F) × σ :=
  match tokenIds.dimensions with
  | [batch, length] =>
      if lookup.vocabularySize = 0 ∨ lookup.hiddenSize = 0 then
        (.error "embedding token geometry is invalid", state)
      else if UInt64.size ≤ batch.toNat * length.toNat then
        (.error "embedding token geometry overflows", state)
      else if tokenIds.values.length ≠ batch.toNat * length.toNat then
        (.error "embedding token geometry is invalid", state)
      else if UInt64.size ≤ tokenIds.values.length * lookup.hiddenSize.toNat then
        (.error "embedding output geometry overflows", state)
      else
        match lookup.loop tokenIds.values ∅ [] state with
        | (.error error, state) => (.error error, state)
        | (.ok values, state) => (.ok ⟨[batch, length, lookup.hiddenSize], values⟩, state)
  | _ => (.error "embedding token geometry is invalid", state)

/-! ### Rows read once -/

/-- The tokens in front of the first value that is refused, and why it is. -/
def accepted : List F → List Nat × Option String
  | [] => ([], none)
  | value :: rest =>
      match lookup.checkToken value with
      | .error error => ([], some error)
      | .ok token => (token :: (accepted rest).1, (accepted rest).2)

/-- The first occurrences of the tokens that are not known. -/
def newTokens : List Nat → List Nat → List Nat
  | _, [] => []
  | known, token :: rest =>
      if token ∈ known then newTokens known rest else token :: newTokens (token :: known) rest

/-- Rows of tokens in a row, from the provider. -/
def readRows : List Nat → Rows F → σ → Except String (Rows F) × σ
  | [], rows, state => (.ok rows, state)
  | token :: rest, rows, state =>
      match lookup.readRow token state with
      | (.error error, state) => (.error error, state)
      | (.ok row, state) => readRows rest (rows.insert token row) state

/-- The rows of the tokens, one after another. -/
def gathered (rows : Rows F) (tokens : List Nat) : List F :=
  tokens.flatMap fun token => (rows.lookup token).getD []

theorem mem_newTokens {known tokens : List Nat} {token : Nat} :
    token ∈ newTokens known tokens ↔ token ∈ tokens ∧ token ∉ known := by
  induction tokens generalizing known with
  | nil => simp [newTokens]
  | cons first rest ih =>
      by_cases hfirst : first ∈ known
      · rw [newTokens, if_pos hfirst, ih, List.mem_cons]
        constructor
        · rintro ⟨hmem, hknown⟩
          exact ⟨Or.inr hmem, hknown⟩
        · rintro ⟨rfl | hmem, hknown⟩
          · exact absurd hfirst hknown
          · exact ⟨hmem, hknown⟩
      · rw [newTokens, if_neg hfirst, List.mem_cons, ih, List.mem_cons, List.mem_cons]
        by_cases hsame : token = first
        · subst hsame
          simp [hfirst]
        · simp [hsame]

theorem newTokens_nodup (known tokens : List Nat) : (newTokens known tokens).Nodup := by
  induction tokens generalizing known with
  | nil => exact List.nodup_nil
  | cons first rest ih =>
      rw [newTokens]
      split
      next => exact ih known
      next =>
        refine List.nodup_cons.2 ⟨?_, ih _⟩
        intro hmem
        exact (mem_newTokens.1 hmem).2 List.mem_cons_self

variable {lookup}

theorem readRow_width {token : Nat} {row : List F} {state after : σ}
    (h : lookup.readRow token state = (.ok row, after)) :
    row.length = lookup.hiddenSize.toNat := by
  unfold readRow at h
  split at h
  next => cases h
  next =>
    split at h
    next => cases h
    next hwidth =>
      cases h
      exact not_ne_iff.1 hwidth

/-- The rows that are there stay, and every token asked for gets one of the right width. -/
theorem readRows_lookup {tokens : List Nat} {rows read : Rows F} {state after : σ}
    (hnodup : tokens.Nodup) (h : lookup.readRows tokens rows state = (.ok read, after))
    (token : Nat) :
    (token ∉ tokens → read.lookup token = rows.lookup token) ∧
      (token ∈ tokens →
        ∃ row, read.lookup token = some row ∧ row.length = lookup.hiddenSize.toNat) := by
  induction tokens generalizing rows state with
  | nil =>
      cases h
      exact ⟨fun _ => rfl, fun hmem => absurd hmem List.not_mem_nil⟩
  | cons first rest ih =>
      rw [List.nodup_cons] at hnodup
      rw [readRows] at h
      cases hrow : lookup.readRow first state with
      | mk result middle =>
          rw [hrow] at h
          cases result with
          | error error => cases h
          | ok row =>
              obtain ⟨hkept, hnew⟩ := ih hnodup.2 h
              have hlookup := AssocMap.lookup_insert_eq rows first token row
              constructor
              · intro hmem
                rw [List.mem_cons, not_or] at hmem
                rw [hkept hmem.2, hlookup, if_neg hmem.1]
              · intro hmem
                by_cases hlater : token ∈ rest
                · exact hnew hlater
                · have hfirst : token = first := (List.mem_cons.1 hmem).resolve_right hlater
                  rw [hkept hlater, hlookup, if_pos hfirst]
                  exact ⟨row, rfl, readRow_width hrow⟩

/-- What a reading of rows and the refusal behind it make of the tokens. -/
def gather (tokens : List Nat × Option String) (output : List F) :
    Except String (Rows F) × σ → Except String (List F) × σ
  | (.error error, state) => (.error error, state)
  | (.ok rows, state) =>
      match tokens.2 with
      | some error => (.error error, state)
      | none => (.ok (output ++ gathered rows tokens.1), state)

/-- A token whose row is there comes first in what is gathered. -/
theorem gather_cons {token : Nat} {tokens : List Nat} {refusal : Option String}
    {output row : List F} {found : Except String (Rows F) × σ}
    (hrow : ∀ rows after, found = (.ok rows, after) → rows.lookup token = some row) :
    gather (token :: tokens, refusal) output found =
      gather (tokens, refusal) (output ++ row) found := by
  obtain ⟨result, after⟩ := found
  cases result with
  | error error => rfl
  | ok rows =>
      cases refusal with
      | some error => rfl
      | none =>
          have hlookup := hrow rows after rfl
          simp [gather, gathered, hlookup]

/-- The loop reads the rows of the new tokens, in the order of their first occurrences,
and puts the rows of all tokens together. -/
theorem loop_eq_gather (values : List F) {known : List Nat} {rows : Rows F}
    (output : List F) (state : σ)
    (hknown : ∀ token, token ∈ known ↔ (rows.lookup token).isSome) :
    lookup.loop values rows output state =
      gather (lookup.accepted values) output
        (lookup.readRows (newTokens known (lookup.accepted values).1) rows state) := by
  induction values generalizing known rows output state with
  | nil => simp [loop, accepted, newTokens, readRows, gather, gathered]
  | cons value rest ih =>
      rw [loop, accepted]
      cases hcheck : lookup.checkToken value with
      | error error => rfl
      | ok token =>
          dsimp only
          cases hlookup : rows.lookup token with
          | some row =>
              have hmem : token ∈ known := (hknown token).2 (by rw [hlookup]; rfl)
              show lookup.loop rest rows (output ++ row) state = _
              rw [ih (output ++ row) state hknown, newTokens, if_pos hmem]
              refine (gather_cons ?_).symm
              intro read after hread
              -- The row is known, so it is not read again.
              rw [(readRows_lookup (newTokens_nodup _ _) hread token).1, hlookup]
              exact fun hnew => (mem_newTokens.1 hnew).2 hmem
          | none =>
              have hmem : token ∉ known := by
                rw [hknown, hlookup]
                exact Bool.false_ne_true
              rw [newTokens, if_neg hmem, readRows]
              cases hrow : lookup.readRow token state with
              | mk result middle =>
                  cases result with
                  | error error => rfl
                  | ok row =>
                      have hinsert := AssocMap.lookup_insert_eq rows token
                      have hknown' : ∀ other, other ∈ token :: known ↔
                          ((rows.insert token row).lookup other).isSome := by
                        intro other
                        rw [hinsert, List.mem_cons, hknown]
                        split
                        next hsame => simp [hsame]
                        next hother => simp [hother]
                      show lookup.loop rest (rows.insert token row) (output ++ row) middle = _
                      rw [ih (output ++ row) middle hknown']
                      refine (gather_cons ?_).symm
                      intro read after hread
                      rw [(readRows_lookup (newTokens_nodup _ _) hread token).1, hinsert,
                        if_pos rfl]
                      exact fun hnew => (mem_newTokens.1 hnew).2 List.mem_cons_self

theorem accepted_length {values : List F}
    (h : (lookup.accepted values).2 = none) :
    (lookup.accepted values).1.length = values.length := by
  induction values with
  | nil => rfl
  | cons value rest ih =>
      rw [accepted] at h ⊢
      cases hcheck : lookup.checkToken value with
      | error error =>
          rw [hcheck] at h
          cases h
      | ok token =>
          rw [hcheck] at h
          exact congrArg Nat.succ (ih h)

theorem gathered_length {rows : Rows F} {tokens : List Nat} {width : Nat}
    (hrows : ∀ token ∈ tokens, ∃ row, rows.lookup token = some row ∧ row.length = width) :
    (gathered rows tokens).length = tokens.length * width := by
  induction tokens with
  | nil => simp [gathered]
  | cons token rest ih =>
      rw [List.forall_mem_cons] at hrows
      obtain ⟨⟨row, hlookup, hwidth⟩, hrest⟩ := hrows
      have hsplit : gathered rows (token :: rest) = row ++ gathered rows rest := by
        simp [gathered, hlookup]
      rw [hsplit, List.length_append, ih hrest, hwidth, List.length_cons]
      ring

/-- The tokens have two dimensions that fit their payload, and a vector holds the result. -/
structure Fits (lookup : EmbeddingLookup F σ) (tokenIds : GenericTensor F) : Prop where
  shape : ∃ batch length, tokenIds.dimensions = [batch, length] ∧
    tokenIds.values.length = batch.toNat * length.toNat
  vocabulary : lookup.vocabularySize ≠ 0
  hidden : lookup.hiddenSize ≠ 0
  size : tokenIds.values.length * lookup.hiddenSize.toNat < 2 ^ 61

theorem embeddingLookup_eq_loop {tokenIds : GenericTensor F} (state : σ)
    (h : lookup.Fits tokenIds) :
    lookup.embeddingLookup tokenIds state =
      match lookup.loop tokenIds.values ∅ [] state with
      | (.error error, after) => (.error error, after)
      | (.ok values, after) =>
          (.ok ⟨tokenIds.dimensions ++ [lookup.hiddenSize], values⟩, after) := by
  obtain ⟨batch, length, hdimensions, hlength⟩ := h.shape
  have hpositive := toNat_pos_of_ne h.hidden
  have hsize : tokenIds.values.length * lookup.hiddenSize.toNat < UInt64.size :=
    h.size.trans (by decide)
  have hproduct : ¬ UInt64.size ≤ batch.toNat * length.toNat := by
    have hle := Nat.le_mul_of_pos_right tokenIds.values.length hpositive
    omega
  unfold embeddingLookup
  rw [hdimensions]
  show (if lookup.vocabularySize = 0 ∨ lookup.hiddenSize = 0 then _ else _) = _
  rw [if_neg (not_or.2 ⟨h.vocabulary, h.hidden⟩), if_neg hproduct, if_neg (not_not.2 hlength),
    if_neg (Nat.not_le.2 hsize)]
  rfl

/-- Over every provider the lookup asks for each accepted token once, in the order of the
first occurrences, and fails where a row or then a value is refused; a result has the row
of each token in the order of the tokens. -/
theorem embeddingLookup_exact (tokenIds : GenericTensor F) (state : σ) (tokens : List Nat)
    (refusal : Option String) (h : lookup.Fits tokenIds) :
    lookup.accepted tokenIds.values = (tokens, refusal) →
    ((newTokens [] tokens).Nodup ∧ ∀ token, token ∈ newTokens [] tokens ↔ token ∈ tokens) ∧
    match lookup.readRows (newTokens [] tokens) ∅ state, refusal with
    | (.error error, after), _ => lookup.embeddingLookup tokenIds state = (.error error, after)
    | (.ok _, after), some error =>
        lookup.embeddingLookup tokenIds state = (.error error, after)
    | (.ok rows, after), none =>
        lookup.embeddingLookup tokenIds state =
          (.ok ⟨tokenIds.dimensions ++ [lookup.hiddenSize], gathered rows tokens⟩, after) ∧
        (gathered rows tokens).length = tokenIds.values.length * lookup.hiddenSize.toNat := by
  intro htokens
  have hmem : ∀ token, token ∈ newTokens [] tokens ↔ token ∈ tokens := by
    intro token
    rw [mem_newTokens]
    simp
  refine ⟨⟨newTokens_nodup _ _, hmem⟩, ?_⟩
  have hknown : ∀ token : Nat, token ∈ [] ↔ ((∅ : Rows F).lookup token).isSome := by
    intro token
    simp
  rw [embeddingLookup_eq_loop state h, loop_eq_gather tokenIds.values [] state hknown,
    htokens]
  cases hread : lookup.readRows (newTokens [] tokens) ∅ state with
  | mk result after =>
      cases result with
      | error error => rfl
      | ok rows =>
          cases refusal with
          | some error => rfl
          | none =>
              refine ⟨rfl, ?_⟩
              have hall : tokens.length = tokenIds.values.length := by
                have haccepted := congrArg Prod.snd htokens
                rw [← accepted_length haccepted, htokens]
              rw [← hall]
              refine gathered_length ?_
              intro token htoken
              exact (readRows_lookup (newTokens_nodup _ _) hread token).2 ((hmem token).2 htoken)

/-- A provider that keeps a list of what it was asked for. -/
def listedRows : EmbeddingLookup Nat (List Nat) where
  asToken := some
  vocabularySize := 4
  hiddenSize := 2
  rowProvider := fun token asked => (.ok [token, token + 10], asked ++ [token])

theorem listedRows_fits : listedRows.Fits ⟨[1, 3], [1, 2, 1]⟩ :=
  ⟨⟨1, 3, rfl, rfl⟩, by decide, by decide, by decide⟩

/-- The repeated token is asked for once. -/
theorem embeddingLookup_exact_repeated :
    ((newTokens [] [1, 2, 1]).Nodup ∧
      ∀ token, token ∈ newTokens [] [1, 2, 1] ↔ token ∈ [1, 2, 1]) ∧
    listedRows.embeddingLookup ⟨[1, 3], [1, 2, 1]⟩ [] =
        (.ok ⟨[1, 3, 2], [1, 11, 2, 12, 1, 11]⟩, [1, 2]) ∧
      [1, 11, 2, 12, 1, 11].length = 3 * (2 : UInt64).toNat :=
  embeddingLookup_exact ⟨[1, 3], [1, 2, 1]⟩ [] [1, 2, 1] none listedRows_fits rfl

end EmbeddingLookup

end VBuf.Runtime
