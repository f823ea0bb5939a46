import Mathlib.Data.List.Induction
import VBuf.Lib.Loop
import VBuf.Tokenizer.Pieces

/-!
# Merging with the indexes of the runtime

The runtime looks tokens and ranks up in tables that it fills once.  Its merge loop,
one iteration at a time, reduces the symbols by the rank of the last entry of a pair.
-/

namespace VBuf.Tokenizer

open VBuf.Lib

/-! ### Indexes -/

/-- `TokenIndex::build`. -/
def TokenIndex.build (texts : List (List UInt8)) : Except String (List UInt8 → Option UInt32) :=
  texts.zipIdx.foldlM (fun entries item => do
    rejectIf (0xffffffff < item.2) "token ID exceeds runtime index width"
    .ok (insertEntry entries item.1 (UInt32.ofNat item.2))) (fun _ => none)

/-- `pack_pair`. -/
def packPair (left right : Nat) : Except String Nat := do
  rejectIf (0xffffffff < left ∨ 0xffffffff < right) "merge ID exceeds packed runtime index width"
  .ok ((left <<< 32) ||| right)

/-- `MergeRankIndex::build`. -/
def MergeRankIndex.build (merges : List (UInt32 × UInt32)) : Except String (Nat → Option Nat) :=
  merges.zipIdx.foldlM (fun entries item => do
    let key ← packPair item.1.1.toNat item.1.2.toNat
    rejectIf (0xffffffff < item.2) "merge rank exceeds runtime index width"
    .ok (insertEntry entries key item.2)) (fun _ => none)

/-- `MergeRankIndex::lookup`. -/
def MergeRankIndex.lookup (entries : Nat → Option Nat) (left right : Nat) : Option Nat :=
  match packPair left right with
  | .ok key => entries key
  | .error _ => none

structure RuntimeTokenizerIndexes where
  token : List UInt8 → Option UInt32
  merge : Nat → Option Nat

namespace RuntimeTokenizerIndexes

/-- `RuntimeTokenizerIndexes::build`. -/
def build (metadata : TokenizerMetadata) : Except String RuntimeTokenizerIndexes := do
  let token ← TokenIndex.build metadata.tokenBytes
  let merge ← MergeRankIndex.build metadata.merges
  .ok ⟨token, merge⟩

/-- The rank of two tokens. -/
def rank (indexes : RuntimeTokenizerIndexes) (left right : UInt32) : Option Nat :=
  MergeRankIndex.lookup indexes.merge left.toNat right.toNat

/-- One iteration of the loop of `merge_symbols`. -/
def mergeIteration (indexes : RuntimeTokenizerIndexes) (texts : List (List UInt8))
    (symbols : List UInt32) : Iteration (List UInt32) (Except String (List UInt32)) :=
  if symbols.length ≤ 1 then .done (.ok symbols)
  else
    match leftmostMin (pairRank indexes.rank symbols) (symbols.length - 1) with
    | none => .done (.ok symbols)
    | some best =>
        match texts[(symbols.getD best.1 0).toNat]? with
        | none => .done (.error "merge-left token is absent")
        | some left =>
            match texts[(symbols.getD (best.1 + 1) 0).toNat]? with
            | none => .done (.error "merge-right token is absent")
            | some right =>
                match indexes.token (left ++ right) with
                | none => .done (.error "merged token is absent")
                | some id => .next (mergeAt symbols best.1 id)

end RuntimeTokenizerIndexes

/-! ### What the indexes hold -/

theorem foldlM_eq_ok {ε σ ι : Type} {f : σ → ι → Except ε σ} {g : σ → ι → σ} {items : List ι}
    (h : ∀ item ∈ items, ∀ s, f s item = .ok (g s item)) (s : σ) :
    items.foldlM f s = .ok (items.foldl g s) := by
  induction items generalizing s with
  | nil => rfl
  | cons item rest ih =>
      rw [List.foldlM_cons, h item List.mem_cons_self]
      exact ih (fun other hother => h other (List.mem_cons_of_mem item hother)) _

theorem zipIdx_lt {α : Type*} {l : List α} {item : α × Nat} (h : item ∈ l.zipIdx) :
    item.2 < l.length := by
  obtain ⟨_, hlt, _⟩ := List.mem_zipIdx h
  simpa using hlt

theorem tokenIndex_build {texts : List (List UInt8)} (hcount : texts.length ≤ 10000000) :
    TokenIndex.build texts = .ok (tokenIndex texts) := by
  have hfold : TokenIndex.build texts = .ok (texts.zipIdx.foldl (fun entries item =>
      insertEntry entries item.1 (UInt32.ofNat item.2)) (fun _ => none)) := by
    refine foldlM_eq_ok ?_ _
    intro item hitem entries
    have hlt := zipIdx_lt hitem
    rw [rejectIf, if_neg (by omega)]
    rfl
  rw [hfold]
  congr 1
  ext1 bytes
  rw [foldl_insertEntry, Option.or_none]
  rfl

/-- Packed pairs of ids are the pairs. -/
theorem packPair_eq (left right : UInt32) :
    packPair left.toNat right.toNat = .ok (left.toNat * 2 ^ 32 + right.toNat) := by
  have hleft := left.toNat_lt
  have hright := right.toNat_lt
  rw [packPair, rejectIf, if_neg (by omega), ← Nat.shiftLeft_add_eq_or_of_lt hright,
    Nat.shiftLeft_eq]
  rfl

theorem mergeRankIndex_build {merges : List (UInt32 × UInt32)} (hcount : merges.length ≤ 10000000) :
    ∃ entries, MergeRankIndex.build merges = .ok entries ∧
      ∀ left right : UInt32, MergeRankIndex.lookup entries left.toNat right.toNat =
        mergeRank merges left right := by
  refine ⟨merges.zipIdx.foldl (fun entries item => insertEntry entries
    (item.1.1.toNat * 2 ^ 32 + item.1.2.toNat) item.2) (fun _ => none), ?_, ?_⟩
  · refine foldlM_eq_ok ?_ _
    intro item hitem entries
    have hlt := zipIdx_lt hitem
    rw [packPair_eq, rejectIf, if_neg (by omega)]
    rfl
  · intro left right
    rw [MergeRankIndex.lookup, packPair_eq]
    simp only
    rw [foldl_insertEntry (fun item : (UInt32 × UInt32) × Nat =>
      item.1.1.toNat * 2 ^ 32 + item.1.2.toNat) Prod.snd, Option.or_none, mergeRank]
    congr 2
    ext1 item
    -- A packed pair tells its halves, since each is below the width.
    have hpair : item.1.1.toNat * 2 ^ 32 + item.1.2.toNat = left.toNat * 2 ^ 32 + right.toNat ↔
        item.1 = (left, right) := by
      have hlast := item.1.2.toNat_lt
      have hright := right.toNat_lt
      rw [Prod.ext_iff, ← UInt32.toNat_inj, ← UInt32.toNat_inj]
      simp only
      constructor
      · intro h
        exact ⟨by omega, by omega⟩
      · rintro ⟨hl, hr⟩
        rw [hl, hr]
    simp only [hpair]

theorem mergeRank_concat (merges : List (UInt32 × UInt32)) (last : UInt32 × UInt32)
    (left right : UInt32) :
    mergeRank (merges ++ [last]) left right =
      if last = (left, right) then some merges.length else mergeRank merges left right := by
  rw [mergeRank, List.zipIdx_append, List.reverse_append]
  by_cases hlast : last = (left, right)
  · simp [hlast]
  · simp [hlast, mergeRank]

/-- The rank of a pair is the place of its last entry. -/
theorem mergeRank_eq_some_iff {merges : List (UInt32 × UInt32)} {left right : UInt32} {r : Nat} :
    mergeRank merges left right = some r ↔
      merges[r]? = some (left, right) ∧ ∀ later, r < later → merges[later]? ≠ some (left, right) := by
  induction merges using List.reverseRecOn with
  | nil => simp [mergeRank]
  | append_singleton merges last ih =>
      rw [mergeRank_concat]
      have hat : (merges ++ [last])[merges.length]? = some last := by simp
      have hbefore : ∀ i, i < merges.length → (merges ++ [last])[i]? = merges[i]? := fun i hi =>
        List.getElem?_append_left hi
      have hbehind : ∀ i, merges.length < i → (merges ++ [last])[i]? = none := fun i hi =>
        List.getElem?_eq_none (by simp; omega)
      have hnone : ∀ i, merges.length ≤ i → merges[i]? = none := fun i hi =>
        List.getElem?_eq_none hi
      by_cases hlast : last = (left, right)
      · rw [if_pos hlast]
        grind
      · rw [if_neg hlast, ih]
        grind

/-- A pair without a rank is not in the table. -/
theorem mergeRank_eq_none_iff {merges : List (UInt32 × UInt32)} {left right : UInt32} :
    mergeRank merges left right = none ↔ (left, right) ∉ merges := by
  rw [mergeRank, Option.map_eq_none_iff, List.find?_eq_none]
  constructor
  · intro h hmem
    obtain ⟨r, hr⟩ := List.getElem?_of_mem hmem
    refine h ((left, right), r) ?_ (by simp)
    rw [List.mem_reverse, List.mem_zipIdx_iff_getElem?]
    exact hr
  · intro h entry hentry heq
    rw [List.mem_reverse, List.mem_zipIdx_iff_getElem?] at hentry
    rw [decide_eq_true_eq] at heq
    exact h (heq ▸ List.mem_of_getElem? hentry)

namespace RuntimeTokenizerIndexes

/-- The indexes of checked metadata, which are always built. -/
theorem build_spec (metadata : TokenizerMetadata) :
    ∃ indexes, build metadata = .ok indexes ∧ indexes.token = tokenIndex metadata.tokenBytes ∧
      indexes.rank = mergeRank metadata.merges := by
  obtain ⟨entries, hentries, hlookup⟩ := mergeRankIndex_build metadata.merges_le
  refine ⟨⟨tokenIndex metadata.tokenBytes, entries⟩, ?_, rfl, ?_⟩
  · have hcount : metadata.tokenBytes.length ≤ 10000000 := by
      rw [TokenizerMetadata.tokenBytes, List.length_map]
      exact metadata.count_le
    rw [build, tokenIndex_build hcount, hentries]
    rfl
  · ext1 left
    ext1 right
    exact hlookup left right

/-! ### The loop -/

section Merging

variable {indexes : RuntimeTokenizerIndexes} {texts : List (List UInt8)} {symbols : List UInt32}

/-- An iteration that goes on merges the leftmost pair of least rank. -/
theorem mergeIteration_eq_next_iff (htoken : indexes.token = tokenIndex texts)
    {after : List UInt32} :
    indexes.mergeIteration texts symbols = .next after ↔
      ∃ position merged, MergesPair indexes.rank (mergedToken texts) symbols position merged ∧
        after = mergeAt symbols position merged := by
  constructor
  · intro h
    rw [mergeIteration] at h
    split at h
    next => cases h
    next hlong =>
        split at h
        next => cases h
        next best hmin =>
            split at h
            next => cases h
            next left hleft =>
                split at h
                next => cases h
                next right hright =>
                    split at h
                    next => cases h
                    next id hid =>
                        cases h
                        have hleast := ((leftmostMin_spec _ _).2 best.1 best.2).1 hmin
                        have hlt := hleast.lt
                        have hfirst := List.getElem?_eq_getElem (show best.1 < symbols.length by omega)
                        have hsecond :=
                          List.getElem?_eq_getElem (show best.1 + 1 < symbols.length by omega)
                        refine ⟨best.1, id, ⟨⟨best.2, hleast⟩, _, _, hfirst, hsecond, ?_⟩, rfl⟩
                        rw [List.getD_eq_getElem?_getD, hfirst, Option.getD_some] at hleft
                        rw [List.getD_eq_getElem?_getD, hsecond, Option.getD_some] at hright
                        rw [mergedToken, hleft, hright, ← htoken]
                        exact hid
  · rintro ⟨position, merged, hpair, rfl⟩
    have hlt := hpair.lt
    obtain ⟨r, hleast⟩ := hpair.least
    obtain ⟨a, b, ha, hb, hm⟩ := hpair.joined
    rw [mergeIteration, if_neg (by omega), ((leftmostMin_spec _ _).2 position r).2 hleast]
    simp only [List.getD_eq_getElem?_getD, ha, hb, Option.getD_some]
    unfold mergedToken at hm
    split at hm
    next left right hleft hright => simp only [hleft, hright, htoken, hm]
    next => cases hm

/-- The loop ends, without an error, where no pair has a rank. -/
theorem mergeIteration_eq_ok_iff {out : List UInt32} :
    indexes.mergeIteration texts symbols = .done (.ok out) ↔
      out = symbols ∧ Reduced indexes.rank symbols := by
  rw [reduced_iff]
  constructor
  · intro h
    rw [mergeIteration] at h
    split at h
    next hshort =>
        cases h
        refine ⟨rfl, (leftmostMin_spec _ _).1.2 ?_⟩
        intro position hposition
        omega
    next =>
        split at h
        next hmin =>
            cases h
            exact ⟨rfl, hmin⟩
        next =>
            split at h
            next => cases h
            next =>
                split at h
                next => cases h
                next => split at h <;> cases h
  · rintro ⟨rfl, hmin⟩
    rw [mergeIteration, hmin]
    exact ite_self _

/-- The loop of `merge_symbols` returns. -/
theorem exists_returns_mergeIteration (htoken : indexes.token = tokenIndex texts)
    (symbols : List UInt32) : ∃ result, Returns (indexes.mergeIteration texts) symbols result := by
  refine exists_returns (fun _ => True) List.length ?_ symbols trivial
  intro before after _ hnext
  obtain ⟨position, merged, hpair, rfl⟩ := (mergeIteration_eq_next_iff htoken).1 hnext
  have hlength := length_mergeAt hpair.lt merged
  exact ⟨trivial, by omega⟩

/-- The symbols that the loop returns are those that the symbols reduce to. -/
theorem returns_mergeIteration_iff (htoken : indexes.token = tokenIndex texts)
    {out : List UInt32} :
    Returns (indexes.mergeIteration texts) symbols (.ok out) ↔
      Reduces indexes.rank (mergedToken texts) symbols out := by
  constructor
  · intro h
    generalize hresult : (Except.ok out : Except String (List UInt32)) = result at h
    induction h with
    | done hdone =>
        subst hresult
        obtain ⟨rfl, hreduced⟩ := mergeIteration_eq_ok_iff.1 hdone
        exact Reduces.done hreduced
    | next hnext _ ih =>
        obtain ⟨position, merged, hpair, rfl⟩ := (mergeIteration_eq_next_iff htoken).1 hnext
        exact Reduces.step hpair (ih hresult)
  · intro h
    induction h with
    | done hreduced => exact Returns.done (mergeIteration_eq_ok_iff.2 ⟨rfl, hreduced⟩)
    | step hpair _ ih =>
        exact Returns.next ((mergeIteration_eq_next_iff htoken).2 ⟨_, _, hpair, rfl⟩) ih

end Merging

end RuntimeTokenizerIndexes

/-- The loop returns the symbols that `merge_symbols` returns. -/
theorem Gpt2ByteLevelTokenizer.mergeSymbols_eq_ok_iff_returns (tokenizer : Gpt2ByteLevelTokenizer) :
    ∃ indexes, RuntimeTokenizerIndexes.build tokenizer.metadata = .ok indexes ∧
      ∀ symbols out, tokenizer.mergeSymbols symbols = .ok out ↔
        Returns (indexes.mergeIteration tokenizer.metadata.tokenBytes) symbols (.ok out) := by
  obtain ⟨indexes, hbuild, htoken, hrank⟩ :=
    RuntimeTokenizerIndexes.build_spec tokenizer.metadata
  refine ⟨indexes, hbuild, ?_⟩
  intro symbols out
  rw [RuntimeTokenizerIndexes.returns_mergeIteration_iff htoken, hrank, mergeSymbols_eq_ok_iff]

/-! ### The normal form -/

/-- The concatenated texts of tokens. -/
def textOf (texts : List (List UInt8)) (tokens : List UInt32) : List UInt8 :=
  tokens.flatMap fun token => (texts[token.toNat]?).getD []

theorem textOf_mergedToken {texts : List (List UInt8)} (hcount : texts.length < 2 ^ 32)
    (a b c : UInt32) (h : mergedToken texts a b = some c) :
    (texts[c.toNat]?).getD [] = (texts[a.toNat]?).getD [] ++ (texts[b.toNat]?).getD [] := by
  unfold mergedToken at h
  split at h
  next leftText rightText hleft hright =>
      rw [tokenIndex_eq hcount h, hleft, hright]
      rfl
  next => cases h

theorem TokenizerMetadata.tokenBytes_length_lt (metadata : TokenizerMetadata) :
    metadata.tokenBytes.length < 2 ^ 32 := by
  have hcount := metadata.count_le
  rw [TokenizerMetadata.tokenBytes, List.length_map]
  omega

/-- With the indexes the runtime builds, merging returns; what it returns without an
error has the text of the symbols, comes from merging the leftmost pair of least rank
again and again, the rank of a pair being the place of its last entry, and has no pair
of the table. -/
theorem mergeSymbols_normal_form (metadata : TokenizerMetadata) :
    ∃ indexes, RuntimeTokenizerIndexes.build metadata = .ok indexes ∧
      (∀ left right r, indexes.rank left right = some r ↔
        metadata.merges[r]? = some (left, right) ∧
          ∀ later, r < later → metadata.merges[later]? ≠ some (left, right)) ∧
      ∀ symbols,
        (∃ result, Returns (indexes.mergeIteration metadata.tokenBytes) symbols result) ∧
        ∀ out, Returns (indexes.mergeIteration metadata.tokenBytes) symbols (.ok out) →
          textOf metadata.tokenBytes out = textOf metadata.tokenBytes symbols ∧
          Reduces indexes.rank (mergedToken metadata.tokenBytes) symbols out ∧
          ∀ position left right, out[position]? = some left → out[position + 1]? = some right →
            (left, right) ∉ metadata.merges := by
  obtain ⟨indexes, hbuild, htoken, hrank⟩ := RuntimeTokenizerIndexes.build_spec metadata
  refine ⟨indexes, hbuild, ?_, ?_⟩
  · intro left right r
    rw [hrank]
    exact mergeRank_eq_some_iff
  · intro symbols
    refine ⟨RuntimeTokenizerIndexes.exists_returns_mergeIteration htoken symbols, ?_⟩
    intro out hout
    have hreduces := (RuntimeTokenizerIndexes.returns_mergeIteration_iff htoken).1 hout
    refine ⟨hreduces.flatMap_eq (textOf_mergedToken metadata.tokenBytes_length_lt), hreduces, ?_⟩
    intro position left right hleft hright
    have hlt := (List.getElem?_eq_some_iff.1 hright).1
    have hreduced := hreduces.reduced position (by omega)
    rw [pairRank, hleft, hright, hrank] at hreduced
    exact mergeRank_eq_none_iff.1 hreduced

end VBuf.Tokenizer
