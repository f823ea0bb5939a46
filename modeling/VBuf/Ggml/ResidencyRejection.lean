import Mathlib.Order.BoundedOrder.Basic
import VBuf.Ggml.ResidencyAccounting

/-!
# Rejected insertions

An insertion that finds no room is rejected after it has evicted what it could.  It
leaves the entries as they are exactly when it had nothing to evict.
-/

namespace VBuf.Ggml

open VBuf.Lib

/-! ### The replacement policies -/

/-- The comparison of `LruReplacementPolicy`. -/
def LeastRecent (lhs rhs : ResidencyReplacementCandidate) : Prop :=
  if lhs.lastRequestOrdinal ≠ rhs.lastRequestOrdinal then
    lhs.lastRequestOrdinal < rhs.lastRequestOrdinal
  else lhs.tensorRef < rhs.tensorRef

instance : DecidableRel LeastRecent := fun _ _ => instDecidableIte

/-- `LruReplacementPolicy::choose`, which is called with a candidate. -/
def lruChoose : ResidencyReplacementPolicy
  | [], _ => 4294967295
  | first :: rest, _ =>
      (rest.foldl (fun least candidate =>
        if LeastRecent candidate least then candidate else least) first).tensorRef

/-- `CostAwareReplacementPolicy::choose`, over the scores it computes with doubles; the top
element stands for the infinity it starts with. -/
def costAwareChoose {D : Type} [LinearOrder D] [OrderTop D]
    (score : List ResidencyReplacementCandidate → UInt64 → ResidencyReplacementCandidate → D) :
    ResidencyReplacementPolicy := fun candidates ordinal =>
  (candidates.foldl (fun (victim : UInt32 × D) candidate =>
    if score candidates ordinal candidate < victim.2 ∨
        (score candidates ordinal candidate = victim.2 ∧ candidate.tensorRef < victim.1) then
      (candidate.tensorRef, score candidates ordinal candidate)
    else victim) (4294967295, ⊤)).1

/-- A policy that returns one of the candidates it is given. -/
def ChoosesCandidate (policy : ResidencyReplacementPolicy) : Prop :=
  ∀ candidates ordinal, candidates ≠ [] →
    ∃ candidate ∈ candidates, candidate.tensorRef = policy candidates ordinal

theorem lruChoose_choosesCandidate : ChoosesCandidate lruChoose := by
  intro candidates ordinal hne
  obtain ⟨first, rest, rfl⟩ := List.exists_cons_of_ne_nil hne
  have hfold : ∀ (rest : List ResidencyReplacementCandidate) (least),
      rest.foldl (fun least candidate =>
        if LeastRecent candidate least then candidate else least) least ∈ least :: rest := by
    intro rest
    induction rest with
    | nil => exact fun least => List.mem_cons_self
    | cons candidate rest ih =>
      intro least
      rw [List.foldl_cons]
      split
      · exact List.mem_cons_of_mem _ (ih candidate)
      · rcases List.mem_cons.1 (ih least) with heq | hmem
        · rw [heq]
          exact List.mem_cons_self
        · exact List.mem_cons_of_mem _ (List.mem_cons_of_mem _ hmem)
  exact ⟨_, hfold rest first, rfl⟩

/-- Scores below infinity leave the start behind at the first candidate. -/
theorem costAwareChoose_choosesCandidate {D : Type} [LinearOrder D] [OrderTop D]
    {score : List ResidencyReplacementCandidate → UInt64 → ResidencyReplacementCandidate → D}
    (hscore : ∀ candidates ordinal, ∀ candidate ∈ candidates,
      score candidates ordinal candidate < ⊤) : ChoosesCandidate (costAwareChoose score) := by
  intro candidates ordinal hne
  have hfold : ∀ (seen rest : List ResidencyReplacementCandidate) (victim : UInt32 × D),
      seen ++ rest = candidates →
      (∃ candidate ∈ seen, candidate.tensorRef = victim.1) ∨ (seen = [] ∧ victim.2 = ⊤) →
      (∃ candidate ∈ candidates, candidate.tensorRef = (rest.foldl
        (fun (victim : UInt32 × D) candidate =>
          if score candidates ordinal candidate < victim.2 ∨
              (score candidates ordinal candidate = victim.2 ∧ candidate.tensorRef < victim.1) then
            (candidate.tensorRef, score candidates ordinal candidate)
          else victim) victim).1) ∨ candidates = [] := by
    intro seen rest
    induction rest generalizing seen with
    | nil =>
      intro victim heq hvictim
      rw [List.append_nil] at heq
      subst heq
      exact hvictim.imp_right And.left
    | cons candidate rest ih =>
      intro victim heq hvictim
      rw [List.foldl_cons]
      have hmem : candidate ∈ candidates := heq ▸ List.mem_append_right _ List.mem_cons_self
      refine ih (seen ++ [candidate]) _ (by rw [List.append_assoc]; exact heq) (.inl ?_)
      split
      · exact ⟨candidate, List.mem_append_right _ List.mem_cons_self, rfl⟩
      next hkeep =>
        rcases hvictim with ⟨other, hother, href⟩ | ⟨-, htop⟩
        · exact ⟨other, List.mem_append_left _ hother, href⟩
        · rw [htop] at hkeep
          exact absurd (.inl (hscore candidates ordinal candidate hmem)) hkeep
  exact (hfold [] candidates _ rfl (.inr ⟨rfl, rfl⟩)).resolve_right hne

namespace TensorResidencyStore

variable {store : TensorResidencyStore} {tensorRef : UInt32} {materialized : MaterializedTensor}

/-- The victim of the policy is not one of the unleased entries; so it is when there are none. -/
def NothingToEvict (store : TensorResidencyStore) : Prop :=
  ∀ candidate ∈ store.candidates,
    candidate.tensorRef ≠ store.replacementPolicy store.candidates store.requestOrdinal

theorem exists_candidate_iff : (∃ candidate ∈ store.candidates, candidate.tensorRef = tensorRef) ↔
    ∃ entry, store.entries.lookup tensorRef = some entry ∧ entry.activeLeases = 0 := by
  unfold candidates
  simp only [List.mem_filterMap]
  constructor
  · rintro ⟨candidate, ⟨⟨ref, entry⟩, hmem, hcandidate⟩, rfl⟩
    split at hcandidate
    · cases hcandidate
    next hfree =>
      cases hcandidate
      exact ⟨entry, AList.mem_lookup_iff.2 hmem, not_not.1 hfree⟩
  · rintro ⟨entry, hlookup, hfree⟩
    refine ⟨_, ⟨⟨tensorRef, entry⟩, AList.mem_lookup_iff.1 hlookup, if_neg (not_not.2 hfree)⟩, ?_⟩
    rfl

/-- With a policy that returns a candidate, every entry is leased. -/
theorem nothingToEvict_iff (hpolicy : ChoosesCandidate store.replacementPolicy) :
    store.NothingToEvict ↔ ∀ ref entry, store.entries.lookup ref = some entry →
      entry.activeLeases ≠ 0 := by
  constructor
  · intro h ref entry hlookup hfree
    obtain ⟨candidate, hmem, -⟩ := exists_candidate_iff.2 ⟨entry, hlookup, hfree⟩
    obtain ⟨victim, hvictim, heq⟩ :=
      hpolicy store.candidates store.requestOrdinal (List.ne_nil_of_mem hmem)
    exact h victim hvictim heq
  · intro h candidate hmem _
    obtain ⟨entry, hlookup, hfree⟩ := exists_candidate_iff.1 ⟨candidate, hmem, rfl⟩
    exact h _ entry hlookup hfree

theorem evictOne_of_nothing (h : store.NothingToEvict) : store.evictOne = (false, store) := by
  unfold evictOne
  split
  · rfl
  · unfold evict
    split
    · rfl
    next entry hlookup =>
      split
      · rfl
      next hfree =>
        obtain ⟨candidate, hmem, heq⟩ := exists_candidate_iff.2 ⟨entry, hlookup, not_not.1 hfree⟩
        exact absurd heq (h candidate hmem)

/-- Otherwise an unleased entry goes. -/
theorem evictOne_of_something (h : ¬ store.NothingToEvict) :
    ∃ ref entry, store.entries.lookup ref = some entry ∧
      store.evictOne = (true, store.without ref entry) := by
  unfold NothingToEvict at h
  push Not at h
  obtain ⟨candidate, hmem, heq⟩ := h
  obtain ⟨entry, hlookup, hfree⟩ := exists_candidate_iff.1 ⟨candidate, hmem, heq⟩
  refine ⟨_, entry, hlookup, ?_⟩
  unfold evictOne evict
  rw [if_neg (List.ne_nil_of_mem hmem), hlookup]
  exact if_neg (not_not.2 hfree)

theorem evictFor_of_nothing (bytes : UInt64) (fuel : Nat) (h : store.NothingToEvict) :
    evictFor bytes fuel store = store := by
  cases fuel with
  | zero => rfl
  | succ fuel =>
    unfold evictFor
    rw [evictOne_of_nothing h]
    exact ite_self store

/-- Without room and with something to evict, the loop takes an entry out. -/
theorem evictFor_of_something {bytes : UInt64}
    (hroom : store.maxResidentBytes < store.residentBytes + bytes) (h : ¬ store.NothingToEvict) :
    (evictFor bytes store.entries.entries.length store).entries ≠ store.entries := by
  obtain ⟨ref, entry, hlookup, hevict⟩ := evictOne_of_something h
  obtain ⟨fuel, hfuel⟩ : ∃ fuel, store.entries.entries.length = fuel + 1 :=
    Nat.exists_eq_succ_of_ne_zero (List.length_pos_of_mem (AList.mem_lookup_iff.1 hlookup)).ne'
  rw [hfuel, evictFor, if_pos hroom, hevict]
  -- What the later rounds leave is part of the store without the first victim.
  intro heq
  have hgone : (store.without ref entry).entries.lookup ref = none :=
    AList.lookup_erase _ _
  have hsame : (evictFor bytes fuel (store.without ref entry)).entries.lookup ref = some entry := by
    rw [← hlookup]
    exact congrArg (·.lookup ref) heq
  have hback := (evictFor_shrinks bytes fuel (store.without ref entry)).only ref entry hsame
  rw [hgone] at hback
  cases hback

/-- A rejected insertion of a tensor that is not resident changes neither the entries nor the
byte counter exactly when the tensor is larger than the budget or there is nothing to evict. -/
theorem insert_rejected_iff (hnew : store.contains tensorRef = false)
    (hrejected : (store.insert tensorRef materialized).1 = false) :
    ((store.insert tensorRef materialized).2.entries = store.entries ∧
        (store.insert tensorRef materialized).2.residentBytes = store.residentBytes) ↔
      store.maxResidentBytes < materialized.bytes ∨ store.NothingToEvict := by
  unfold insert at hrejected ⊢
  rw [hnew, if_neg Bool.false_ne_true] at hrejected ⊢
  by_cases hlarge : store.maxResidentBytes < materialized.bytes
  · rw [if_pos hlarge]
    exact ⟨fun _ => .inl hlarge, fun _ => ⟨rfl, rfl⟩⟩
  · rw [if_neg hlarge] at hrejected ⊢
    rw [or_iff_right hlarge]
    dsimp only at hrejected ⊢
    have hfull : (evictFor materialized.bytes store.entries.entries.length store).maxResidentBytes <
        (evictFor materialized.bytes store.entries.entries.length store).residentBytes +
          materialized.bytes := by
      by_contra hroom
      rw [if_neg hroom] at hrejected
      cases hrejected
    rw [if_pos hfull]
    constructor
    · intro ⟨hentries, hbytes⟩
      by_contra hsomething
      have hmax := (evictFor_shrinks materialized.bytes store.entries.entries.length store).tally.max_eq
      rw [hbytes, hmax] at hfull
      exact evictFor_of_something hfull hsomething hentries
    · intro hnothing
      rw [evictFor_of_nothing _ _ hnothing]
      exact ⟨rfl, rfl⟩

end TensorResidencyStore

/-- A tensor of some bytes. -/
def exampleTensor (bytes : UInt64) : MaterializedTensor := ⟨0, [1], [], bytes⟩

/-- A budget of eight bytes, with a leased and an unleased tensor of four. -/
def exampleStore : TensorResidencyStore :=
  ((((TensorResidencyStore.empty 8 lruChoose).insert 1 (exampleTensor 4)).2.acquire 1).2.insert 2
    (exampleTensor 4)).2

theorem insert_rejected_iff_example :
    (((exampleStore.acquire 2).2.insert 3 (exampleTensor 8)).2.entries =
          (exampleStore.acquire 2).2.entries ∧
        ((exampleStore.acquire 2).2.insert 3 (exampleTensor 8)).2.residentBytes =
          (exampleStore.acquire 2).2.residentBytes) ↔
      (exampleStore.acquire 2).2.maxResidentBytes < (exampleTensor 8).bytes ∨
        (exampleStore.acquire 2).2.NothingToEvict :=
  TensorResidencyStore.insert_rejected_iff (by decide) (by decide)

/-- The unleased tensor is evicted, the leased one leaves too little room, and the insertion
is rejected. -/
theorem insert_rejected_evicts :
    exampleStore.contains 3 = false ∧ (exampleStore.insert 3 (exampleTensor 8)).1 = false ∧
      exampleStore.contains 2 = true ∧
      (exampleStore.insert 3 (exampleTensor 8)).2.contains 2 = false := by
  decide

end VBuf.Ggml
