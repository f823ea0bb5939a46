import VBuf.Ggml.TieredAccounting

/-!
# Making room

The rounds of `make_room` as induction rules, one for each tier, and what a tier
keeps: an unleased tensor stays in the warm tier exactly if there is room beside
the leased tensors and those used after it.
-/

namespace VBuf.Ggml

open VBuf.Lib

namespace TieredResidencyStore

variable {store after : TieredResidencyStore} {tensorRef : UInt32} {entry : TieredResidencyEntry}
  {bytes : UInt64}

/-- The bytes fit beside those of the tier. -/
def Fits (tier : ResidencyTier) (bytes : UInt64) (store : TieredResidencyStore) : Prop :=
  store.tierBytes tier + bytes ≤ store.capacity tier

/-! ### The warm tier -/

/-- Unleased tensors of the warm tier left, the rest is as before. -/
structure Shrinks (before after : TieredResidencyStore) : Prop where
  capacity_eq : ∀ tier, after.capacity tier = before.capacity tier
  accounted : before.Accounted → after.Accounted
  only : ∀ ref e, after.entries.lookup ref = some e → before.entries.lookup ref = some e
  kept : ∀ ref e, before.entries.lookup ref = some e → e.tier ≠ .warm ∨ e.activeLeases ≠ 0 →
    after.entries.lookup ref = some e

theorem Shrinks.refl (store : TieredResidencyStore) : store.Shrinks store :=
  ⟨fun _ => rfl, id, fun _ _ h => h, fun _ _ h _ => h⟩

theorem Shrinks.trans {a b c : TieredResidencyStore} (h : a.Shrinks b) (h' : b.Shrinks c) :
    a.Shrinks c :=
  ⟨fun tier => (h'.capacity_eq tier).trans (h.capacity_eq tier), fun ha => h'.accounted (h.accounted ha),
    fun ref e he => h.only ref e (h'.only ref e he),
    fun ref e he hkept => h'.kept ref e (h.kept ref e he hkept) hkept⟩

theorem shrinks_without (hlookup : store.entries.lookup tensorRef = some entry)
    (htier : entry.tier = .warm) (hfree : entry.activeLeases = 0) :
    store.Shrinks (store.without tensorRef entry) := by
  refine ⟨capacity_without, fun h => h.without hlookup, ?_, ?_⟩
  · intro ref e he
    rw [lookup_without] at he
    split at he
    · cases he
    · exact he
  · intro ref e he hkept
    rw [lookup_without, if_neg, he]
    intro heq
    subst heq
    cases hlookup.symm.trans he
    exact hkept.elim (fun hne => hne htier) (fun hne => hne hfree)

/-- A sum that does not look at unleased warm tensors stays. -/
theorem Shrinks.total_eq (h : store.Shrinks after)
    {weight : UInt32 → TieredResidencyEntry → Nat}
    (hzero : ∀ ref e, store.entries.lookup ref = some e → after.entries.lookup ref = none →
      weight ref e = 0) :
    AssocMap.total weight after.entries = AssocMap.total weight store.entries :=
  AssocMap.total_eq_of_submap weight h.only hzero

theorem drop_of_free (hlookup : store.entries.lookup tensorRef = some entry)
    (hfree : entry.activeLeases = 0) :
    store.drop tensorRef = (true, store.without tensorRef entry) := by
  unfold drop
  rw [hlookup]
  simp only [hfree, ne_eq, not_true_eq_false, if_false]

theorem count_without (hlookup : store.entries.lookup tensorRef = some entry) :
    store.count entry.tier = (store.without tensorRef entry).count entry.tier + 1 := by
  have htotal := AssocMap.total_erase (fun _ e => if e.tier = entry.tier then 1 else 0) hlookup
  rw [if_pos rfl] at htotal
  rw [Nat.add_comm]
  exact htotal

/-- The rounds of `make_room` of the warm tier: it ends with room or without a
victim, or takes the victim out. -/
theorem makeRoomWarm_induct {motive : TieredResidencyStore → Bool × TieredResidencyStore → Prop}
    (fits : ∀ store, Fits .warm bytes store → motive store (true, store))
    (full : ∀ store, ¬ Fits .warm bytes store → store.victim .warm = none →
      motive store (false, store))
    (round : ∀ store ref e result, ¬ Fits .warm bytes store →
      store.victim .warm = some (ref, e) → motive (store.without ref e) result →
      motive store result)
    (fuel : Nat) (store : TieredResidencyStore) (hfuel : store.count .warm ≤ fuel) :
    motive store (makeRoomWarm bytes fuel store) := by
  induction fuel generalizing store with
  | zero =>
      unfold makeRoomWarm
      split
      next hfits => exact fits store hfits
      next hfits =>
          split
          next hvictim => exact full store hfits hvictim
          next pair hvictim _ =>
              obtain ⟨hlookup, htier, -⟩ := @victim_spec store pair.1 pair.2 _ hvictim
              have hcount := count_without hlookup
              rw [htier] at hcount
              omega
          next heq => cases heq
  | succ fuel ih =>
      unfold makeRoomWarm
      split
      next hfits => exact fits store hfits
      next hfits =>
          split
          next hvictim => exact full store hfits hvictim
          next heq => cases heq
          next ref e _ hvictim heq =>
              cases heq
              obtain ⟨hlookup, htier, hfree, -⟩ := victim_spec hvictim
              have hcount := count_without hlookup
              rw [htier] at hcount
              rw [drop_of_free hlookup hfree]
              exact round store ref e _ hfits hvictim (ih _ (by omega))

theorem roomWarm_induct {motive : TieredResidencyStore → Bool × TieredResidencyStore → Prop}
    (fits : ∀ store, Fits .warm bytes store → motive store (true, store))
    (full : ∀ store, ¬ Fits .warm bytes store → store.victim .warm = none →
      motive store (false, store))
    (round : ∀ store ref e result, ¬ Fits .warm bytes store →
      store.victim .warm = some (ref, e) → motive (store.without ref e) result →
      motive store result)
    (store : TieredResidencyStore) : motive store (roomWarm bytes store) :=
  makeRoomWarm_induct fits full round _ store (Nat.le_refl _)

theorem roomWarm_shrinks (bytes : UInt64) (store : TieredResidencyStore) :
    store.Shrinks (roomWarm bytes store).2 := by
  apply @roomWarm_induct bytes (fun store result => store.Shrinks result.2)
  case fits => exact fun store _ => Shrinks.refl store
  case full => exact fun store _ _ => Shrinks.refl store
  case round =>
      intro store ref e result _ hvictim hresult
      obtain ⟨hlookup, htier, hfree, -⟩ := victim_spec hvictim
      exact (shrinks_without hlookup htier hfree).trans hresult

theorem roomWarm_fits (bytes : UInt64) (store : TieredResidencyStore)
    (h : (roomWarm bytes store).1 = true) : Fits .warm bytes (roomWarm bytes store).2 := by
  revert h
  apply @roomWarm_induct bytes (fun _ result => result.1 = true → Fits .warm bytes result.2)
  case fits => exact fun _ hfits _ => hfits
  case full => exact fun _ _ _ h => Bool.noConfusion h
  case round => exact fun _ _ _ _ _ _ hresult => hresult

theorem roomWarm_of_fits (h : Fits .warm bytes store) : roomWarm bytes store = (true, store) := by
  unfold roomWarm makeRoomWarm
  exact if_pos h

/-- The bytes of a tier that are leased or used at a rank or after it. -/
def keptBytes (tier : ResidencyTier) (rank : Nat) (store : TieredResidencyStore) : Nat :=
  AssocMap.total (fun ref e =>
    if e.tier = tier ∧ (e.activeLeases ≠ 0 ∨ rank ≤ useRank ref e) then e.bytes.toNat else 0)
    store.entries

theorem keptBytes_le (tier : ResidencyTier) (rank : Nat) (store : TieredResidencyStore) :
    store.keptBytes tier rank ≤ store.tierTotal tier := by
  apply AssocMap.total_le_total
  intro ref e
  split
  next h => rw [if_pos h.1]
  next => exact Nat.zero_le _

/-- From the victim on, the whole tier is kept. -/
theorem keptBytes_victim {tier : ResidencyTier}
    (h : store.victim tier = some (tensorRef, entry)) :
    store.keptBytes tier (useRank tensorRef entry) = store.tierTotal tier := by
  obtain ⟨-, -, -, hfirst⟩ := victim_spec h
  apply AssocMap.total_congr
  intro ref e he
  by_cases htier : e.tier = tier
  · rw [if_pos htier, if_pos]
    refine ⟨htier, ?_⟩
    by_cases hfree : e.activeLeases = 0
    · exact Or.inr (hfirst ref e he htier hfree)
    · exact Or.inl hfree
  · rw [if_neg htier, if_neg (fun hand => htier hand.1)]

/-- A tensor used before the rank does not count. -/
theorem keptBytes_without {tier : ResidencyTier} {rank : Nat}
    (hlookup : store.entries.lookup tensorRef = some entry)
    (hfree : entry.activeLeases = 0) (hrank : useRank tensorRef entry < rank) :
    (store.without tensorRef entry).keptBytes tier rank = store.keptBytes tier rank := by
  have htotal := AssocMap.total_erase (fun ref e =>
    if e.tier = tier ∧ (e.activeLeases ≠ 0 ∨ rank ≤ useRank ref e) then e.bytes.toNat else 0) hlookup
  rw [if_neg, Nat.zero_add] at htotal
  · exact htotal.symm
  · intro hand
    exact hand.2.elim (fun hne => hne hfree) (fun hle => by omega)

/-- An unleased tensor stays in the warm tier exactly if the bytes fit beside what
is kept with it. -/
theorem roomWarm_lookup (hbytes : bytes.toNat < 2 ^ 63) (h : store.Accounted)
    (hlookup : store.entries.lookup tensorRef = some entry) (htier : entry.tier = .warm)
    (hfree : entry.activeLeases = 0) :
    if store.keptBytes .warm (useRank tensorRef entry) + bytes.toNat ≤
        (store.capacity .warm).toNat then
      (roomWarm bytes store).1 = true ∧
        (roomWarm bytes store).2.entries.lookup tensorRef = some entry ∧
        (roomWarm bytes store).2.keptBytes .warm (useRank tensorRef entry) =
          store.keptBytes .warm (useRank tensorRef entry)
    else (roomWarm bytes store).2.entries.lookup tensorRef = none := by
  revert h hlookup
  refine (@roomWarm_induct bytes (fun store result => store.Shrinks result.2 ∧
    (store.Accounted → store.entries.lookup tensorRef = some entry →
    if store.keptBytes .warm (useRank tensorRef entry) + bytes.toNat ≤
        (store.capacity .warm).toNat then
      result.1 = true ∧ result.2.entries.lookup tensorRef = some entry ∧
        result.2.keptBytes .warm (useRank tensorRef entry) =
          store.keptBytes .warm (useRank tensorRef entry)
    else result.2.entries.lookup tensorRef = none)) ?fits ?full ?round store).2
  case fits =>
      intro store hfits
      refine ⟨Shrinks.refl store, ?_⟩
      intro h hlookup
      have hroom := (h.fits_iff (by decide) hbytes).1 hfits
      rw [h.bytes_eq .warm (by decide)] at hroom
      have hle := keptBytes_le .warm (useRank tensorRef entry) store
      rw [if_pos (by omega)]
      exact ⟨rfl, hlookup, rfl⟩
  case full =>
      intro store hfits hvictim
      refine ⟨Shrinks.refl store, ?_⟩
      intro h hlookup
      exact absurd hfree (leased_of_victim_none hvictim hlookup htier)
  case round =>
      intro store ref e result hfits hvictim ih
      obtain ⟨hshrinks, ih⟩ := ih
      obtain ⟨hvlookup, hvtier, hvfree, hfirst⟩ := victim_spec hvictim
      refine ⟨(shrinks_without hvlookup hvtier hvfree).trans hshrinks, ?_⟩
      intro h hlookup
      by_cases heq : ref = tensorRef
      · -- The victim is the tensor itself: nothing else of the tier could go before it.
        subst heq
        cases hvlookup.symm.trans hlookup
        have hover := mt (h.fits_iff (by decide) hbytes).2 hfits
        rw [h.bytes_eq .warm (by decide)] at hover
        rw [keptBytes_victim hvictim, if_neg hover]
        cases hgone : result.2.entries.lookup ref with
        | none => rfl
        | some e =>
            have hbefore := hshrinks.only ref e hgone
            rw [lookup_without, if_pos rfl] at hbefore
            cases hbefore
      · have hle := hfirst tensorRef entry hlookup htier hfree
        have hlt : useRank ref e < useRank tensorRef entry :=
          Nat.lt_of_le_of_ne hle (fun hsame => heq (useRank_inj hsame))
        have hnext := ih (h.without hvlookup) (by rw [lookup_without, if_neg (Ne.symm heq), hlookup])
        rw [keptBytes_without hvlookup hvfree hlt, capacity_without] at hnext
        exact hnext

/-! ### The hot tier -/

/-- Unleased tensors went from the hot to the warm tier or left. -/
structure Moves (before after : TieredResidencyStore) : Prop where
  capacity_eq : ∀ tier, after.capacity tier = before.capacity tier
  accounted : before.Accounted → after.Accounted
  origin : ∀ ref e, after.entries.lookup ref = some e →
    ∃ e₀, before.entries.lookup ref = some e₀ ∧
      (e = e₀ ∨ e₀.tier = .hot ∧ e = { e₀ with tier := .warm })
  leased : ∀ ref e, before.entries.lookup ref = some e → e.activeLeases ≠ 0 →
    after.entries.lookup ref = some e

theorem Shrinks.moves (h : store.Shrinks after) : store.Moves after :=
  ⟨h.capacity_eq, h.accounted, fun ref e he => ⟨e, h.only ref e he, Or.inl rfl⟩,
    fun ref e he hleased => h.kept ref e he (Or.inr hleased)⟩

theorem Moves.trans {a b c : TieredResidencyStore} (h : a.Moves b) (h' : b.Moves c) :
    a.Moves c := by
  refine ⟨fun tier => (h'.capacity_eq tier).trans (h.capacity_eq tier),
    fun ha => h'.accounted (h.accounted ha), ?_,
    fun ref e he hleased => h'.leased ref e (h.leased ref e he hleased) hleased⟩
  intro ref e he
  obtain ⟨e₁, he₁, hcase₁⟩ := h'.origin ref e he
  obtain ⟨e₀, he₀, hcase₀⟩ := h.origin ref e₁ he₁
  refine ⟨e₀, he₀, ?_⟩
  rcases hcase₁ with rfl | ⟨hhot, rfl⟩
  · exact hcase₀
  · rcases hcase₀ with rfl | ⟨-, rfl⟩
    · exact Or.inr ⟨hhot, rfl⟩
    · cases hhot

theorem Moves.gone (h : store.Moves after) (hnone : store.entries.lookup tensorRef = none) :
    after.entries.lookup tensorRef = none := by
  cases hafter : after.entries.lookup tensorRef with
  | none => rfl
  | some e =>
      obtain ⟨e₀, he₀, -⟩ := h.origin tensorRef e hafter
      cases hnone.symm.trans he₀

theorem moves_without (hlookup : store.entries.lookup tensorRef = some entry)
    (hfree : entry.activeLeases = 0) : store.Moves (store.without tensorRef entry) := by
  refine ⟨capacity_without, fun h => h.without hlookup, ?_, ?_⟩
  · intro ref e he
    rw [lookup_without] at he
    split at he
    · cases he
    · exact ⟨e, he, Or.inl rfl⟩
  · intro ref e he hleased
    rw [lookup_without, if_neg, he]
    intro heq
    subst heq
    cases hlookup.symm.trans he
    exact hleased hfree

theorem moves_relocate (hlookup : store.entries.lookup tensorRef = some entry)
    (htier : entry.tier = .hot) (hfree : entry.activeLeases = 0)
    (hfits : Fits .warm entry.bytes store) :
    store.Moves (store.relocate tensorRef entry .warm) := by
  refine ⟨capacity_relocate .warm, ?_, ?_, ?_⟩
  · intro h
    exact h.relocate hlookup (by decide) (by rw [htier]; decide)
      ((h.fits_iff (by decide) (h.entry_small hlookup)).1 hfits)
  · intro ref e he
    rw [lookup_relocate] at he
    split at he
    next heq =>
        subst heq
        cases he
        exact ⟨entry, hlookup, Or.inr ⟨htier, rfl⟩⟩
    next => exact ⟨e, he, Or.inl rfl⟩
  · intro ref e he hleased
    rw [lookup_relocate, if_neg, he]
    intro heq
    subst heq
    cases hlookup.symm.trans he
    exact hleased hfree

/-- The move of a hot victim, once there is room in the warm tier. -/
theorem moveWith_victim (hlookup : store.entries.lookup tensorRef = some entry)
    (htier : entry.tier = .hot) (hfree : entry.activeLeases = 0)
    (hfits : Fits .warm entry.bytes store) :
    moveWith (fun bytes store => some (roomWarm bytes store)) tensorRef .warm store =
      some (true, store.relocate tensorRef entry .warm) := by
  unfold moveWith
  rw [hlookup]
  simp only
  rw [if_neg (by simp [hfree]), if_neg (by rw [htier]; decide), roomWarm_of_fits hfits]
  simp only [hlookup]

/-- A victim goes to the warm tier, or it is dropped because the warm tier has no
room for it or is too small. -/
theorem pushOut_cases (h : store.victim .hot = some (tensorRef, entry)) :
    (entry.bytes ≤ store.capacity .warm ∧ ∃ after, roomWarm entry.bytes store = (true, after) ∧
        store.pushOut tensorRef entry = some (true, after.relocate tensorRef entry .warm)) ∨
      (entry.bytes ≤ store.capacity .warm ∧ ∃ after, roomWarm entry.bytes store = (false, after) ∧
        store.pushOut tensorRef entry = some (true, after.without tensorRef entry)) ∨
      ¬ entry.bytes ≤ store.capacity .warm ∧
        store.pushOut tensorRef entry = some (true, store.without tensorRef entry) := by
  obtain ⟨hlookup, htier, hfree, -⟩ := victim_spec h
  have hshrinks := roomWarm_shrinks entry.bytes store
  have hfits := roomWarm_fits entry.bytes store
  have hkept := hshrinks.kept tensorRef entry hlookup (Or.inl (by rw [htier]; decide))
  by_cases hle : entry.bytes ≤ store.capacity .warm
  · have hcond : entry.bytes ≤ store.warmCapacityBytes := hle
    cases hroom : roomWarm entry.bytes store with
    | mk room after =>
        rw [hroom] at hfits hkept
        cases room with
        | true =>
            refine Or.inl ⟨hle, after, rfl, ?_⟩
            unfold pushOut
            simp only [if_pos hcond, hroom, if_true]
            exact moveWith_victim hkept htier hfree (hfits rfl)
        | false =>
            refine Or.inr (Or.inl ⟨hle, after, rfl, ?_⟩)
            unfold pushOut
            simp only [if_pos hcond, hroom, Bool.false_eq_true, if_false]
            rw [drop_of_free hkept hfree]
  · have hcond : ¬ entry.bytes ≤ store.warmCapacityBytes := hle
    refine Or.inr (Or.inr ⟨hle, ?_⟩)
    unfold pushOut
    simp only [if_neg hcond, Bool.false_eq_true, if_false]
    rw [drop_of_free hlookup hfree]

theorem count_of_shrinks (h : store.Shrinks after) : after.count .hot = store.count .hot := by
  apply h.total_eq
  intro ref e he hgone
  apply if_neg
  intro htier
  have hkept := h.kept ref e he (Or.inl (by rw [htier]; decide))
  cases hgone.symm.trans hkept

theorem count_relocate (hlookup : store.entries.lookup tensorRef = some entry)
    (htier : entry.tier = .hot) :
    store.count .hot = (store.relocate tensorRef entry .warm).count .hot + 1 := by
  have hcount := count_without hlookup
  rw [htier] at hcount
  have hinsert : (store.relocate tensorRef entry .warm).count .hot =
      0 + (store.without tensorRef entry).count .hot := AssocMap.total_insert _ _ _ _
  omega

/-- A round takes one tensor out of the hot tier. -/
theorem pushOut_moves (h : store.victim .hot = some (tensorRef, entry)) :
    ∃ next, store.pushOut tensorRef entry = some (true, next) ∧ store.Moves next ∧
      store.count .hot = next.count .hot + 1 := by
  obtain ⟨hlookup, htier, hfree, -⟩ := victim_spec h
  have hshrinks := roomWarm_shrinks entry.bytes store
  have hfits := roomWarm_fits entry.bytes store
  rcases pushOut_cases h with ⟨-, after, hroom, hpush⟩ | ⟨-, after, hroom, hpush⟩ | ⟨-, hpush⟩
  · rw [hroom] at hshrinks hfits
    have hkept : after.entries.lookup tensorRef = some entry :=
      hshrinks.kept tensorRef entry hlookup (Or.inl (by rw [htier]; decide))
    have hcount := count_relocate hkept htier
    rw [count_of_shrinks hshrinks] at hcount
    exact ⟨_, hpush, hshrinks.moves.trans (moves_relocate hkept htier hfree (hfits rfl)), hcount⟩
  · rw [hroom] at hshrinks
    have hkept : after.entries.lookup tensorRef = some entry :=
      hshrinks.kept tensorRef entry hlookup (Or.inl (by rw [htier]; decide))
    have hcount := count_without hkept
    rw [htier, count_of_shrinks hshrinks] at hcount
    exact ⟨_, hpush, hshrinks.moves.trans (moves_without hkept hfree), hcount⟩
  · have hcount := count_without hlookup
    rw [htier] at hcount
    exact ⟨_, hpush, moves_without hlookup hfree, hcount⟩

/-- The rounds of `make_room` of the hot tier. -/
theorem makeRoomHot_induct
    {motive : TieredResidencyStore → Option (Bool × TieredResidencyStore) → Prop}
    (fits : ∀ store, Fits .hot bytes store → motive store (some (true, store)))
    (full : ∀ store, ¬ Fits .hot bytes store → store.victim .hot = none →
      motive store (some (false, store)))
    (round : ∀ store ref e next result, ¬ Fits .hot bytes store →
      store.victim .hot = some (ref, e) → store.pushOut ref e = some (true, next) →
      store.Moves next → motive next result → motive store result)
    (fuel : Nat) (store : TieredResidencyStore) (hfuel : store.count .hot ≤ fuel) :
    motive store (makeRoomHot bytes fuel store) := by
  induction fuel generalizing store with
  | zero =>
      unfold makeRoomHot
      split
      next hfits => exact fits store hfits
      next hfits =>
          split
          next hvictim => exact full store hfits hvictim
          next pair hvictim _ =>
              obtain ⟨next, -, -, hcount⟩ := @pushOut_moves store pair.1 pair.2 hvictim
              omega
          next heq => cases heq
  | succ fuel ih =>
      unfold makeRoomHot
      split
      next hfits => exact fits store hfits
      next hfits =>
          split
          next hvictim => exact full store hfits hvictim
          next heq => cases heq
          next ref e _ hvictim heq =>
              cases heq
              obtain ⟨next, hpush, hmoves, hcount⟩ := pushOut_moves hvictim
              rw [hpush]
              exact round store ref e next _ hfits hvictim hpush hmoves (ih next (by omega))

/-- Making room in the hot tier ends, and moves and drops unleased tensors only. -/
theorem makeRoomHot_moves (bytes : UInt64) (store : TieredResidencyStore) :
    ∃ answer, makeRoomHot bytes (store.count .hot) store = some answer ∧
      store.Moves answer.2 ∧ (answer.1 = true → Fits .hot bytes answer.2) := by
  apply @makeRoomHot_induct bytes (fun store result => ∃ answer, result = some answer ∧
    store.Moves answer.2 ∧ (answer.1 = true → Fits .hot bytes answer.2))
  case fits =>
      intro store hfits
      exact ⟨_, rfl, (Shrinks.refl store).moves, fun _ => hfits⟩
  case full =>
      intro store _ _
      exact ⟨_, rfl, (Shrinks.refl store).moves, fun h => Bool.noConfusion h⟩
  case round =>
      intro store ref e next result _ _ _ hmoves ih
      obtain ⟨answer, hanswer, hrest, hfit⟩ := ih
      exact ⟨answer, hanswer, hmoves.trans hrest, hfit⟩
  case hfuel => exact Nat.le_refl _

/-- The bytes of a tier that are leased. -/
def leasedBytes (tier : ResidencyTier) (store : TieredResidencyStore) : Nat :=
  AssocMap.total (fun _ e => if e.tier = tier ∧ e.activeLeases ≠ 0 then e.bytes.toNat else 0)
    store.entries

/-- Leased tensors stay where they are. -/
theorem Moves.leasedBytes_eq (h : store.Moves after) (tier : ResidencyTier) :
    after.leasedBytes tier = store.leasedBytes tier := by
  apply AssocMap.total_eq_of_agree
  intro ref e hne
  have hleased : e.activeLeases ≠ 0 := by
    intro hfree
    exact hne (if_neg (fun hand => hand.2 hfree))
  constructor
  · intro hafter
    obtain ⟨e₀, he₀, hcase⟩ := h.origin ref e hafter
    rcases hcase with rfl | ⟨-, rfl⟩
    · exact he₀
    · have hkept := h.leased ref e₀ he₀ hleased
      rw [he₀, ← hkept, hafter]
  · exact fun hbefore => h.leased ref e hbefore hleased

theorem leasedBytes_le (tier : ResidencyTier) (store : TieredResidencyStore) :
    store.leasedBytes tier ≤ store.tierTotal tier := by
  apply AssocMap.total_le_total
  intro ref e
  split
  next h => rw [if_pos h.1]
  next => exact Nat.zero_le _

/-- Without a victim the whole tier is leased. -/
theorem leasedBytes_full {tier : ResidencyTier} (h : store.victim tier = none) :
    store.leasedBytes tier = store.tierTotal tier := by
  apply AssocMap.total_congr
  intro ref e he
  by_cases htier : e.tier = tier
  · rw [if_pos htier, if_pos ⟨htier, leased_of_victim_none h he htier⟩]
  · rw [if_neg htier, if_neg (fun hand => htier hand.1)]

/-- Room is made exactly if the bytes fit beside the leased tensors. -/
theorem makeRoomHot_true_iff (hbytes : bytes.toNat < 2 ^ 63) (h : store.Accounted)
    {answer : Bool × TieredResidencyStore}
    (hanswer : makeRoomHot bytes (store.count .hot) store = some answer) :
    answer.1 = true ↔ store.leasedBytes .hot + bytes.toNat ≤ (store.capacity .hot).toNat := by
  revert hanswer h
  apply @makeRoomHot_induct bytes (fun store result => store.Accounted → result = some answer →
    (answer.1 = true ↔
      store.leasedBytes .hot + bytes.toNat ≤ (store.capacity .hot).toNat))
  case fits =>
      intro store hfits h hanswer
      cases hanswer
      refine ⟨fun _ => ?_, fun _ => rfl⟩
      have hroom := (h.fits_iff (by decide) hbytes).1 hfits
      rw [h.bytes_eq .hot (by decide)] at hroom
      have hle := leasedBytes_le .hot store
      omega
  case full =>
      intro store hfits hvictim h hanswer
      cases hanswer
      refine ⟨fun hfalse => Bool.noConfusion hfalse, fun hroom => absurd ?_ hfits⟩
      rw [leasedBytes_full hvictim, ← h.bytes_eq .hot (by decide)] at hroom
      exact (h.fits_iff (by decide) hbytes).2 hroom
  case round =>
      intro store ref e next result _ _ _ hmoves ih h hanswer
      rw [← hmoves.leasedBytes_eq, ← hmoves.capacity_eq]
      exact ih (hmoves.accounted h) hanswer
  case hfuel => exact Nat.le_refl _

/-! ### The tensor that waits in the warm tier -/

/-- The bytes of the hot tensors that go to the warm tier before `until` and are
kept there longer than the tensor of the rank. -/
def demotedBytes (rank bound : Nat) (store : TieredResidencyStore) : Nat :=
  AssocMap.total (fun ref e =>
    if e.tier = .hot ∧ e.activeLeases = 0 ∧ rank ≤ useRank ref e ∧ useRank ref e < bound ∧
      e.bytes ≤ store.capacity .warm then e.bytes.toNat else 0) store.entries

/-- There is room in the warm tier for every tensor that leaves the hot tier, next
to what is kept with the tensor of the rank. -/
def RoomBeside (rank : Nat) (bytes : UInt64) (store : TieredResidencyStore) : Prop :=
  ∀ ref e, store.entries.lookup ref = some e → e.tier = .hot → e.activeLeases = 0 →
    (store.capacity .hot).toNat < store.keptBytes .hot (useRank ref e) + bytes.toNat →
    e.bytes ≤ store.capacity .warm →
    store.keptBytes .warm rank + store.demotedBytes rank (useRank ref e) + e.bytes.toNat ≤
      (store.capacity .warm).toNat

/-- What a round does to the sums, seen from a tensor that stays in the warm tier:
the victim counts as kept with it now, or not at all. -/
structure Passed (rank : Nat) (ref : UInt32) (e : TieredResidencyEntry)
    (before next : TieredResidencyStore) : Prop where
  capacity_eq : ∀ tier, next.capacity tier = before.capacity tier
  hot_iff : ∀ v ev, ev.tier = .hot →
    (next.entries.lookup v = some ev ↔ v ≠ ref ∧ before.entries.lookup v = some ev)
  kept_hot : ∀ bound, useRank ref e < bound → next.keptBytes .hot bound = before.keptBytes .hot bound
  pressure : ∀ bound, useRank ref e < bound →
    next.keptBytes .warm rank + next.demotedBytes rank bound =
      before.keptBytes .warm rank + before.demotedBytes rank bound

/-- The first victim has no one before it. -/
theorem demotedBytes_victim (rank : Nat) (h : store.victim .hot = some (tensorRef, entry)) :
    store.demotedBytes rank (useRank tensorRef entry) = 0 := by
  obtain ⟨-, -, -, hfirst⟩ := victim_spec h
  have hzero : store.demotedBytes rank (useRank tensorRef entry) =
      AssocMap.total (fun _ _ => 0) store.entries := by
    apply AssocMap.total_congr
    intro ref e he
    apply if_neg
    intro hand
    have hle := hfirst ref e he hand.1 hand.2.1
    omega
  rw [hzero]
  unfold AssocMap.total
  simp

theorem Passed.roomBeside_iff {rank : Nat} {ref : UInt32} {e : TieredResidencyEntry}
    {next : TieredResidencyStore} (h : Passed rank ref e store next)
    (hvictim : store.victim .hot = some (ref, e))
    (hroom : e.bytes ≤ store.capacity .warm →
      store.keptBytes .warm rank + e.bytes.toNat ≤ (store.capacity .warm).toNat) :
    RoomBeside rank bytes store ↔ RoomBeside rank bytes next := by
  obtain ⟨-, -, -, hfirst⟩ := victim_spec hvictim
  have hlater : ∀ v ev, v ≠ ref → store.entries.lookup v = some ev → ev.tier = .hot →
      ev.activeLeases = 0 → useRank ref e < useRank v ev := by
    intro v ev hne hlookup htier hfree
    refine Nat.lt_of_le_of_ne (hfirst v ev hlookup htier hfree) ?_
    exact fun hsame => hne (useRank_inj hsame).symm
  constructor
  · intro hbeside v ev hlookup htier hfree hover hsmall
    obtain ⟨hne, hbefore⟩ := (h.hot_iff v ev htier).1 hlookup
    have hlt := hlater v ev hne hbefore htier hfree
    rw [h.capacity_eq, h.kept_hot _ hlt] at hover
    rw [h.capacity_eq] at hsmall
    rw [h.capacity_eq, h.pressure _ hlt]
    exact hbeside v ev hbefore htier hfree hover hsmall
  · intro hbeside v ev hlookup htier hfree hover hsmall
    by_cases heq : v = ref
    · subst heq
      have hsame := (victim_spec hvictim).1.symm.trans hlookup
      cases hsame
      rw [demotedBytes_victim rank hvictim, Nat.add_zero]
      exact hroom hsmall
    · have hlt := hlater v ev heq hlookup htier hfree
      have hnext := (h.hot_iff v ev htier).2 ⟨heq, hlookup⟩
      have hresult := hbeside v ev hnext htier hfree
      rw [h.capacity_eq, h.capacity_eq, h.kept_hot _ hlt, h.pressure _ hlt] at hresult
      exact hresult hover hsmall

theorem roomBeside_victim {rank : Nat} (hbytes : bytes.toNat < 2 ^ 63) (h : store.Accounted)
    (hfits : ¬ Fits .hot bytes store) (hvictim : store.victim .hot = some (tensorRef, entry))
    (hbeside : RoomBeside rank bytes store) (hsmall : entry.bytes ≤ store.capacity .warm) :
    store.keptBytes .warm rank + entry.bytes.toNat ≤ (store.capacity .warm).toNat := by
  obtain ⟨hlookup, htier, hfree, -⟩ := victim_spec hvictim
  have hover := mt (h.fits_iff (by decide) hbytes).2 hfits
  rw [h.bytes_eq .hot (by decide), ← keptBytes_victim hvictim] at hover
  have hroom := hbeside tensorRef entry hlookup htier hfree (Nat.lt_of_not_le hover) hsmall
  omega

theorem total_relocate (hlookup : store.entries.lookup tensorRef = some entry)
    (target : ResidencyTier) (weight : UInt32 → TieredResidencyEntry → Nat) :
    AssocMap.total weight (store.relocate tensorRef entry target).entries + weight tensorRef entry =
      weight tensorRef { entry with tier := target } + AssocMap.total weight store.entries :=
  AssocMap.total_update weight { entry with tier := target } hlookup

/-- A round that drops a tensor too large for the warm tier. -/
theorem passed_large (rank : Nat) (hvictim : store.victim .hot = some (tensorRef, entry))
    (hlarge : ¬ entry.bytes ≤ store.capacity .warm) :
    Passed rank tensorRef entry store (store.without tensorRef entry) := by
  obtain ⟨hlookup, htier, hfree, -⟩ := victim_spec hvictim
  refine ⟨capacity_without, ?_, fun bound hlt => keptBytes_without hlookup hfree hlt, ?_⟩
  · intro v ev _
    rw [lookup_without]
    split
    next heq =>
        constructor
        · intro h
          cases h
        · exact fun h => absurd heq h.1
    next hne => exact ⟨fun h => ⟨hne, h⟩, fun h => h.2⟩
  · intro bound _
    have hwarm := AssocMap.total_erase (fun ref e =>
      if e.tier = .warm ∧ (e.activeLeases ≠ 0 ∨ rank ≤ useRank ref e) then e.bytes.toNat else 0)
      hlookup
    have hdemoted := AssocMap.total_erase (fun ref e =>
      if e.tier = .hot ∧ e.activeLeases = 0 ∧ rank ≤ useRank ref e ∧ useRank ref e < bound ∧
        e.bytes ≤ store.capacity .warm then e.bytes.toNat else 0) hlookup
    rw [if_neg (fun hand => by rw [htier] at hand; cases hand.1), Nat.zero_add] at hwarm
    rw [if_neg (fun hand => hlarge hand.2.2.2.2), Nat.zero_add] at hdemoted
    exact (congrArg₂ (· + ·) hwarm hdemoted).symm

/-- The hot tier is not touched by what the warm tier drops. -/
theorem Shrinks.total_hot (h : store.Shrinks after)
    {weight : UInt32 → TieredResidencyEntry → Nat} (hzero : ∀ ref e, e.tier = .warm → weight ref e = 0) :
    AssocMap.total weight after.entries = AssocMap.total weight store.entries := by
  apply h.total_eq
  intro ref e he hgone
  by_cases htier : e.tier = .warm
  · exact hzero ref e htier
  · cases hgone.symm.trans (h.kept ref e he (Or.inl htier))

theorem Shrinks.keptBytes_hot (h : store.Shrinks after) (bound : Nat) :
    after.keptBytes .hot bound = store.keptBytes .hot bound := by
  apply h.total_hot
  intro ref e htier
  exact if_neg (fun hand => by rw [htier] at hand; cases hand.1)

theorem Shrinks.demotedBytes_eq (h : store.Shrinks after) (rank bound : Nat) :
    after.demotedBytes rank bound = store.demotedBytes rank bound := by
  unfold demotedBytes
  rw [h.capacity_eq]
  apply h.total_hot
  intro ref e htier
  exact if_neg (fun hand => by rw [htier] at hand; cases hand.1)

/-- A round that moves the victim to the warm tier. -/
theorem passed_relocate {rank : Nat} (hvictim : store.victim .hot = some (tensorRef, entry))
    (hsmall : entry.bytes ≤ store.capacity .warm) (hshrinks : store.Shrinks after)
    (hkept : after.keptBytes .warm rank = store.keptBytes .warm rank) :
    Passed rank tensorRef entry store (after.relocate tensorRef entry .warm) := by
  obtain ⟨hlookup, htier, hfree, -⟩ := victim_spec hvictim
  have hafter := hshrinks.kept tensorRef entry hlookup (Or.inl (by rw [htier]; decide))
  refine ⟨fun tier => (capacity_relocate .warm tier).trans (hshrinks.capacity_eq tier), ?_, ?_, ?_⟩
  · intro v ev hhot
    rw [lookup_relocate]
    split
    next heq =>
        constructor
        · intro h
          cases h
          cases hhot
        · exact fun h => absurd heq h.1
    next hne =>
        refine ⟨fun h => ⟨hne, hshrinks.only v ev h⟩, ?_⟩
        exact fun h => hshrinks.kept v ev h.2 (Or.inl (by rw [hhot]; decide))
  · intro bound hlt
    have htotal := total_relocate hafter .warm (fun ref e =>
      if e.tier = .hot ∧ (e.activeLeases ≠ 0 ∨ bound ≤ useRank ref e) then e.bytes.toNat else 0)
    rw [if_neg, if_neg (fun hand => by cases hand.1), Nat.add_zero, Nat.zero_add] at htotal
    · exact htotal.trans (hshrinks.keptBytes_hot bound)
    · intro hand
      exact hand.2.elim (fun hne => hne hfree) (fun hle => by omega)
  · intro bound hlt
    have hcapacity := hshrinks.capacity_eq .warm
    have hdemoted := hshrinks.demotedBytes_eq rank bound
    have hwarm := total_relocate hafter .warm (fun ref e =>
      if e.tier = .warm ∧ (e.activeLeases ≠ 0 ∨ rank ≤ useRank ref e) then e.bytes.toNat else 0)
    have hhot := total_relocate hafter .warm (fun ref e =>
      if e.tier = .hot ∧ e.activeLeases = 0 ∧ rank ≤ useRank ref e ∧ useRank ref e < bound ∧
        e.bytes ≤ after.capacity .warm then e.bytes.toNat else 0)
    -- The victim leaves the one sum and enters the other, or is in neither.
    have hwarm' : (after.relocate tensorRef entry .warm).keptBytes .warm rank =
        (if rank ≤ useRank tensorRef entry then entry.bytes.toNat else 0) +
          after.keptBytes .warm rank := by
      rw [if_neg (fun hand => by rw [htier] at hand; cases hand.1), Nat.add_zero] at hwarm
      refine hwarm.trans (congrArg₂ (· + ·) ?_ rfl)
      exact if_congr ⟨fun hand => hand.2.resolve_left (fun hne => hne hfree),
        fun hle => ⟨rfl, Or.inr hle⟩⟩ rfl rfl
    have hhot' : (after.relocate tensorRef entry .warm).demotedBytes rank bound +
        (if rank ≤ useRank tensorRef entry then entry.bytes.toNat else 0) =
          after.demotedBytes rank bound := by
      conv_rhs at hhot => rw [if_neg (fun hand => by cases hand.1), Nat.zero_add]
      refine Eq.trans (congrArg₂ (· + ·) rfl ?_) hhot
      exact if_congr ⟨fun hle => ⟨htier, hfree, hle, hlt, hcapacity.symm ▸ hsmall⟩,
        fun hand => hand.2.2.1⟩ rfl rfl
    omega

/-- One round: the tensor stays, and the rest is as before, exactly if the victim
has room beside it. -/
theorem pushOut_lookup {ref : UInt32} {e : TieredResidencyEntry} {next : TieredResidencyStore}
    (h : store.Accounted) (hlookup : store.entries.lookup tensorRef = some entry)
    (htier : entry.tier = .warm) (hfree : entry.activeLeases = 0)
    (hvictim : store.victim .hot = some (ref, e)) (hpush : store.pushOut ref e = some (true, next)) :
    if e.bytes ≤ store.capacity .warm → store.keptBytes .warm (useRank tensorRef entry) +
        e.bytes.toNat ≤ (store.capacity .warm).toNat then
      next.entries.lookup tensorRef = some entry ∧
        Passed (useRank tensorRef entry) ref e store next
    else next.entries.lookup tensorRef = none := by
  obtain ⟨hvlookup, hvtier, hvfree, -⟩ := victim_spec hvictim
  have hne : tensorRef ≠ ref := by
    intro heq
    subst heq
    cases hlookup.symm.trans hvlookup
    rw [htier] at hvtier
    cases hvtier
  have hstays := roomWarm_lookup (h.entry_small hvlookup) h hlookup htier hfree
  have hshrinks := roomWarm_shrinks e.bytes store
  rcases pushOut_cases hvictim with ⟨hle, after, hroom, heq⟩ | ⟨hle, after, hroom, heq⟩ |
    ⟨hle, heq⟩
  · cases hpush.symm.trans heq
    rw [hroom] at hstays hshrinks
    rw [lookup_relocate, if_neg hne]
    split
    next hcond =>
        rw [if_pos (hcond hle)] at hstays
        exact ⟨hstays.2.1, passed_relocate hvictim hle hshrinks hstays.2.2⟩
    next hcond =>
        rw [if_neg (fun hfit => hcond (fun _ => hfit))] at hstays
        exact hstays
  · cases hpush.symm.trans heq
    rw [hroom] at hstays
    rw [lookup_without, if_neg hne]
    split
    next hcond =>
        rw [if_pos (hcond hle)] at hstays
        cases hstays.1
    next hcond =>
        rw [if_neg (fun hfit => hcond (fun _ => hfit))] at hstays
        exact hstays
  · cases hpush.symm.trans heq
    rw [if_pos (fun hle' => absurd hle' hle), lookup_without, if_neg hne]
    exact ⟨hlookup, passed_large _ hvictim hle⟩

/-- An unleased tensor of the warm tier stays through the making of room in the hot
tier exactly if there is room beside it. -/
theorem makeRoomHot_lookup (hbytes : bytes.toNat < 2 ^ 63) (h : store.Accounted)
    (hlookup : store.entries.lookup tensorRef = some entry) (htier : entry.tier = .warm)
    (hfree : entry.activeLeases = 0) {answer : Bool × TieredResidencyStore}
    (hanswer : makeRoomHot bytes (store.count .hot) store = some answer) :
    (RoomBeside (useRank tensorRef entry) bytes store →
        answer.2.entries.lookup tensorRef = some entry) ∧
      (¬ RoomBeside (useRank tensorRef entry) bytes store →
        answer.2.entries.lookup tensorRef = none) := by
  revert hanswer h hlookup
  refine (@makeRoomHot_induct bytes (fun store result =>
    (∃ answer, result = some answer ∧ store.Moves answer.2) ∧
    (store.Accounted → store.entries.lookup tensorRef = some entry → result = some answer →
    (RoomBeside (useRank tensorRef entry) bytes store →
        answer.2.entries.lookup tensorRef = some entry) ∧
      (¬ RoomBeside (useRank tensorRef entry) bytes store →
        answer.2.entries.lookup tensorRef = none))) ?fits ?full ?round _ store
    (Nat.le_refl _)).2
  case fits =>
      intro store hfits
      refine ⟨⟨_, rfl, (Shrinks.refl store).moves⟩, ?_⟩
      intro h hlookup hanswer
      cases hanswer
      refine ⟨fun _ => hlookup, fun hnot => absurd ?_ hnot⟩
      -- There is no victim.
      intro v ev hv hvtier hvfree hover
      have hroom := (h.fits_iff (by decide) hbytes).1 hfits
      rw [h.bytes_eq .hot (by decide)] at hroom
      have hle := keptBytes_le .hot (useRank v ev) store
      omega
  case full =>
      intro store hfits hvictim
      refine ⟨⟨_, rfl, (Shrinks.refl store).moves⟩, ?_⟩
      intro h hlookup hanswer
      cases hanswer
      refine ⟨fun _ => hlookup, fun hnot => absurd ?_ hnot⟩
      intro v ev hv hvtier hvfree
      exact absurd hvfree (leased_of_victim_none hvictim hv hvtier)
  case round =>
      intro store ref e next result hfits hvictim hpush hmoves ih
      obtain ⟨⟨last, hlast, hrest⟩, ih⟩ := ih
      refine ⟨⟨last, hlast, hmoves.trans hrest⟩, ?_⟩
      intro h hlookup hanswer
      have hpushed := pushOut_lookup h hlookup htier hfree hvictim hpush
      split at hpushed
      next hcond =>
          obtain ⟨hnext, hpassed⟩ := hpushed
          rw [hpassed.roomBeside_iff hvictim hcond]
          exact ih (hmoves.accounted h) hnext hanswer
      next hcond =>
          constructor
          · intro hbeside
            exact absurd (roomBeside_victim hbytes h hfits hvictim hbeside) hcond
          · intro _
            cases hlast.symm.trans hanswer
            exact hrest.gone hpushed

end TieredResidencyStore

end VBuf.Ggml
