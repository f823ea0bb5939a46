import VBuf.Ggml.TieredRoom

/-!
# Failed transitions between the tiers

An admission or a promotion that finds no room fails after it has pushed out what it
could.  It leaves the store as it is exactly when there was nothing to push out.
-/

namespace VBuf.Ggml

open VBuf.Lib

namespace TieredResidencyStore

variable {store after : TieredResidencyStore} {tensorRef : UInt32} {entry : TieredResidencyEntry}
  {bytes epoch : UInt64} {target tier : ResidencyTier}

/-- The tensors, their tiers and the byte counters are the same. -/
structure SameContents (before after : TieredResidencyStore) : Prop where
  entries_eq : after.entries = before.entries
  hotBytes_eq : after.hotBytes = before.hotBytes
  warmBytes_eq : after.warmBytes = before.warmBytes

/-- Every tensor of the tier is leased. -/
def AllLeased (tier : ResidencyTier) (store : TieredResidencyStore) : Prop :=
  ∀ ref e, store.entries.lookup ref = some e → e.tier = tier → e.activeLeases ≠ 0

theorem victim_eq_none_iff : store.victim tier = none ↔ AllLeased tier store := by
  constructor
  · intro h ref e hlookup htier
    exact leased_of_victim_none h hlookup htier
  · intro h
    cases hvictim : store.victim tier with
    | none => rfl
    | some pair =>
      obtain ⟨hlookup, htier, hfree, -⟩ := victim_spec hvictim
      exact absurd hfree (h _ _ hlookup htier)

/-- Without a victim, room that is not there is not made. -/
theorem makeRoom_of_allLeased (h : AllLeased tier store) (htier : tier ≠ .backing)
    (hroom : makeRoom tier bytes store = some (false, after)) : after = store := by
  have hvictim := victim_eq_none_iff.2 h
  unfold makeRoom at hroom
  cases tier with
  | backing => exact absurd rfl htier
  | warm =>
    simp only [roomWarm] at hroom
    unfold makeRoomWarm at hroom
    rw [hvictim] at hroom
    split at hroom <;> cases hroom
    rfl
  | hot =>
    simp only at hroom
    unfold makeRoomHot at hroom
    rw [hvictim] at hroom
    split at hroom <;> cases hroom
    rfl

/-- A victim of the warm tier is gone when no room was found. -/
theorem roomWarm_false (hvictim : store.victim .warm ≠ none)
    (hroom : (roomWarm bytes store).1 = false) :
    (roomWarm bytes store).2.entries ≠ store.entries := by
  revert hvictim hroom
  refine And.right (@roomWarm_induct bytes (fun store result => store.Shrinks result.2 ∧
    (store.victim .warm ≠ none → result.1 = false → result.2.entries ≠ store.entries))
    ?fits ?full ?round store)
  case fits => exact fun store _ => ⟨Shrinks.refl store, fun _ h => Bool.noConfusion h⟩
  case full => exact fun store _ hnone => ⟨Shrinks.refl store, fun hsome => absurd hnone hsome⟩
  case round =>
    rintro store ref e result _ hvictim ⟨hshrinks, -⟩
    obtain ⟨hlookup, htier, hfree, -⟩ := victim_spec hvictim
    refine ⟨(shrinks_without hlookup htier hfree).trans hshrinks, fun _ _ heq => ?_⟩
    have hsame : result.2.entries.lookup ref = some e := by rw [heq, hlookup]
    have hback := hshrinks.only ref e hsame
    rw [lookup_without, if_pos rfl] at hback
    cases hback

/-- A pushed out tensor is not hot any more. -/
theorem pushOut_leaves (hvictim : store.victim .hot = some (tensorRef, entry))
    (hpush : store.pushOut tensorRef entry = some (true, after)) {e : TieredResidencyEntry}
    (he : after.entries.lookup tensorRef = some e) : e.tier = .warm := by
  rcases pushOut_cases hvictim with ⟨-, middle, -, heq⟩ | ⟨-, middle, -, heq⟩ | ⟨-, heq⟩
  · cases heq.symm.trans hpush
    rw [lookup_relocate, if_pos rfl] at he
    cases he
    rfl
  · cases heq.symm.trans hpush
    rw [lookup_without, if_pos rfl] at he
    cases he
  · cases heq.symm.trans hpush
    rw [lookup_without, if_pos rfl] at he
    cases he

/-- A victim of the hot tier has left it when no room was found. -/
theorem makeRoomHot_false (hvictim : store.victim .hot ≠ none)
    (hroom : makeRoomHot bytes (store.count .hot) store = some (false, after)) :
    after.entries ≠ store.entries := by
  have hmotive := @makeRoomHot_induct bytes (fun store result => ∀ answer, result = some answer →
    store.Moves answer.2 ∧
      (store.victim .hot ≠ none → answer.1 = false → answer.2.entries ≠ store.entries))
    ?fits ?full ?round (store.count .hot) store (Nat.le_refl _)
  · exact (hmotive _ hroom).2 hvictim rfl
  case fits =>
    intro store _ answer h
    cases h
    exact ⟨(Shrinks.refl store).moves, fun _ h => Bool.noConfusion h⟩
  case full =>
    intro store _ hnone answer h
    cases h
    exact ⟨(Shrinks.refl store).moves, fun hsome => absurd hnone hsome⟩
  case round =>
    intro store ref e next result _ hvictim hpush hmoves ih answer h
    obtain ⟨hrest, -⟩ := ih answer h
    refine ⟨hmoves.trans hrest, fun _ _ heq => ?_⟩
    obtain ⟨hlookup, htier, -⟩ := victim_spec hvictim
    have hsame : answer.2.entries.lookup ref = some e := by rw [heq, hlookup]
    -- The later rounds bring nothing back into the hot tier.
    obtain ⟨e₀, he₀, hcase⟩ := hrest.origin ref e hsame
    have hwarm := pushOut_leaves hvictim hpush he₀
    rcases hcase with rfl | ⟨hhot, -⟩
    · rw [htier] at hwarm
      cases hwarm
    · rw [hwarm] at hhot
      cases hhot

/-- A failed attempt to make room changes nothing exactly when every tensor of the tier is
leased. -/
theorem makeRoom_false_iff (htier : tier ≠ .backing)
    (hroom : makeRoom tier bytes store = some (false, after)) :
    store.SameContents after ↔ AllLeased tier store := by
  constructor
  · intro hsame
    by_contra hfree
    have hvictim : store.victim tier ≠ none := fun h => hfree (victim_eq_none_iff.1 h)
    cases tier with
    | backing => exact htier rfl
    | warm =>
      have hresult : roomWarm bytes store = (false, after) := Option.some.inj hroom
      have hchanged := @roomWarm_false store bytes hvictim (by rw [hresult])
      rw [hresult] at hchanged
      exact hchanged hsame.entries_eq
    | hot => exact makeRoomHot_false hvictim hroom hsame.entries_eq
  · intro hleased
    rw [makeRoom_of_allLeased hleased htier hroom]
    exact ⟨rfl, rfl, rfl⟩

theorem admitTensor_false_iff
    (h : store.admitTensor tensorRef bytes target epoch = some (false, after)) :
    store.SameContents after ↔
      (target = .backing ∨ store.capacity target < bytes ∨
        (store.entries.lookup tensorRef).isSome = true) ∨ AllLeased target store := by
  unfold admitTensor at h
  split at h
  next hearly =>
    cases h
    exact ⟨fun _ => .inl hearly, fun _ => ⟨rfl, rfl, rfl⟩⟩
  next hlate =>
    rw [or_iff_right hlate]
    split at h
    · cases h
    next middle hroom =>
      cases h
      exact makeRoom_false_iff (fun hbacking => hlate (.inl hbacking)) hroom
    · cases h

theorem promote_false_iff (h : store.promote tensorRef target = some (false, after)) :
    store.SameContents after ↔
      (target ≠ .hot ∨ ∀ e, store.entries.lookup tensorRef = some e → e.activeLeases ≠ 0) ∨
        AllLeased .hot store := by
  unfold promote at h
  split at h
  next hhot =>
    subst hhot
    rw [or_iff_right (fun hne => hne rfl : ¬ ResidencyTier.hot ≠ .hot)]
    unfold move moveWith at h
    split at h
    next hnone =>
      cases h
      refine ⟨fun _ => .inl ?_, fun _ => ⟨rfl, rfl, rfl⟩⟩
      intro e he
      cases hnone.symm.trans he
    next entry hlookup =>
      split at h
      next hearly =>
        cases h
        refine ⟨fun _ => .inl ?_, fun _ => ⟨rfl, rfl, rfl⟩⟩
        intro e he
        cases hlookup.symm.trans he
        exact hearly.resolve_right nofun
      next hlate =>
        have hfree : ¬ ∀ e, store.entries.lookup tensorRef = some e → e.activeLeases ≠ 0 :=
          fun hall => hlate (.inl (hall entry hlookup))
        rw [or_iff_right hfree]
        split at h
        · cases h
        · split at h
          · cases h
          next middle hroom =>
            cases h
            exact makeRoom_false_iff nofun hroom
          · split at h <;> cases h
  next hother =>
    cases h
    exact ⟨fun _ => .inl (.inl hother), fun _ => ⟨rfl, rfl, rfl⟩⟩

/-- An admission or a promotion that fails leaves the tensors, their tiers and the counters
alone exactly when it is refused at once or every tensor of its target tier is leased. -/
theorem failed_transition_iff (store : TieredResidencyStore) :
    (∀ tensorRef bytes target epoch after,
      store.admitTensor tensorRef bytes target epoch = some (false, after) →
      (store.SameContents after ↔
        (target = .backing ∨ store.capacity target < bytes ∨
          (store.entries.lookup tensorRef).isSome = true) ∨ AllLeased target store)) ∧
    ∀ tensorRef target after, store.promote tensorRef target = some (false, after) →
      (store.SameContents after ↔
        (target ≠ .hot ∨ ∀ e, store.entries.lookup tensorRef = some e → e.activeLeases ≠ 0) ∨
          AllLeased .hot store) :=
  ⟨fun _ _ _ _ _ => admitTensor_false_iff, fun _ _ _ => promote_false_iff⟩

/-- A hot tier of eight bytes: the unleased tensor makes room, the leased one does not, and
the admission fails after the first one has become warm. -/
theorem failed_transition_demotes :
    ∃ first store after,
      (empty 8 8 2).admitTensor 1 4 .hot 0 = some (true, first) ∧
      (first.acquire 1).2.admitTensor 2 4 .hot 0 = some (true, store) ∧
      store.admitTensor 3 8 .hot 0 = some (false, after) ∧
      (store.entries.lookup 2).map (·.tier) = some .hot ∧
      (after.entries.lookup 2).map (·.tier) = some .warm ∧ after.hotBytes ≠ store.hotBytes := by
  refine ⟨_, _, _, rfl, rfl, rfl, ?_⟩
  decide

end TieredResidencyStore

end VBuf.Ggml
