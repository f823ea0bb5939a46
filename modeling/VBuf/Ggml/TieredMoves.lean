import VBuf.Ggml.TieredRoom

/-!
# Runs of the tiered store

The calls keep the accounting and the leased tensors.  A promotion goes wrong
when making room in the hot tier drops the promoted tensor itself from the warm
tier; the runs without one are lossless.
-/

namespace VBuf.Ggml

open VBuf.Lib

namespace TieredResidencyStore

variable {store after : TieredResidencyStore} {tensorRef : UInt32} {entry : TieredResidencyEntry}
  {bytes : UInt64}

/-- Leased tensors keep their tier and size. -/
def KeepsLeased (before after : TieredResidencyStore) : Prop :=
  ∀ ref e, before.entries.lookup ref = some e → e.activeLeases ≠ 0 →
    ∃ e', after.entries.lookup ref = some e' ∧ e'.tier = e.tier ∧ e'.bytes = e.bytes

theorem KeepsLeased.refl (store : TieredResidencyStore) : store.KeepsLeased store :=
  fun _ e he _ => ⟨e, he, rfl, rfl⟩

theorem Moves.keepsLeased (h : store.Moves after) : store.KeepsLeased after :=
  fun ref e he hleased => ⟨e, h.leased ref e he hleased, rfl, rfl⟩

/-- A leased tensor does not mind a change of another one, or of its own counters. -/
theorem KeepsLeased.insert {middle : TieredResidencyStore} (h : store.KeepsLeased middle)
    {other : TieredResidencyEntry}
    (hafter : after.entries = middle.entries.insert tensorRef other)
    (hsame : ∀ e, middle.entries.lookup tensorRef = some e →
      other.tier = e.tier ∧ other.bytes = e.bytes) :
    store.KeepsLeased after := by
  intro ref e he hleased
  obtain ⟨e', he', htier, hbytes⟩ := h ref e he hleased
  rw [hafter, AssocMap.lookup_insert_eq]
  split
  next heq =>
      subst heq
      have hother := hsame e' he'
      exact ⟨other, rfl, hother.1.trans htier, hother.2.trans hbytes⟩
  next => exact ⟨e', he', htier, hbytes⟩

/-- Room in a tier, as `make_room` answers it. -/
theorem makeRoom_moves {tier : ResidencyTier} (htier : tier ≠ .backing) (bytes : UInt64)
    (store : TieredResidencyStore) :
    ∃ answer, makeRoom tier bytes store = some answer ∧
      store.Moves answer.2 ∧ (answer.1 = true → Fits tier bytes answer.2) := by
  cases tier with
  | backing => exact absurd rfl htier
  | warm =>
      exact ⟨_, rfl, (roomWarm_shrinks bytes store).moves, roomWarm_fits bytes store⟩
  | hot => exact makeRoomHot_moves bytes store

/-- What a call does when it goes well. -/
structure Keeps (before : TieredResidencyStore) (after : TieredResidencyStore) : Prop where
  accounted : after.Accounted
  leased : before.KeepsLeased after

theorem admit_keeps (h : store.Accounted) (tensorRef : UInt32) (bytes : UInt64)
    (target : ResidencyTier) (epoch : UInt64) :
    ∃ answer, admitTensor tensorRef bytes target epoch store = some answer ∧ store.Keeps answer.2 := by
  unfold admitTensor
  split
  next => exact ⟨_, rfl, h, KeepsLeased.refl store⟩
  next hguard =>
      obtain ⟨htarget, hguard⟩ := not_or.1 hguard
      obtain ⟨hle, hnew⟩ := not_or.1 hguard
      have hnone : store.entries.lookup tensorRef = none :=
        Option.not_isSome_iff_eq_none.1 hnew
      obtain ⟨answer, hanswer, hmoves, hfits⟩ := makeRoom_moves htarget bytes store
      rw [hanswer]
      have haccounted := hmoves.accounted h
      cases hcase : answer with
      | mk room after =>
          rw [hcase] at hmoves hfits haccounted
          cases room with
          | false => exact ⟨_, rfl, haccounted, hmoves.keepsLeased⟩
          | true =>
              have hbytes : bytes.toNat < 2 ^ 63 := by
                have hle' := UInt64.le_iff_toNat_le.1 (UInt64.not_lt.1 hle)
                have hsmall := h.small target
                omega
              have hroom := (haccounted.fits_iff htarget hbytes).1 (hfits rfl)
              have hgone := hmoves.gone hnone
              refine ⟨_, rfl, haccounted.admitted hgone htarget hroom, ?_⟩
              apply hmoves.keepsLeased.insert rfl
              intro e he
              cases hgone.symm.trans he

/-- An entry that is written back with its tier and size. -/
theorem update_keeps (h : store.Accounted)
    (hlookup : store.entries.lookup tensorRef = some entry) (other : TieredResidencyEntry)
    (htier : other.tier = entry.tier) (hbytes : other.bytes = entry.bytes) (clock : UInt64) :
    store.Keeps { store with clock, entries := store.entries.insert tensorRef other } := by
  refine ⟨h.update hlookup htier hbytes clock, ?_⟩
  apply (KeepsLeased.refl store).insert rfl
  intro e he
  cases hlookup.symm.trans he
  exact ⟨htier, hbytes⟩

theorem request_keeps (h : store.Accounted) (tensorRef : UInt32) (bytes epoch : UInt64) :
    ∃ answer, request tensorRef bytes epoch store = some answer ∧ store.Keeps answer.2 := by
  unfold request
  split
  next => exact admit_keeps h tensorRef bytes .warm epoch
  next entry hlookup => exact ⟨_, rfl, update_keeps h hlookup (requested epoch store entry) rfl rfl
      (store.clock + 1)⟩

theorem acquire_keeps (h : store.Accounted) (tensorRef : UInt32) :
    store.Keeps (acquire tensorRef store).2 := by
  unfold acquire
  split
  next => exact ⟨h, KeepsLeased.refl store⟩
  next entry hlookup =>
      exact update_keeps h hlookup { entry with activeLeases := entry.activeLeases + 1 } rfl rfl
        store.clock

theorem release_keeps (h : store.Accounted) (tensorRef : UInt32) :
    store.Keeps (release tensorRef store).2 := by
  unfold release
  split
  next => exact ⟨h, KeepsLeased.refl store⟩
  next entry hlookup =>
      split
      next => exact ⟨h, KeepsLeased.refl store⟩
      next =>
          exact update_keeps h hlookup { entry with activeLeases := entry.activeLeases - 1 } rfl
            rfl store.clock

theorem drop_keeps (h : store.Accounted) (tensorRef : UInt32) :
    store.Keeps (drop tensorRef store).2 := by
  unfold drop
  split
  next => exact ⟨h, KeepsLeased.refl store⟩
  next entry hlookup =>
      split
      next => exact ⟨h, KeepsLeased.refl store⟩
      next hleased =>
          have hmoves := moves_without hlookup (not_not.1 hleased)
          exact ⟨hmoves.accounted h, hmoves.keepsLeased⟩

/-! ### Moves between the tiers -/

/-- The tensor is in the target tier, with the size, leases and requests it had. -/
def Landed (tensorRef : UInt32) (target : ResidencyTier) (before after : TieredResidencyStore) :
    Prop :=
  ∃ e e', before.entries.lookup tensorRef = some e ∧ after.entries.lookup tensorRef = some e' ∧
    e'.tier = target ∧ e'.bytes = e.bytes ∧ e'.activeLeases = e.activeLeases ∧
    e'.requestCount = e.requestCount

/-- A move whose tensor survives the making of room. -/
theorem move_keeps (h : store.Accounted) (tensorRef : UInt32) {target : ResidencyTier}
    (hstays : ∀ e answer, store.entries.lookup tensorRef = some e → e.activeLeases = 0 →
      e.tier ≠ target → makeRoom target e.bytes store = some answer → answer.1 = true →
      answer.2.entries.lookup tensorRef = some e) :
    ∃ answer, move tensorRef target store = some answer ∧ store.Keeps answer.2 ∧
      (answer.1 = true → Landed tensorRef target store answer.2) := by
  unfold move moveWith
  split
  next => exact ⟨_, rfl, ⟨h, KeepsLeased.refl store⟩, fun hfalse => Bool.noConfusion hfalse⟩
  next entry hlookup =>
      split
      next => exact ⟨_, rfl, ⟨h, KeepsLeased.refl store⟩, fun hfalse => Bool.noConfusion hfalse⟩
      next hguard =>
          obtain ⟨hfree, htarget⟩ := not_or.1 hguard
          rw [not_not] at hfree
          split
          next htier =>
              exact ⟨_, rfl, ⟨h, KeepsLeased.refl store⟩,
                fun _ => ⟨entry, entry, hlookup, hlookup, htier, rfl, rfl, rfl⟩⟩
          next htier =>
              obtain ⟨answer, hanswer, hmoves, hfits⟩ := makeRoom_moves htarget entry.bytes store
              have hstay := hstays entry answer hlookup hfree htier hanswer
              have haccounted := hmoves.accounted h
              rw [hanswer]
              cases hcase : answer with
              | mk room after =>
                  rw [hcase] at hmoves hfits haccounted hstay
                  cases room with
                  | false =>
                      exact ⟨_, rfl, ⟨haccounted, hmoves.keepsLeased⟩,
                        fun hfalse => Bool.noConfusion hfalse⟩
                  | true =>
                      have hafter : after.entries.lookup tensorRef = some entry := hstay rfl
                      have hroom := (haccounted.fits_iff htarget
                        (haccounted.entry_small hafter)).1 (hfits rfl)
                      simp only [hafter]
                      refine ⟨_, rfl, ⟨haccounted.relocate hafter htarget htier hroom, ?_⟩, ?_⟩
                      · intro ref e he hleased
                        have hkept := hmoves.leased ref e he hleased
                        refine ⟨e, ?_, rfl, rfl⟩
                        rw [lookup_relocate, if_neg, hkept]
                        intro heq
                        subst heq
                        cases hlookup.symm.trans he
                        exact hleased hfree
                      · intro _
                        refine ⟨entry, { entry with tier := target }, hlookup, ?_, rfl, rfl, rfl,
                          rfl⟩
                        rw [lookup_relocate, if_pos rfl]

/-- The promoted tensor has room beside the tensors that it pushes out of the hot
tier, or it does not fit beside the leased ones there. -/
def Roomy (tensorRef : UInt32) (store : TieredResidencyStore) : Prop :=
  ∀ e, store.entries.lookup tensorRef = some e → e.tier = .warm → e.activeLeases = 0 →
    RoomBeside (useRank tensorRef e) e.bytes store ∨
      (store.capacity .hot).toNat < store.leasedBytes .hot + e.bytes.toNat

theorem promote_keeps (h : store.Accounted) (hroomy : store.Roomy tensorRef) :
    ∃ answer, move tensorRef .hot store = some answer ∧ store.Keeps answer.2 ∧
      (answer.1 = true → Landed tensorRef .hot store answer.2) := by
  apply move_keeps h tensorRef
  intro e answer hlookup hfree htier hanswer htrue
  have hwarm := other_tier (a := .hot) (by decide) (h.settled tensorRef e hlookup)
    (c := .warm) (by decide) (Ne.symm htier) (by decide)
  have hsmall := h.entry_small hlookup
  rcases hroomy e hlookup hwarm hfree with hbeside | hover
  · exact (makeRoomHot_lookup hsmall h hlookup hwarm hfree hanswer).1 hbeside
  · have hroom := (makeRoomHot_true_iff hsmall h hanswer).1 htrue
    omega

/-- A promotion without room comes back to an entry that is gone. -/
theorem promote_gone (h : store.Accounted) (hroomy : ¬ store.Roomy tensorRef) :
    move tensorRef .hot store = none := by
  unfold Roomy at hroomy
  push Not at hroomy
  obtain ⟨e, hlookup, hwarm, hfree, hbeside, hover⟩ := hroomy
  have hsmall := h.entry_small hlookup
  obtain ⟨answer, hanswer, -, -⟩ := makeRoomHot_moves e.bytes store
  have hgone := (makeRoomHot_lookup hsmall h hlookup hwarm hfree hanswer).2 hbeside
  have htrue := (makeRoomHot_true_iff hsmall h hanswer).2 hover
  have hmake : makeRoom .hot e.bytes store = some answer := hanswer
  unfold move moveWith
  rw [hlookup]
  simp only
  rw [if_neg (by simp [hfree]), if_neg (by rw [hwarm]; decide), hmake]
  cases hcase : answer with
  | mk room after =>
      rw [hcase] at hgone htrue
      cases htrue
      simp only [hgone]

/-- A tensor of the hot tier is not touched by making room in the warm tier. -/
theorem demote_keeps (h : store.Accounted) (tensorRef : UInt32) :
    ∃ answer, move tensorRef .warm store = some answer ∧ store.Keeps answer.2 ∧
      (answer.1 = true → Landed tensorRef .warm store answer.2) := by
  apply move_keeps h tensorRef
  intro e answer hlookup hfree htier hanswer _
  cases hanswer
  exact (roomWarm_shrinks e.bytes store).kept tensorRef e hlookup (Or.inl htier)

/-! ### Runs -/

/-- A promotion has room for its tensor. -/
def Op.Roomy (store : TieredResidencyStore) : Op → Prop
  | .promote tensorRef .hot => store.Roomy tensorRef
  | _ => True

/-- A promotion or a demotion that answers true has its tensor in the target tier. -/
def Op.Lands (before : TieredResidencyStore) (result : Bool) (after : TieredResidencyStore) :
    Op → Prop
  | .promote tensorRef target => result = true → Landed tensorRef target before after
  | .demote tensorRef target => result = true → Landed tensorRef target before after
  | _ => True

theorem Op.apply_keeps (h : store.Accounted) (op : Op) (hroomy : op.Roomy store) :
    ∃ answer, op.apply store = some answer ∧ store.Keeps answer.2 ∧
      op.Lands store answer.1 answer.2 := by
  cases op with
  | request tensorRef bytes epoch =>
      obtain ⟨answer, hanswer, hkeeps⟩ := request_keeps h tensorRef bytes epoch
      exact ⟨answer, hanswer, hkeeps, trivial⟩
  | admitTensor tensorRef bytes target epoch =>
      obtain ⟨answer, hanswer, hkeeps⟩ := admit_keeps h tensorRef bytes target epoch
      exact ⟨answer, hanswer, hkeeps, trivial⟩
  | acquire tensorRef => exact ⟨_, rfl, acquire_keeps h tensorRef, trivial⟩
  | release tensorRef => exact ⟨_, rfl, release_keeps h tensorRef, trivial⟩
  | drop tensorRef => exact ⟨_, rfl, drop_keeps h tensorRef, trivial⟩
  | promote tensorRef target =>
      cases target with
      | hot => exact promote_keeps h hroomy
      | warm =>
          exact ⟨_, rfl, ⟨h, KeepsLeased.refl store⟩, fun hfalse => Bool.noConfusion hfalse⟩
      | backing =>
          exact ⟨_, rfl, ⟨h, KeepsLeased.refl store⟩, fun hfalse => Bool.noConfusion hfalse⟩
  | demote tensorRef target =>
      cases target with
      | warm => exact demote_keeps h tensorRef
      | hot =>
          exact ⟨_, rfl, ⟨h, KeepsLeased.refl store⟩, fun hfalse => Bool.noConfusion hfalse⟩
      | backing =>
          exact ⟨_, rfl, ⟨h, KeepsLeased.refl store⟩, fun hfalse => Bool.noConfusion hfalse⟩

/-- A call without room has no result. -/
theorem Op.roomy_of_apply (h : store.Accounted) (op : Op) {answer : Bool × TieredResidencyStore}
    (hanswer : op.apply store = some answer) : op.Roomy store := by
  cases op with
  | promote tensorRef target =>
      cases target with
      | hot =>
          by_contra hnot
          cases (promote_gone h hnot).symm.trans hanswer
      | warm => trivial
      | backing => trivial
  | request tensorRef bytes epoch => trivial
  | admitTensor tensorRef bytes target epoch => trivial
  | acquire tensorRef => trivial
  | release tensorRef => trivial
  | drop tensorRef => trivial
  | demote tensorRef target => trivial

/-- Every call of the run has a result; the byte counters are right in every state,
leased tensors stay, and moved tensors land. -/
def Lossless : TieredResidencyStore → List Op → Prop
  | store, [] => store.Accounted
  | store, op :: rest =>
      store.Accounted ∧
        ∃ answer, op.apply store = some answer ∧ store.KeepsLeased answer.2 ∧
          op.Lands store answer.1 answer.2 ∧ Lossless answer.2 rest

/-- Each promotion of the run has room for its tensor. -/
def EachRoomy : TieredResidencyStore → List Op → Prop
  | _, [] => True
  | store, op :: rest =>
      op.Roomy store ∧ ∀ answer, op.apply store = some answer → EachRoomy answer.2 rest

theorem lossless_iff_eachRoomy (ops : List Op) (store : TieredResidencyStore)
    (h : store.Accounted) : Lossless store ops ↔ EachRoomy store ops := by
  induction ops generalizing store with
  | nil => exact ⟨fun _ => trivial, fun _ => h⟩
  | cons op rest ih =>
      constructor
      · intro hrun
        obtain ⟨-, answer, hanswer, -, -, hrest⟩ := hrun
        have hroomy := op.roomy_of_apply h hanswer
        refine ⟨hroomy, ?_⟩
        intro other hother
        cases hanswer.symm.trans hother
        obtain ⟨same, hsame, hkeeps, -⟩ := op.apply_keeps h hroomy
        cases hanswer.symm.trans hsame
        exact (ih answer.2 hkeeps.accounted).1 hrest
      · intro hrun
        obtain ⟨answer, hanswer, hkeeps, hlands⟩ := op.apply_keeps h hrun.1
        exact ⟨h, answer, hanswer, hkeeps.leased, hlands,
          (ih answer.2 hkeeps.accounted).2 (hrun.2 answer hanswer)⟩

theorem empty_accounted {hotCapacityBytes warmCapacityBytes : UInt64} (oldAfterReuses : UInt32)
    (hhot : hotCapacityBytes.toNat < 2 ^ 63) (hwarm : warmCapacityBytes.toNat < 2 ^ 63) :
    (empty hotCapacityBytes warmCapacityBytes oldAfterReuses).Accounted := by
  refine ⟨?_, ?_, ?_, ?_⟩
  · intro tier _
    cases tier <;> rfl
  · intro tier _
    cases tier <;> exact Nat.zero_le _
  · intro ref e he
    cases he
  · intro tier
    cases tier with
    | backing => exact Nat.two_pow_pos 63
    | warm => exact hwarm
    | hot => exact hhot

/-- A run is lossless exactly if each promotion has room for its tensor beside the
tensors that it pushes out of the hot tier, or does not fit there at all. -/
theorem tiered_moves_lossless (hotCapacityBytes warmCapacityBytes : UInt64)
    (oldAfterReuses : UInt32) (hhot : hotCapacityBytes.toNat < 2 ^ 63)
    (hwarm : warmCapacityBytes.toNat < 2 ^ 63) (ops : List Op) :
    Lossless (empty hotCapacityBytes warmCapacityBytes oldAfterReuses) ops ↔
      EachRoomy (empty hotCapacityBytes warmCapacityBytes oldAfterReuses) ops :=
  lossless_iff_eachRoomy ops _ (empty_accounted oldAfterReuses hhot hwarm)

/-- Two tensors, of which one pushes the other out of the hot tier and goes back. -/
def exchange : List Op :=
  [.admitTensor 1 4 .warm 0, .admitTensor 2 4 .hot 0, .promote 1 .hot, .demote 1 .warm,
    .acquire 2]

/-- The store before the promotion. -/
def beforeExchange : TieredResidencyStore :=
  admitted 2 4 .hot 0 (admitted 1 4 .warm 0 (empty 4 8 2))

/-- The tensor that leaves the hot tier fits beside the promoted one. -/
theorem beforeExchange_roomy : beforeExchange.Roomy 1 := by
  intro e he _ _
  obtain rfl : e = ⟨1, 4, .warm, .new, 0, 1, 1, 0, 0⟩ := by
    have hfound : beforeExchange.entries.lookup 1 = some ⟨1, 4, .warm, .new, 0, 1, 1, 0, 0⟩ := by
      decide +kernel
    exact Option.some.inj (he.symm.trans hfound)
  refine Or.inl fun ref other hother _ _ _ _ => ?_
  have hkept : ∀ entry ∈ beforeExchange.entries.entries,
      beforeExchange.keptBytes .warm (useRank 1 ⟨1, 4, .warm, .new, 0, 1, 1, 0, 0⟩) +
        beforeExchange.demotedBytes (useRank 1 ⟨1, 4, .warm, .new, 0, 1, 1, 0, 0⟩)
          (useRank entry.1 entry.2) + entry.2.bytes.toNat ≤ 8 := by
    decide +kernel
  exact hkept ⟨ref, other⟩ (AList.mem_lookup_iff.1 hother)

theorem tiered_moves_lossless_exchange :
    Lossless (empty 4 8 2) exchange ∧
      (beforeExchange.promote 1 .hot).map (fun answer => (answer.1, answer.2.tierBytes .warm)) =
        some (true, 4) := by
  refine ⟨(tiered_moves_lossless 4 8 2 (by decide) (by decide) exchange).2 ?_, by decide +kernel⟩
  refine ⟨trivial, fun first hfirst => ⟨trivial, fun second hsecond => ?_⟩⟩
  cases hfirst
  cases hsecond
  exact ⟨beforeExchange_roomy, fun _ _ => ⟨trivial, fun _ _ => ⟨trivial, fun _ _ => trivial⟩⟩⟩

/-- The promoted tensor has to leave the warm tier for the tensor that it pushes out
of the hot tier. -/
theorem promotion_drops_itself :
    ¬ Lossless (empty 4 4 2) [.admitTensor 1 4 .warm 0, .admitTensor 2 4 .hot 0, .promote 1 .hot] := by
  intro h
  obtain ⟨-, first, hfirst, -, -, h⟩ := h
  cases hfirst
  obtain ⟨-, second, hsecond, -, -, h⟩ := h
  cases hsecond
  obtain ⟨-, third, hthird, -⟩ := h
  cases hthird

end TieredResidencyStore

end VBuf.Ggml
