import Mathlib.Algebra.BigOperators.Group.Finset.Piecewise
import VBuf.Ggml.LeaseBalance

/-!
# Any number of materializers over one store

A run interleaves the calls of the participants in any order; backings may
change between the calls, and unleased entries may be evicted.
-/

namespace VBuf.Ggml

open VBuf.Lib

/-- A store and the materializers that share it. -/
structure ResidencySystem (ι β : Type) where
  store : TensorResidencyStore
  participants : ι → ResidentTensorMaterializer β

/-- One step of a run: a call of a participant, a change of its backing, or a
call on the store that takes unleased entries out. -/
inductive ResidencyCall (ι β : Type)
  | request (i : ι) (tensorRef : UInt32) (tensor : PersistentTensorRef) (byteBudget : UInt64)
  | obtain (i : ι) (tensorRef : UInt32)
  | release (i : ι) (tensorRef : UInt32)
  | progress (i : ι) (backing : β)
  | evict (tensorRef : UInt32)
  | clear

namespace ResidencySystem

variable {ι β : Type} [DecidableEq ι]

/-- Nothing requested and nothing resident. -/
def initial (maxResidentBytes : UInt64) (replacementPolicy : ResidencyReplacementPolicy)
    (backings : ι → β) : ResidencySystem ι β where
  store := .empty maxResidentBytes replacementPolicy
  participants := fun i => .fresh (backings i)

/-- One participant and the store change. -/
def update (s : ResidencySystem ι β) (i : ι) (self : ResidentTensorMaterializer β)
    (store : TensorResidencyStore) : ResidencySystem ι β where
  store
  participants := Function.update s.participants i self

/-- The system after a call; `ops` are the calls of the backings. -/
def step (ops : ι → TensorMaterializer β) (s : ResidencySystem ι β) :
    ResidencyCall ι β → ResidencySystem ι β
  | .request i tensorRef tensor byteBudget =>
      let (_, self, store) :=
        (s.participants i).request (ops i) tensorRef tensor byteBudget s.store
      s.update i self store
  | .obtain i tensorRef =>
      let (_, self, store) := (s.participants i).obtainReadyTensor (ops i) tensorRef s.store
      s.update i self store
  | .release i tensorRef =>
      let (self, store) := (s.participants i).release (ops i) tensorRef s.store
      s.update i self store
  | .progress i backing => s.update i { s.participants i with backing } s.store
  | .evict tensorRef => { s with store := (s.store.evict tensorRef).2 }
  | .clear => { s with store := s.store.clear }

/-- The system after a sequence of calls. -/
def run (ops : ι → TensorMaterializer β) (s : ResidencySystem ι β)
    (calls : List (ResidencyCall ι β)) : ResidencySystem ι β :=
  calls.foldl (step ops) s

end ResidencySystem

namespace ResidencyCall

variable {ι β : Type} [DecidableEq ι]

/-- The call takes a lease on the reference if it is resident. -/
def Leases (s : ResidencySystem ι β) : ResidencyCall ι β → UInt32 → Prop
  | .request i tensorRef _ _, ref => ref = tensorRef ∧ (s.participants i).retains ref = false
  | .obtain i tensorRef, ref =>
      ref = tensorRef ∧
        ((s.participants i).retains ref = false ∧ (s.participants i).Knows ref ∨
          (s.participants i).RetainsWithoutTensor ref)
  | _, _ => False

/-- No lease counter overflows in this call. -/
def Counted (s : ResidencySystem ι β) (call : ResidencyCall ι β) : Prop :=
  ∀ ref, call.Leases s ref → s.store.leases ref + 1 ≠ 0

/-- The call is not an obtain on a request that is retained without its tensor. -/
def KeepsTensor (s : ResidencySystem ι β) : ResidencyCall ι β → Prop
  | .obtain i tensorRef => ¬ (s.participants i).RetainsWithoutTensor tensorRef
  | _ => True

end ResidencyCall

namespace ResidencySystem

variable {ι β : Type} [DecidableEq ι]

/-- Each call of a run meets a condition on the state it is made in. -/
def Along (ops : ι → TensorMaterializer β)
    (condition : ResidencySystem ι β → ResidencyCall ι β → Prop) :
    ResidencySystem ι β → List (ResidencyCall ι β) → Prop
  | _, [] => True
  | s, call :: rest => condition s call ∧ Along ops condition (s.step ops call) rest

/-- An invariant of single steps is an invariant of runs. -/
theorem run_induction {ops : ι → TensorMaterializer β}
    {condition : ResidencySystem ι β → ResidencyCall ι β → Prop}
    {inv : ResidencySystem ι β → Prop}
    (hstep : ∀ s call, inv s → condition s call → inv (s.step ops call))
    (calls : List (ResidencyCall ι β)) (s : ResidencySystem ι β) (h : inv s)
    (hcalls : Along ops condition s calls) : inv (s.run ops calls) := by
  induction calls generalizing s with
  | nil => exact h
  | cons call rest ih => exact ih (s.step ops call) (hstep s call h hcalls.1) hcalls.2

variable [Fintype ι]

/-- How many participants retain a request for the tensor. -/
def retainers (s : ResidencySystem ι β) (tensorRef : UInt32) : Nat :=
  (Finset.univ.filter (fun i => (s.participants i).retains tensorRef = true)).card

/-- Every retained request has its lease. -/
def Covered (s : ResidencySystem ι β) : Prop :=
  ∀ tensorRef, s.retainers tensorRef ≤ (s.store.leases tensorRef).toNat

/-- The leases are exactly the retained requests. -/
def Balanced (s : ResidencySystem ι β) : Prop :=
  ∀ tensorRef, (s.store.leases tensorRef).toNat = s.retainers tensorRef

omit [DecidableEq ι] in
theorem Balanced.covered {s : ResidencySystem ι β} (h : s.Balanced) : s.Covered :=
  fun tensorRef => Nat.le_of_eq (h tensorRef).symm

omit [DecidableEq ι] in
theorem retainers_pos {s : ResidencySystem ι β} {i : ι} {tensorRef : UInt32}
    (h : (s.participants i).retains tensorRef = true) : 0 < s.retainers tensorRef :=
  Finset.card_pos.2 ⟨i, Finset.mem_filter.2 ⟨Finset.mem_univ i, h⟩⟩

omit [DecidableEq ι] in
theorem Covered.leases_ne {s : ResidencySystem ι β} (h : s.Covered) {i : ι} {tensorRef : UInt32}
    (hretains : (s.participants i).retains tensorRef = true) : s.store.leases tensorRef ≠ 0 := by
  intro hzero
  have hcover := h tensorRef
  rw [hzero, UInt32.toNat_zero] at hcover
  exact absurd (retainers_pos hretains) (Nat.not_lt.2 hcover)

/-- The change of one participant changes the count by its own part. -/
theorem retainers_update (s : ResidencySystem ι β) (i : ι) (self : ResidentTensorMaterializer β)
    (store : TensorResidencyStore) (tensorRef : UInt32) :
    (s.update i self store).retainers tensorRef + ((s.participants i).retains tensorRef).toNat =
      s.retainers tensorRef + (self.retains tensorRef).toNat := by
  have hcount : ∀ s' : ResidencySystem ι β, s'.retainers tensorRef =
      ((s'.participants i).retains tensorRef).toNat +
        ∑ j ∈ Finset.univ.erase i, ((s'.participants j).retains tensorRef).toNat := by
    intro s'
    rw [retainers, Finset.card_filter, ← Finset.add_sum_erase _ _ (Finset.mem_univ i)]
    congr 1
    · cases (s'.participants i).retains tensorRef <;> rfl
    · apply Finset.sum_congr rfl
      intro j _
      cases (s'.participants j).retains tensorRef <;> rfl
  have hothers : ∑ j ∈ Finset.univ.erase i,
        (((s.update i self store).participants j).retains tensorRef).toNat =
      ∑ j ∈ Finset.univ.erase i, ((s.participants j).retains tensorRef).toNat := by
    apply Finset.sum_congr rfl
    intro j hj
    have hsame : (s.update i self store).participants j = s.participants j :=
      Function.update_of_ne (Finset.ne_of_mem_erase hj) _ _
    rw [hsame]
  have hself : (s.update i self store).participants i = self := Function.update_self _ _ _
  rw [hcount, hcount s, hothers, hself]
  omega

theorem toNat_leased {leases : UInt32} (h : leases + 1 ≠ 0) :
    (leases + 1).toNat = leases.toNat + 1 := by
  have hlt := leases.toNat_lt
  rw [UInt32.toNat_add, UInt32.toNat_one]
  apply Nat.mod_eq_of_lt
  by_contra hbig
  apply h
  apply UInt32.toNat_inj.1
  rw [UInt32.toNat_add, UInt32.toNat_one, UInt32.toNat_zero]
  omega

theorem toNat_released {leases : UInt32} (h : leases ≠ 0) :
    (leases - 1).toNat + 1 = leases.toNat := by
  have hne : leases.toNat ≠ 0 := fun hzero => h (UInt32.toNat_inj.1 hzero)
  have hone : (1 : UInt32) ≤ leases := by
    rw [UInt32.le_iff_toNat_le, UInt32.toNat_one]
    omega
  rw [UInt32.toNat_sub_of_le _ _ hone, UInt32.toNat_one]
  omega

/-- The lease counter and the count of retained requests move together. -/
theorem effect_counts {s : ResidencySystem ι β} {i : ι} {leak : Prop} {tensorRef : UInt32}
    {self : ResidentTensorMaterializer β} {store : TensorResidencyStore}
    (heffect : ResidentTensorMaterializer.Effect leak tensorRef (s.participants i) s.store self store)
    (hcovered : s.Covered)
    (hcounted : self.retains tensorRef = true →
      (s.participants i).retains tensorRef = false ∨ leak →
      s.store.leases tensorRef + 1 ≠ 0) (ref : UInt32) :
    (store.leases ref).toNat + s.retainers ref =
        (s.store.leases ref).toNat + (s.update i self store).retainers ref ∨
      leak ∧ (s.update i self store).retainers ref = s.retainers ref ∧
        (s.store.leases ref).toNat ≤ (store.leases ref).toNat := by
  have hcount := s.retainers_update i self store ref
  by_cases hsame : ref = tensorRef
  · subst hsame
    rcases heffect.change with ⟨hretains, hleases⟩ | ⟨hbefore, hafter, hleases⟩ |
      ⟨hbefore, hafter, hleases⟩ | ⟨hleak, hbefore, hafter, hleases⟩
    · left
      rw [hretains] at hcount
      rw [hleases]
      omega
    · left
      rw [hbefore, hafter] at hcount
      rw [hleases, toNat_leased (hcounted hafter (Or.inl hbefore))]
      simp only [Bool.toNat_false, Bool.toNat_true] at hcount
      omega
    · left
      have hreleased := toNat_released (hcovered.leases_ne hbefore)
      rw [hbefore, hafter] at hcount
      rw [hleases (hcovered.leases_ne hbefore)]
      simp only [Bool.toNat_false, Bool.toNat_true] at hcount
      omega
    · right
      rw [hbefore, hafter] at hcount
      rw [hleases, toNat_leased (hcounted hafter (Or.inr hleak))]
      exact ⟨hleak, by omega, by omega⟩
  · left
    rw [heffect.others_retain ref hsame] at hcount
    rw [heffect.others_leases ref hsame]
    omega

/-- What one call does to the counts: it keeps their difference, or it is an
obtain that takes a lease too many. -/
theorem step_counts (ops : ι → TensorMaterializer β) (s : ResidencySystem ι β)
    (call : ResidencyCall ι β) (hcovered : s.Covered) (hcounted : call.Counted s) (ref : UInt32) :
    ((s.step ops call).store.leases ref).toNat + s.retainers ref =
        (s.store.leases ref).toNat + (s.step ops call).retainers ref ∨
      ¬ call.KeepsTensor s ∧ (s.step ops call).retainers ref = s.retainers ref ∧
        (s.store.leases ref).toNat ≤ ((s.step ops call).store.leases ref).toNat := by
  cases call with
  | request i tensorRef tensor byteBudget =>
      refine (effect_counts (ResidentTensorMaterializer.request_effect (ops i) tensor byteBudget
        (s.participants i) s.store) hcovered ?_ ref).imp id (fun h => h.1.elim)
      intro _ h
      exact hcounted tensorRef ⟨rfl, h.resolve_right id⟩
  | obtain i tensorRef =>
      refine (effect_counts (ResidentTensorMaterializer.obtainReadyTensor_effect (ops i)
        (s.participants i) s.store hcovered.leases_ne) hcovered ?_ ref).imp id ?_
      · intro hretains h
        refine hcounted tensorRef ⟨rfl, h.imp (fun hfree => ⟨hfree, ?_⟩) id⟩
        exact ResidentTensorMaterializer.knows_of_obtain (ops i) hfree hretains
      · intro h
        exact ⟨fun hkeeps => hkeeps h.1, h.2⟩
  | release i tensorRef =>
      refine (effect_counts (ResidentTensorMaterializer.release_effect (ops i)
        (s.participants i) s.store) hcovered ?_ ref).imp id (fun h => h.1.elim)
      intro hretains
      rw [ResidentTensorMaterializer.retains_release] at hretains
      cases hretains
  | progress i backing =>
      have hcount := s.retainers_update i { s.participants i with backing } s.store ref
      left
      show (s.store.leases ref).toNat + _ = (s.store.leases ref).toNat +
        (s.update i { s.participants i with backing } s.store).retainers ref
      have hretains : ResidentTensorMaterializer.retains { s.participants i with backing } ref =
          (s.participants i).retains ref := rfl
      rw [hretains] at hcount
      omega
  | evict tensorRef =>
      left
      have hleases := (s.store.evict_shrinks tensorRef).leases_eq ref
      show ((s.store.evict tensorRef).2.leases ref).toNat + s.retainers ref = _ + s.retainers ref
      rw [hleases]
  | clear =>
      left
      have hleases := (TensorResidencyStore.clearEntries_shrinks s.store.entries.keys s.store).leases_eq
        ref
      show (s.store.clear.leases ref).toNat + s.retainers ref = _ + s.retainers ref
      rw [TensorResidencyStore.clear, hleases]

theorem ne_zero_of_overflow {leases : UInt32} (h : leases + 1 = 0) : leases ≠ 0 := by
  intro hzero
  rw [hzero] at h
  cases h

/-- A retained request beside a lease counter that came back to zero. -/
theorem not_balanced_of_overflow {s : ResidencySystem ι β} {i : ι}
    {self : ResidentTensorMaterializer β} {store : TensorResidencyStore} {tensorRef : UInt32}
    (hretains : self.retains tensorRef = true) (hleases : store.leases tensorRef = 0) :
    ¬ (s.update i self store).Balanced := by
  intro hafter
  have hself : (s.update i self store).participants i = self := Function.update_self _ _ _
  have hpositive : 0 < (s.update i self store).retainers tensorRef :=
    retainers_pos (hself.symm ▸ hretains)
  have hcount : (store.leases tensorRef).toNat = _ := hafter tensorRef
  rw [hleases, UInt32.toNat_zero] at hcount
  omega

/-- One more lease without one more retained request. -/
theorem not_balanced_of_leak {s : ResidencySystem ι β} (hbalanced : s.Balanced) {i : ι}
    {self : ResidentTensorMaterializer β} {store : TensorResidencyStore} {tensorRef : UInt32}
    (hbefore : (s.participants i).retains tensorRef = true)
    (hafter : self.retains tensorRef = true)
    (hleases : store.leases tensorRef = s.store.leases tensorRef + 1) :
    ¬ (s.update i self store).Balanced := by
  intro h
  have hcount := s.retainers_update i self store tensorRef
  rw [hbefore, hafter] at hcount
  have hleased : (store.leases tensorRef).toNat = _ := h tensorRef
  rw [hleases, Nat.add_right_cancel hcount, ← hbalanced tensorRef, UInt32.toNat_add,
    UInt32.toNat_one] at hleased
  have hlt := (s.store.leases tensorRef).toNat_lt
  omega

/-- One call keeps the leases equal to the retained requests exactly if it is
counted and not an obtain on a request that is retained without its tensor. -/
theorem balanced_step_iff (ops : ι → TensorMaterializer β) {s : ResidencySystem ι β}
    (hbalanced : s.Balanced) (call : ResidencyCall ι β) :
    (s.step ops call).Balanced ↔ call.Counted s ∧ call.KeepsTensor s := by
  constructor
  · intro hafter
    constructor
    · intro ref htakes hzero
      obtain ⟨entry, hentry⟩ :=
        TensorResidencyStore.exists_entry_of_leases_ne (ne_zero_of_overflow hzero)
      cases call with
      | request i tensorRef tensor byteBudget =>
          obtain ⟨rfl, hfree⟩ := htakes
          have htaken := ResidentTensorMaterializer.request_takes (ops i) tensor byteBudget hfree
            hentry
          exact not_balanced_of_overflow htaken.1 (htaken.2.trans hzero) hafter
      | obtain i tensorRef =>
          obtain ⟨rfl, hfree⟩ := htakes
          have htaken := ResidentTensorMaterializer.obtainReadyTensor_takes (ops i) hfree hentry
          exact not_balanced_of_overflow htaken.1 (htaken.2.trans hzero) hafter
      | release i tensorRef => exact htakes
      | progress i backing => exact htakes
      | evict tensorRef => exact htakes
      | clear => exact htakes
    · cases call with
      | obtain i tensorRef =>
          intro hwithout
          have hretains : (s.participants i).retains tensorRef = true := by
            obtain ⟨info, hinfo, hret, -⟩ := hwithout
            rw [ResidentTensorMaterializer.retains_of_lookup hinfo, hret]
          obtain ⟨entry, hentry⟩ := TensorResidencyStore.exists_entry_of_leases_ne
            (hbalanced.covered.leases_ne hretains)
          have htaken := ResidentTensorMaterializer.obtainReadyTensor_takes (ops i)
            (Or.inr hwithout) hentry
          exact not_balanced_of_leak hbalanced hretains htaken.1 htaken.2 hafter
      | request i tensorRef tensor byteBudget => trivial
      | release i tensorRef => trivial
      | progress i backing => trivial
      | evict tensorRef => trivial
      | clear => trivial
  · intro h ref
    rcases step_counts ops s call hbalanced.covered h.1 ref with heq | hleak
    · have hbefore := hbalanced ref
      omega
    · exact absurd h.2 hleak.1

omit [DecidableEq ι] in
theorem initial_balanced (maxResidentBytes : UInt64)
    (replacementPolicy : ResidencyReplacementPolicy) (backings : ι → β) :
    (initial maxResidentBytes replacementPolicy backings).Balanced := by
  intro tensorRef
  symm
  apply Finset.card_eq_zero.2
  apply Finset.filter_eq_empty_iff.2
  intro i _ h
  cases h

/-- All states of a run are balanced exactly if each call keeps the balance. -/
theorem run_balanced_iff (ops : ι → TensorMaterializer β) (calls : List (ResidencyCall ι β))
    (s : ResidencySystem ι β) (hbalanced : s.Balanced) :
    (∀ k, (s.run ops (calls.take k)).Balanced) ↔
      Along ops (fun s call => call.Counted s ∧ call.KeepsTensor s) s calls := by
  induction calls generalizing s with
  | nil =>
      refine ⟨fun _ => trivial, fun _ k => ?_⟩
      rw [List.take_nil]
      exact hbalanced
  | cons call rest ih =>
      constructor
      · intro h
        have hstep : (s.step ops call).Balanced := h 1
        exact ⟨(balanced_step_iff ops hbalanced call).1 hstep,
          (ih _ hstep).1 (fun k => h (k + 1))⟩
      · intro h k
        have hstep := (balanced_step_iff ops hbalanced call).2 h.1
        cases k with
        | zero => exact hbalanced
        | succ k => exact (ih _ hstep).2 h.2 k

omit [DecidableEq ι] in
/-- Once nothing is requested, a balanced store can evict every entry. -/
theorem Balanced.evictable {s : ResidencySystem ι β} (hbalanced : s.Balanced)
    (hreleased : ∀ i tensorRef, (s.participants i).requests.lookup tensorRef = none)
    {tensorRef : UInt32} {entry : ResidentTensor}
    (hentry : s.store.entries.lookup tensorRef = some entry) :
    entry.activeLeases = 0 ∧ (s.store.evict tensorRef).1 = true := by
  have hnobody : s.retainers tensorRef = 0 := by
    apply Finset.card_eq_zero.2
    apply Finset.filter_eq_empty_iff.2
    intro i _ h
    rw [ResidentTensorMaterializer.retains_of_lookup_none (hreleased i tensorRef)] at h
    cases h
  have hleases := hbalanced tensorRef
  rw [hnobody, TensorResidencyStore.leases_of_lookup hentry] at hleases
  have hfree : entry.activeLeases = 0 := UInt32.toNat_inj.1 hleases
  refine ⟨hfree, ?_⟩
  unfold TensorResidencyStore.evict
  rw [hentry]
  simp only [hfree]
  rfl

/-- In every state of a run the active leases are the materializers that retain a
request, exactly if no call of it overflows a lease counter or obtains a request
that is retained without its tensor.  Then every entry can be evicted once every
request is released. -/
theorem leases_eq_retainers (ops : ι → TensorMaterializer β) (maxResidentBytes : UInt64)
    (replacementPolicy : ResidencyReplacementPolicy) (backings : ι → β)
    (calls : List (ResidencyCall ι β)) :
    ((∀ k tensorRef, (((initial maxResidentBytes replacementPolicy backings).run ops
          (calls.take k)).store.leases tensorRef).toNat =
        ((initial maxResidentBytes replacementPolicy backings).run ops
          (calls.take k)).retainers tensorRef) ↔
      Along ops (fun s call => call.Counted s ∧ call.KeepsTensor s)
        (initial maxResidentBytes replacementPolicy backings) calls) ∧
    (Along ops (fun s call => call.Counted s ∧ call.KeepsTensor s)
        (initial maxResidentBytes replacementPolicy backings) calls →
      (∀ i tensorRef, (((initial maxResidentBytes replacementPolicy backings).run ops
        calls).participants i).requests.lookup tensorRef = none) →
      ∀ tensorRef entry, ((initial maxResidentBytes replacementPolicy backings).run ops
          calls).store.entries.lookup tensorRef = some entry →
        entry.activeLeases = 0 ∧ (((initial maxResidentBytes replacementPolicy backings).run ops
          calls).store.evict tensorRef).1 = true) := by
  have hinitial := initial_balanced maxResidentBytes replacementPolicy backings
  have hiff := run_balanced_iff ops calls _ hinitial
  refine ⟨hiff, ?_⟩
  intro hcalls hreleased tensorRef entry hentry
  have hbalanced := hiff.2 hcalls calls.length
  rw [List.take_length] at hbalanced
  exact Balanced.evictable hbalanced hreleased hentry

end ResidencySystem

/-- A backing that has each tensor ready as soon as it is requested. -/
def TensorMaterializer.immediate (tensor : MaterializedTensor) :
    TensorMaterializer (List UInt32) where
  request tensorRef _ _ backing := (true, tensorRef :: backing)
  state tensorRef backing := if tensorRef ∈ backing then .ready else .notRequested
  obtainReadyTensor tensorRef backing := (if tensorRef ∈ backing then some tensor else none, backing)
  release tensorRef backing := backing.filter (· ≠ tensorRef)

/-- A reference to four bytes. -/
def exampleRef : PersistentTensorRef where
  tensorId := 7
  name := "blk.0.attn_norm.weight"
  view := { representation := 0, dimensions := [4, 1], payload := [1, 2, 3, 4], payloadLen := 4 }
  sourceOffset := 0

namespace ResidencySystem

/-- The second materializer obtains the resident tensor twice: both release, and
one lease is left. -/
theorem lease_left_after_release :
    ∃ calls : List (ResidencyCall (Fin 2) (List UInt32)),
      let s := (initial 8 (fun _ _ => 7) (fun _ => [])).run
        (fun _ => .immediate TensorResidencyStore.exampleTensor) calls
      (∀ i tensorRef, (s.participants i).requests.lookup tensorRef = none) ∧
        (s.store.leases 7).toNat = 1 ∧ s.retainers 7 = 0 ∧ (s.store.evict 7).1 = false := by
  refine ⟨[.request 0 7 exampleRef 4, .request 1 7 exampleRef 4, .obtain 0 7, .obtain 1 7,
    .obtain 1 7, .release 1 7, .release 0 7], ?_, by decide, by decide, by decide⟩
  intro i tensorRef
  match i with
  | 0 => rfl
  | 1 => rfl

end ResidencySystem

end VBuf.Ggml
