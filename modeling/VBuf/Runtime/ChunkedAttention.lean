import Mathlib.Algebra.BigOperators.Group.List.Basic
import Mathlib.Algebra.Order.Ring.Rat
import Mathlib.Algebra.Field.Rat
import Mathlib.Data.List.GetD
import Mathlib.Tactic.Ring
import VBuf.Runtime.AttentionSpec

/-!
# Attention in chunks

A sequence is fed whole, or in consecutive chunks that append to the state.  An
append puts the rows of its chunk behind all that is stored, so the stored keys
are in the order they are read in only for one batch row or for one chunk.
-/

namespace VBuf.Runtime

open VBuf.Lib

variable {F : Type}

/-- The geometry of a sequence that fits the state and the memory. -/
structure SequenceGeometry (F : Type) where
  batchSize : UInt64
  queryHeadCount : UInt64
  kvHeadCount : UInt64
  headDim : UInt64
  capacity : UInt64
  scale : F
  state : UInt32
  length : Nat
  batchSize_ne : batchSize ≠ 0
  kvHeadCount_ne : kvHeadCount ≠ 0
  queryHeadCount_ne : queryHeadCount ≠ 0
  headDim_ne : headDim ≠ 0
  groups : queryHeadCount % kvHeadCount = 0
  length_le : length ≤ capacity.toNat
  fits : batchSize.toNat * (length * (queryHeadCount.toNat * headDim.toNat)) < 2 ^ 64

namespace SequenceGeometry

section Sizes

variable {g : SequenceGeometry F}

theorem toNat_ofNat_of_le {n : Nat} (h : n ≤ g.length) : (UInt64.ofNat n).toNat = n := by
  have hcapacity := g.length_le
  have hlt := g.capacity.toNat_lt
  rw [UInt64.toNat_ofNat']
  exact Nat.mod_eq_of_lt (by omega)

theorem kvHeads_le : g.kvHeadCount.toNat ≤ g.queryHeadCount.toNat := by
  have hmod : g.queryHeadCount.toNat % g.kvHeadCount.toNat = 0 := by
    rw [← UInt64.toNat_mod, g.groups]
    rfl
  exact Nat.le_of_dvd (toNat_pos_of_ne g.queryHeadCount_ne) (Nat.dvd_of_mod_eq_zero hmod)

/-- A head of a query belongs to a key head. -/
theorem group_lt {head : Nat} (h : head < g.queryHeadCount.toNat) :
    head / (g.queryHeadCount.toNat / g.kvHeadCount.toNat) < g.kvHeadCount.toNat := by
  have hmod : g.queryHeadCount.toNat % g.kvHeadCount.toNat = 0 := by
    rw [← UInt64.toNat_mod, g.groups]
    rfl
  have hgroup : 0 < g.queryHeadCount.toNat / g.kvHeadCount.toNat :=
    Nat.div_pos kvHeads_le (toNat_pos_of_ne g.kvHeadCount_ne)
  rw [Nat.div_lt_iff_lt_mul hgroup, Nat.mul_div_cancel' (Nat.dvd_of_mod_eq_zero hmod)]
  exact h

/-- Parts of the sequence fit as the whole does. -/
theorem count_lt {length : Nat} {heads : UInt64} (hlength : length ≤ g.length)
    (hheads : heads.toNat ≤ g.queryHeadCount.toNat) :
    g.batchSize.toNat * (length * (heads.toNat * g.headDim.toNat)) < 2 ^ 64 :=
  Nat.lt_of_le_of_lt (Nat.mul_le_mul_left _ (Nat.mul_le_mul hlength
    (Nat.mul_le_mul_right _ hheads))) g.fits

end Sizes

variable (g : SequenceGeometry F)

/-- A chunk of a sequence. -/
def chunk (heads : UInt64) (f : Nat → Nat → Nat → Nat → F) (start length : Nat) :
    GenericTensor F where
  dimensions := [g.batchSize, UInt64.ofNat length, heads, g.headDim]
  values := flat4 g.batchSize.toNat length heads.toNat g.headDim.toNat
    (fun batch position head component => f batch (start + position) head component)

/-- The attributes of the node for a chunk. -/
def attributes (start length : Nat) : AttentionAttributes F where
  batchSize := g.batchSize
  queryHeadCount := g.queryHeadCount
  kvHeadCount := g.kvHeadCount
  headDim := g.headDim
  queryLength := UInt64.ofNat length
  currentKvLength := UInt64.ofNat (start + length)
  scale := g.scale
  mask := .causal
  state := g.state

/-- The state before the sequence. -/
def fresh : GenericExecutionState F := ⟨g.state, g.capacity, 0, 0, 0, 0, [], []⟩

@[simp] theorem chunk_values (heads : UInt64) (f : Nat → Nat → Nat → Nat → F)
    (start length : Nat) : (g.chunk heads f start length).values =
      flat4 g.batchSize.toNat length heads.toNat g.headDim.toNat
        (fun batch position head component => f batch (start + position) head component) := rfl

variable {g} in
theorem chunk_wellFormed {heads : UInt64} {f : Nat → Nat → Nat → Nat → F} {start length : Nat}
    (hlength : length ≤ g.length) (hpos : 0 < length) (hheads : heads ≠ 0)
    (hle : heads.toNat ≤ g.queryHeadCount.toNat) : (g.chunk heads f start length).WellFormed := by
  have hcount : elementCount (g.chunk heads f start length).dimensions =
      g.batchSize.toNat * (length * (heads.toNat * g.headDim.toNat)) := by
    rw [chunk, elementCount_shape4, toNat_ofNat_of_le hlength]
  refine ⟨?_, ?_, ?_⟩
  · intro d hd
    simp only [chunk, List.mem_cons, List.not_mem_nil, or_false] at hd
    rcases hd with rfl | rfl | rfl | rfl
    · exact g.batchSize_ne
    · intro hzero
      have htoNat := congrArg UInt64.toNat hzero
      rw [toNat_ofNat_of_le hlength] at htoNat
      exact absurd htoNat (Nat.ne_of_gt hpos)
    · exact hheads
    · exact g.headDim_ne
  · rw [hcount]
    exact count_lt hlength hle
  · rw [hcount, chunk_values, length_flat4]

variable [Field F] [LinearOrder F] (math : ExactMath F)

section Run

variable (q k v : Nat → Nat → Nat → Nat → F)

/-- The node on one chunk. -/
def append (start length : Nat) (state : GenericExecutionState F) :
    Except String (GenericTensor F) × GenericExecutionState F :=
  attention math (g.chunk g.queryHeadCount q start length) (g.chunk g.kvHeadCount k start length)
    (g.chunk g.kvHeadCount v start length) (g.attributes start length) state

/-- What is stored is what was supplied. -/
def StoresSupplied (stored : Nat) (state : GenericExecutionState F) : Prop :=
  ∀ batch position head component, batch < g.batchSize.toNat → position < stored →
    head < g.kvHeadCount.toNat → component < g.headDim.toNat →
    let cell := index4 stored g.kvHeadCount.toNat g.headDim.toNat batch position head component
    state.key.getD cell 0 = k batch position head component ∧
      state.value.getD cell 0 = v batch position head component

/-- The output of a chunk is the part of the whole output from `start` on. -/
def PartOf (start length : Nat) (output whole : GenericTensor F) : Prop :=
  ∀ batch position head component, batch < g.batchSize.toNat → position < length →
    head < g.queryHeadCount.toNat → component < g.headDim.toNat →
    output.values.getD (index4 length g.queryHeadCount.toNat g.headDim.toNat batch position head
      component) 0 =
    whole.values.getD (index4 g.length g.queryHeadCount.toNat g.headDim.toNat batch
      (start + position) head component) 0

/-- The chunks from a state on: each one succeeds, gives its part of the whole
output, and leaves the supplied keys and values stored. -/
def ChunksAgree (whole : GenericTensor F) : Nat → List Nat → GenericExecutionState F → Prop
  | _, [], _ => True
  | start, length :: rest, state =>
      ∃ output, (g.append math q k v start length state).1 = .ok output ∧
        g.PartOf start length output whole ∧
        g.StoresSupplied k v (start + length) (g.append math q k v start length state).2 ∧
        ChunksAgree whole (start + length) rest (g.append math q k v start length state).2

end Run

/-! ### One chunk -/

section Step

variable {q k v : Nat → Nat → Nat → Nat → F}

/-- What a state has stored, in the order it is read in. -/
structure Holds (k v : Nat → Nat → Nat → Nat → F) (stored : Nat) (state : GenericExecutionState F) :
    Prop where
  binding : state.bindingId = g.state
  capacity : state.capacity = g.capacity
  length : state.length = UInt64.ofNat stored
  geometry : stored ≠ 0 → state.batchSize = g.batchSize ∧ state.kvHeadCount = g.kvHeadCount ∧
    state.headDim = g.headDim
  empty : stored = 0 → state.batchSize = 0 ∧ state.kvHeadCount = 0 ∧ state.headDim = 0
  key : state.key = flat4 g.batchSize.toNat stored g.kvHeadCount.toNat g.headDim.toNat k
  value : state.value = flat4 g.batchSize.toNat stored g.kvHeadCount.toNat g.headDim.toNat v

/-- What the whole sequence gives at a position. -/
def causal (q k v : Nat → Nat → Nat → Nat → F) (batch position head component : Nat) : F :=
  attend math position g.headDim.toNat g.scale (q batch position head)
    (fun p => k batch p (head / (g.queryHeadCount.toNat / g.kvHeadCount.toNat)))
    (fun p => v batch p (head / (g.queryHeadCount.toNat / g.kvHeadCount.toNat))) component

omit [Field F] [LinearOrder F] in
theorem fresh_holds : g.Holds k v 0 g.fresh := by
  refine ⟨rfl, rfl, rfl, fun h => absurd rfl h, fun _ => ⟨rfl, rfl, rfl⟩, ?_, ?_⟩
  · rw [flat4_zero]
    rfl
  · rw [flat4_zero]
    rfl

variable {g} {math}

omit [Field F] [LinearOrder F] in
theorem Holds.valid {stored : Nat} {state : GenericExecutionState F}
    (h : g.Holds k v stored state) (hstored : stored ≤ g.length) : state.Valid := by
  have htoNat : state.length.toNat = stored := by
    rw [h.length, toNat_ofNat_of_le hstored]
  refine ⟨?_, ?_, ?_⟩
  · rw [UInt64.le_iff_toNat_le, htoNat, h.capacity]
    exact Nat.le_trans hstored g.length_le
  · intro hzero
    have hnone : stored = 0 := by
      rw [← htoNat, hzero]
      rfl
    obtain ⟨hbatch, hheads, hdim⟩ := h.empty hnone
    refine ⟨hbatch, hheads, hdim, ?_, ?_⟩
    · rw [h.key, hnone, flat4_zero]
    · rw [h.value, hnone, flat4_zero]
  · intro hne
    have hpos : stored ≠ 0 := by
      intro hzero
      apply hne
      rw [h.length, hzero]
      rfl
    obtain ⟨hbatch, hheads, hdim⟩ := h.geometry hpos
    have hcount : elementCount [state.batchSize, state.length, state.kvHeadCount, state.headDim] =
        g.batchSize.toNat * (stored * (g.kvHeadCount.toNat * g.headDim.toNat)) := by
      rw [elementCount_shape4, htoNat, hbatch, hheads, hdim]
    refine ⟨?_, ?_, ?_, ?_⟩
    · intro d hd
      simp only [List.mem_cons, List.not_mem_nil, or_false] at hd
      rcases hd with rfl | rfl | rfl | rfl
      · exact hbatch ▸ g.batchSize_ne
      · exact hne
      · exact hheads ▸ g.kvHeadCount_ne
      · exact hdim ▸ g.headDim_ne
    · rw [hcount]
      exact count_lt hstored kvHeads_le
    · rw [hcount, h.key, length_flat4]
    · rw [hcount, h.value, length_flat4]

omit [Field F] [LinearOrder F] in
theorem Holds.accepted {stored length : Nat} {state : GenericExecutionState F}
    (h : g.Holds k v stored state) (hpos : 0 < length) (hlength : stored + length ≤ g.length) :
    Accepted (g.chunk g.queryHeadCount q stored length) (g.chunk g.kvHeadCount k stored length)
      (g.chunk g.kvHeadCount v stored length) (g.attributes stored length) state := by
  have hstored : stored ≤ g.length := by omega
  have hchunk : length ≤ g.length := by omega
  have hcapacity := g.length_le
  refine ⟨h.valid hstored, rfl, rfl, rfl, h.binding, ?_, ?_, g.groups, ?_, ?_, ?_, ?_⟩
  · show UInt64.ofNat (stored + length) = state.length + UInt64.ofNat length
    rw [h.length, UInt64.ofNat_add]
  · show (UInt64.ofNat length).toNat ≤ _
    rw [h.length, h.capacity, toNat_ofNat_of_le hchunk, toNat_ofNat_of_le hstored]
    omega
  · exact chunk_wellFormed hchunk hpos g.queryHeadCount_ne (Nat.le_refl _)
  · exact chunk_wellFormed hchunk hpos g.kvHeadCount_ne kvHeads_le
  · exact chunk_wellFormed hchunk hpos g.kvHeadCount_ne kvHeads_le
  · intro hne
    apply h.geometry
    intro hzero
    apply hne
    rw [h.length, hzero]
    rfl

omit [LinearOrder F] in
/-- A stored or a current key is the one supplied for its position. -/
theorem keyOrValue_eq {stored length : Nat} {f : Nat → Nat → Nat → Nat → F}
    {batch head position component : Nat} (hbatch : batch < g.batchSize.toNat)
    (hhead : head < g.kvHeadCount.toNat) (hposition : position < stored + length)
    (hcomponent : component < g.headDim.toNat) :
    keyOrValue (flat4 g.batchSize.toNat stored g.kvHeadCount.toNat g.headDim.toNat f)
      (g.chunk g.kvHeadCount f stored length).values stored length g.kvHeadCount.toNat
      g.headDim.toNat batch head position component = f batch position head component := by
  unfold keyOrValue
  split
  next hlt => exact getD_flat4 f 0 hbatch hlt hhead hcomponent
  next hge =>
      have hcurrent : position - stored < length := by omega
      have hsum : stored + (position - stored) = position := by omega
      have hcell := getD_flat4 (fun batch position head component =>
        f batch (stored + position) head component) 0 hbatch hcurrent hhead hcomponent
      simp only [hsum] at hcell
      exact hcell

/-- One chunk after what is stored gives the causal attention of its positions. -/
theorem Holds.append_eq {stored length : Nat} {state : GenericExecutionState F}
    (h : g.Holds k v stored state) (hpos : 0 < length) (hlength : stored + length ≤ g.length) :
    g.append math q k v stored length state =
      (.ok
        { dimensions := [g.batchSize, UInt64.ofNat length, g.queryHeadCount, g.headDim]
          values := flat4 g.batchSize.toNat length g.queryHeadCount.toNat g.headDim.toNat
            (fun batch position => g.causal math q k v batch (stored + position)) },
        { state with
          batchSize := g.batchSize
          kvHeadCount := g.kvHeadCount
          headDim := g.headDim
          length := state.length + UInt64.ofNat length
          key := state.key ++ (g.chunk g.kvHeadCount k stored length).values
          value := state.value ++ (g.chunk g.kvHeadCount v stored length).values }) := by
  have haccepted := @Holds.accepted F g q k v stored length state h hpos hlength
  have hstoredNat : state.length.toNat = stored := by
    rw [h.length]
    exact @toNat_ofNat_of_le F g stored (by omega)
  have hlengthNat : (UInt64.ofNat length).toNat = length :=
    @toNat_ofNat_of_le F g length (by omega)
  unfold append attention
  rw [(attentionChecks_eq_ok_iff _ _ _ _ _).2 haccepted]
  simp only [attentionOutput_eq math haccepted]
  have hvalues : ∀ output : List F, output = flat4 g.batchSize.toNat length g.queryHeadCount.toNat
        g.headDim.toNat (fun batch position => g.causal math q k v batch (stored + position)) →
      (Except.ok (GenericTensor.mk [(g.attributes stored length).batchSize,
          (g.attributes stored length).queryLength, (g.attributes stored length).queryHeadCount,
          (g.attributes stored length).headDim] output) : Except String (GenericTensor F)) =
      .ok { dimensions := [g.batchSize, UInt64.ofNat length, g.queryHeadCount, g.headDim]
            values := flat4 g.batchSize.toNat length g.queryHeadCount.toNat g.headDim.toNat
              (fun batch position => g.causal math q k v batch (stored + position)) } := by
    intro output houtput
    rw [houtput]
    rfl
  rw [hvalues]
  · rfl
  · show flat4 g.batchSize.toNat (UInt64.ofNat length).toNat g.queryHeadCount.toNat
      g.headDim.toNat _ = _
    rw [hlengthNat]
    apply flat4_congr
    intro batch position head component hbatch hposition hhead hcomponent
    have hlast : lastVisible (g.attributes stored length) state.length.toNat position =
        stored + position := by
      rw [hstoredNat]
      rfl
    rw [hlast, hstoredNat, h.key, h.value]
    show attend math (stored + position) g.headDim.toNat g.scale _ (keyOrValue _ _ _
      (UInt64.ofNat length).toNat g.kvHeadCount.toNat _ _ _) (keyOrValue _ _ _
      (UInt64.ofNat length).toNat g.kvHeadCount.toNat _ _ _) component = _
    rw [hlengthNat]
    have hgroup := group_lt hhead
    apply attend_congr
    · intro c hc
      have hcell := getD_flat4 (fun batch position head component =>
        q batch (stored + position) head component) 0 hbatch hposition hhead hc
      rw [chunk_values]
      show List.getD _ (index4 (UInt64.ofNat length).toNat g.queryHeadCount.toNat
        g.headDim.toNat batch position head c) 0 = _
      rw [hlengthNat]
      exact hcell
    · intro p c hp hc
      exact keyOrValue_eq hbatch hgroup (by omega) hc
    · intro p hp
      exact keyOrValue_eq hbatch hgroup (by omega) hcomponent

/-- An append behind nothing, or of a single batch row, keeps the order. -/
theorem Holds.step {stored length : Nat} {state : GenericExecutionState F}
    (h : g.Holds k v stored state) (hpos : 0 < length) (hlength : stored + length ≤ g.length)
    (horder : g.batchSize = 1 ∨ stored = 0) :
    g.Holds k v (stored + length) (g.append math q k v stored length state).2 := by
  have happend : ∀ f : Nat → Nat → Nat → Nat → F,
      flat4 g.batchSize.toNat stored g.kvHeadCount.toNat g.headDim.toNat f ++
        (g.chunk g.kvHeadCount f stored length).values =
      flat4 g.batchSize.toNat (stored + length) g.kvHeadCount.toNat g.headDim.toNat f := by
    intro f
    rw [chunk_values]
    rcases horder with hone | hzero
    · rw [hone]
      exact flat4_append stored length _ _ f
    · subst hzero
      rw [flat4_zero, List.nil_append, Nat.zero_add]
      simp only [Nat.zero_add]
  rw [h.append_eq hpos hlength]
  refine ⟨h.binding, h.capacity, ?_, fun _ => ⟨rfl, rfl, rfl⟩, fun hzero => ?_, ?_, ?_⟩
  · show state.length + UInt64.ofNat length = _
    rw [h.length, UInt64.ofNat_add]
  · omega
  · show state.key ++ _ = _
    rw [h.key, happend]
  · show state.value ++ _ = _
    rw [h.value, happend]

omit [LinearOrder F] in
theorem Holds.storesSupplied {stored : Nat} {state : GenericExecutionState F}
    (h : g.Holds k v stored state) : g.StoresSupplied k v stored state := by
  intro batch position head component hbatch hposition hhead hcomponent cell
  rw [h.key, h.value]
  exact ⟨getD_flat4 k 0 hbatch hposition hhead hcomponent,
    getD_flat4 v 0 hbatch hposition hhead hcomponent⟩

/-- The whole output, as one chunk gives it. -/
def wholeOutput (g : SequenceGeometry F) (math : ExactMath F) (q k v : Nat → Nat → Nat → Nat → F) :
    GenericTensor F where
  dimensions := [g.batchSize, UInt64.ofNat g.length, g.queryHeadCount, g.headDim]
  values := flat4 g.batchSize.toNat g.length g.queryHeadCount.toNat g.headDim.toNat
    (g.causal math q k v)

theorem append_whole (hpos : 0 < g.length) :
    (g.append math q k v 0 g.length g.fresh).1 = .ok (g.wholeOutput math q k v) := by
  have hfresh : g.Holds k v 0 g.fresh := fresh_holds g
  rw [hfresh.append_eq hpos (by omega)]
  simp only [Nat.zero_add]
  rfl

/-- One chunk gives its part of the whole output. -/
theorem Holds.partOf {stored length : Nat} {state : GenericExecutionState F}
    (h : g.Holds k v stored state) (hpos : 0 < length) (hlength : stored + length ≤ g.length) :
    ∃ output, (g.append math q k v stored length state).1 = .ok output ∧
      g.PartOf stored length output (g.wholeOutput math q k v) := by
  rw [h.append_eq hpos hlength]
  refine ⟨_, rfl, ?_⟩
  intro batch position head component hbatch hposition hhead hcomponent
  rw [wholeOutput, getD_flat4 (g.causal math q k v) 0 hbatch (by omega) hhead hcomponent]
  exact getD_flat4 (fun batch position => g.causal math q k v batch (stored + position)) 0 hbatch
    hposition hhead hcomponent

/-- Chunks of a single batch row agree with the whole, after any number of appends. -/
theorem Holds.chunksAgree (hone : g.batchSize = 1) (chunks : List Nat) {stored : Nat}
    {state : GenericExecutionState F} (h : g.Holds k v stored state)
    (hpos : ∀ length ∈ chunks, 0 < length) (hsum : stored + chunks.sum ≤ g.length) :
    g.ChunksAgree math q k v (g.wholeOutput math q k v) stored chunks state := by
  induction chunks generalizing stored state with
  | nil => trivial
  | cons length rest ih =>
      rw [List.sum_cons] at hsum
      have hlength := hpos length List.mem_cons_self
      have hstep : g.Holds k v (stored + length) (g.append math q k v stored length state).2 :=
        h.step hlength (by omega) (Or.inl hone)
      obtain ⟨output, houtput, hpart⟩ := @Holds.partOf F g _ _ math q k v _ _ _ h hlength (by omega)
      exact ⟨output, houtput, hpart, hstep.storesSupplied,
        ih hstep (fun n hn => hpos n (List.mem_cons_of_mem _ hn)) (by omega)⟩

/-- A second append of two batch rows or more puts a row where it is not read. -/
theorem not_storesSupplied {first second : Nat} (hbatch : 1 < g.batchSize.toNat)
    (hfirst : 0 < first) (hsecond : 0 < second) (hlength : first + second ≤ g.length) :
    let k : Nat → Nat → Nat → Nat → F := fun batch position head component =>
      if batch = 0 ∧ position = first ∧ head = 0 ∧ component = 0 then 1 else 0
    let state := (g.append math q k v 0 first g.fresh).2
    ¬ g.StoresSupplied k v (first + second) (g.append math q k v first second state).2 := by
  intro k state hstores
  have hfresh : g.Holds k v 0 g.fresh := fresh_holds g
  have hstate : g.Holds k v first state := by
    have hstep : g.Holds k v (0 + first) (g.append math q k v 0 first g.fresh).2 :=
      hfresh.step hfirst (by omega) (Or.inr rfl)
    rw [Nat.zero_add] at hstep
    exact hstep
  have hheads := toNat_pos_of_ne g.kvHeadCount_ne
  have hdim := toNat_pos_of_ne g.headDim_ne
  have hcell := (hstores 0 first 0 0 (by omega) (by omega) hheads hdim).1
  rw [hstate.append_eq hsecond hlength, hstate.key] at hcell
  -- The cell is read from the first row of the second batch of the first chunk.
  have hindex : index4 (first + second) g.kvHeadCount.toNat g.headDim.toNat 0 first 0 0 =
      index4 first g.kvHeadCount.toNat g.headDim.toNat 1 0 0 0 := by
    unfold index4
    ring
  have hlt := @index4_lt g.batchSize.toNat first g.kvHeadCount.toNat g.headDim.toNat 1 0 0 0 hbatch
    hfirst hheads hdim
  have hread := getD_flat4 k 0 hbatch hfirst hheads hdim
  rw [hindex] at hcell
  have hleft := List.getD_append (flat4 g.batchSize.toNat first g.kvHeadCount.toNat g.headDim.toNat k)
    (g.chunk g.kvHeadCount k first second).values 0 _ (by rw [length_flat4]; exact hlt)
  have hzero : k 1 0 0 0 = 0 := if_neg (by omega)
  have hone : k 0 first 0 0 = 1 := if_pos ⟨rfl, rfl, rfl, rfl⟩
  rw [hone] at hcell
  rw [hread, hzero] at hleft
  exact zero_ne_one (hleft.symm.trans hcell)

end Step

/-! ### Chunks and the whole -/

/-- A sequence split into consecutive chunks, none empty. -/
structure Chunking (g : SequenceGeometry F) where
  lengths : List Nat
  nonempty : lengths ≠ []
  positive : ∀ length ∈ lengths, 0 < length
  total : lengths.sum = g.length

/-- Whatever is fed, the chunks agree with the whole. -/
def AgreesWithWhole (g : SequenceGeometry F) (math : ExactMath F) (c : g.Chunking) : Prop :=
  ∀ q k v : Nat → Nat → Nat → Nat → F,
    ∃ whole, (g.append math q k v 0 g.length g.fresh).1 = .ok whole ∧
      g.ChunksAgree math q k v whole 0 c.lengths g.fresh

/-- The chunks of every sequence agree with the whole, and what was supplied stays
stored, exactly for one batch row or one chunk. -/
theorem chunked_eq_whole_iff (g : SequenceGeometry F) (math : ExactMath F) (c : g.Chunking) :
    g.AgreesWithWhole math c ↔ g.batchSize = 1 ∨ c.lengths.length = 1 := by
  obtain ⟨lengths, hnonempty, hpositive, htotal⟩ := c
  have hlength : 0 < g.length := by
    rw [← htotal]
    obtain ⟨first, rest, rfl⟩ := List.exists_cons_of_ne_nil hnonempty
    have hfirst := hpositive first List.mem_cons_self
    rw [List.sum_cons]
    omega
  constructor
  · intro hagrees
    by_contra hnot
    rw [not_or] at hnot
    obtain ⟨hbatch, hmany⟩ := hnot
    have hbatch' : 1 < g.batchSize.toNat := by
      have hpos := toNat_pos_of_ne g.batchSize_ne
      have hne : g.batchSize.toNat ≠ 1 := fun h => hbatch (UInt64.toNat_inj.1 h)
      omega
    obtain ⟨first, rest, rfl⟩ := List.exists_cons_of_ne_nil hnonempty
    have hrest : rest ≠ [] := by
      intro hnil
      subst hnil
      exact hmany rfl
    obtain ⟨second, later, rfl⟩ := List.exists_cons_of_ne_nil hrest
    rw [List.sum_cons, List.sum_cons] at htotal
    obtain ⟨whole, -, hchunks⟩ := hagrees (fun _ _ _ _ => 0)
      (fun batch position head component =>
        if batch = 0 ∧ position = first ∧ head = 0 ∧ component = 0 then 1 else 0)
      (fun _ _ _ _ => 0)
    obtain ⟨-, -, -, -, -, -, -, hstores, -⟩ := hchunks
    rw [Nat.zero_add] at hstores
    exact not_storesSupplied hbatch' (hpositive first (by simp)) (hpositive second (by simp))
      (by omega) hstores
  · intro hcases q k v
    refine ⟨g.wholeOutput math q k v, append_whole hlength, ?_⟩
    have hfresh : g.Holds k v 0 g.fresh := fresh_holds g
    rcases hcases with hone | hsingle
    · exact hfresh.chunksAgree hone lengths hpositive (by omega)
    · obtain ⟨length, rfl⟩ := List.length_eq_one_iff.1 hsingle
      have hpos := hpositive length List.mem_cons_self
      rw [List.sum_singleton] at htotal
      have hstep : g.Holds k v (0 + length) (g.append math q k v 0 length g.fresh).2 :=
        hfresh.step hpos (by omega) (Or.inr rfl)
      obtain ⟨output, houtput, hpart⟩ :=
        @Holds.partOf F g _ _ math q k v _ _ _ hfresh hpos (by omega)
      exact ⟨output, houtput, hpart, hstep.storesSupplied, trivial⟩

/-- Two batch rows of three positions, with one head of one component. -/
def exampleGeometry : SequenceGeometry ℚ where
  batchSize := 2
  queryHeadCount := 1
  kvHeadCount := 1
  headDim := 1
  capacity := 3
  scale := 1
  state := 0
  length := 3
  batchSize_ne := by decide
  kvHeadCount_ne := by decide
  queryHeadCount_ne := by decide
  headDim_ne := by decide
  groups := by decide
  length_le := by decide
  fits := by decide

/-- An exponential that weighs all positions alike. -/
def exampleMath : ExactMath ℚ where
  exp := fun _ => 1
  sqrt := fun x => x
  isFinite := fun _ => true
  exp_pos := fun _ => one_pos

/-- Three chunks of one position: the third reads the first batch row of another
batch, and gives 0 where the whole gives 1/3. -/
theorem chunked_ne_whole_two_batches :
    let v : Nat → Nat → Nat → Nat → ℚ := fun batch position _ _ =>
      if batch = 0 ∧ position = 1 then 1 else 0
    let q : Nat → Nat → Nat → Nat → ℚ := fun _ _ _ _ => 0
    let append := exampleGeometry.append exampleMath q v v
    let first := (append 0 1 exampleGeometry.fresh).2
    let second := (append 1 1 first).2
    second.value = [0, 0, 1, 0] ∧
      (append 2 1 second).1 = .ok ⟨[2, 1, 1, 1], [0, 1 / 3]⟩ ∧
      (append 0 3 exampleGeometry.fresh).1 = .ok ⟨[2, 3, 1, 1], [0, 1 / 2, 1 / 3, 0, 0, 0]⟩ := by
  decide +kernel

end SequenceGeometry

end VBuf.Runtime
