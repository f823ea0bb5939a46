import Mathlib.Algebra.BigOperators.Group.List.Basic
import Mathlib.Data.List.GetD
import Mathlib.Data.List.Perm.Subperm
import VBuf.Ggml.TensorWave

/-!
# What a pass of the executor does

`Flow` says what the locals of `execute` are after some uses: the counters are
the uses that are left, a persistent tensor is resident between its first and
its last use, and a value is kept until its last use.  Each loop of a pass moves
`Flow` along, with any supply of persistent tensors, and computes what it would
compute without a materializer.
-/

namespace VBuf.Ggml

open VBuf.Lib

namespace TensorDependencyExecutor

variable (g : TensorDependencyExecutor)

/-! ### Uses -/

/-- How often an operation uses a tensor. -/
def usesIn (ref : TensorWaveRef) (index : Nat) : Nat := (g.operationAt index).inputs.count ref

/-- How often the executed operations used a tensor. -/
def uses (order : List Nat) (ref : TensorWaveRef) : Nat := (order.map (g.usesIn ref)).sum

theorem uses_append (a b : List Nat) (ref : TensorWaveRef) :
    g.uses (a ++ b) ref = g.uses a ref + g.uses b ref := by
  rw [uses, uses, uses, List.map_append, List.sum_append]

theorem uses_range (ref : TensorWaveRef) :
    g.uses (List.range g.operations.length) ref = g.consumers ref := by
  have hoperations : g.operations = (List.range g.operations.length).map g.operationAt := by
    apply List.ext_getElem
    · rw [List.length_map, List.length_range]
    · intro i hi hi'
      rw [List.getElem_map, List.getElem_range, operationAt, List.getD_eq_getElem _ _ hi]
  unfold uses consumers
  conv_rhs => rw [hoperations]
  rw [List.flatMap_map, List.count_flatMap]
  rfl

/-- An order of execution: each operation at most once. -/
structure IsOrder (order : List Nat) : Prop where
  nodup : order.Nodup
  lt : ∀ i ∈ order, i < g.operations.length

variable {g}

theorem IsOrder.subperm {order : List Nat} (h : g.IsOrder order) :
    order.Subperm (List.range g.operations.length) :=
  h.nodup.subperm (fun i hi => List.mem_range.2 (h.lt i hi))

theorem IsOrder.uses_le {order : List Nat} (h : g.IsOrder order) (ref : TensorWaveRef) :
    g.uses order ref ≤ g.consumers ref := by
  rw [← uses_range]
  obtain ⟨part, hperm, hsub⟩ := h.subperm
  have hsum : (part.map (g.usesIn ref)).sum = g.uses order ref := (hperm.map _).sum_eq
  rw [← hsum]
  exact (hsub.map _).sum_le_sum (fun _ _ => Nat.zero_le _)

theorem IsOrder.append {order : List Nat} {i : Nat} (h : g.IsOrder order)
    (hi : i < g.operations.length) (hnew : i ∉ order) : g.IsOrder (order ++ [i]) := by
  refine ⟨?_, ?_⟩
  · rw [List.nodup_append]
    refine ⟨h.nodup, List.nodup_singleton i, ?_⟩
    intro a ha b hb heq
    rw [List.mem_singleton] at hb
    exact hnew (by rw [← hb, ← heq]; exact ha)
  · intro j hj
    rcases List.mem_append.1 hj with hold | hlast
    · exact h.lt j hold
    · rw [List.mem_singleton.1 hlast]
      exact hi

/-- An operation still to run has its uses left. -/
theorem IsOrder.uses_add_le {order : List Nat} {i : Nat} (h : g.IsOrder order)
    (hi : i < g.operations.length) (hnew : i ∉ order) (ref : TensorWaveRef) :
    g.uses order ref + g.usesIn ref i ≤ g.consumers ref := by
  have hle := (h.append hi hnew).uses_le ref
  rw [uses_append] at hle
  simpa [uses] using hle

theorem uses_pos_iff {order : List Nat} {ref : TensorWaveRef} :
    0 < g.uses order ref ↔ ∃ i ∈ order, ref ∈ (g.operationAt i).inputs := by
  unfold uses
  rw [List.sum_pos_iff_exists_pos_nat]
  constructor
  · intro h
    obtain ⟨count, hmem, hpos⟩ := h
    obtain ⟨i, hi, rfl⟩ := List.mem_map.1 hmem
    exact ⟨i, hi, List.count_pos_iff.1 hpos⟩
  · intro h
    obtain ⟨i, hi, hmem⟩ := h
    exact ⟨_, List.mem_map.2 ⟨i, hi, rfl⟩, List.count_pos_iff.2 hmem⟩

/-! ### The locals between passes -/

/-- The operand of a reference, given the values. -/
def operand (g : TensorDependencyExecutor) (storageProvider : TensorWaveStorageProvider)
    (views : Nat → TensorView) : TensorWaveRef → Operand
  | .persistent index => Operand.ofView (g.persistentAt index).view
      (storageProvider (g.persistentAt index).view)
  | .value index => Operand.ofView (views index) (storageProvider (views index))

/-- Operands depend on the values that are used only. -/
theorem operands_congr {storageProvider : TensorWaveStorageProvider}
    {views views' : Nat → TensorView} {inputs : List TensorWaveRef}
    (h : ∀ v, .value v ∈ inputs → views v = views' v) :
    inputs.map (operand g storageProvider views) = inputs.map (operand g storageProvider views') := by
  apply List.map_congr_left
  intro ref hmem
  cases ref with
  | persistent index => rfl
  | value index => simp only [operand, h index hmem]

section Passes

variable {β : Type} (g) (storageProvider : TensorWaveStorageProvider)

/-- The resident entry of a persistent tensor. -/
def residentAt (p : Nat) : ResidentTensor :=
  ⟨storageProvider (g.persistentAt p).view, (g.persistentAt p).view.payloadLen⟩

def residentBytes (resident : AssocMap Nat ResidentTensor) : Nat :=
  AssocMap.total (fun _ tensor => tensor.bytes.toNat) resident

def valueBytes (values : AssocMap Nat TensorView) : Nat :=
  AssocMap.total (fun _ view => view.payloadLen.toNat) values

/-- The locals after the uses `u`, when the tensors in `acquired` have been
acquired and the values in `available` have been produced. -/
structure Flow (u : TensorWaveRef → Nat) (acquired available : Nat → Prop) (run : WaveRun β) :
    Prop where
  remaining_persistent : ∀ p,
    run.remainingPersistent p + u (.persistent p) = g.consumers (.persistent p)
  remaining_value : ∀ v, run.remainingValues v + u (.value v) = g.consumers (.value v)
  resident_isSome : ∀ p, (run.resident.lookup p).isSome ↔
    acquired p ∧ u (.persistent p) < g.consumers (.persistent p)
  resident_eq : ∀ p tensor, run.resident.lookup p = some tensor →
    tensor = residentAt g storageProvider p
  weight : run.activeWeightBytes = UInt64.ofNat (residentBytes run.resident)
  value_available : ∀ v, (run.values.lookup v).isSome → available v
  value_kept : ∀ v, available v → u (.value v) < g.consumers (.value v) →
    (run.values.lookup v).isSome

/-- What the loops over the inputs leave alone. -/
structure Frame (run run' : WaveRun β) : Prop where
  completed : run'.completed = run.completed
  output : run'.output = run.output
  outputShape : run'.outputShape = run.outputShape
  trace : run'.report.trace = run.report.trace
  preserved : run'.report.externalOutputPreserved = run.report.externalOutputPreserved

/-- The acquisition and binding loops leave the values alone as well. -/
structure FrameValues (run run' : WaveRun β) : Prop extends Frame run run' where
  values : run'.values = run.values
  transient : run'.activeTransientBytes = run.activeTransientBytes

/-- The run without its materializer. -/
def plain (run : WaveRun β) : WaveRun Unit :=
  { run with
    materializerLeases := []
    materializer := () }

/-- A way to get persistent tensors: an invariant of the resident tensors, the
leases and the materializer under which each tensor is delivered when its
acquisition is allowed. -/
structure Supply (ops? : Option (WaveMaterializer β)) where
  inv : AssocMap Nat ResidentTensor → List Nat → β → Prop
  allowed : UInt64 → Nat → Prop
  acquire_none : ∀ resident leases m p, ops? = none → inv resident leases m →
    inv (resident.insert p (residentAt g storageProvider p)) leases m
  acquire_some : ∀ ops resident leases m p, ops? = some ops → inv resident leases m →
    resident.lookup p = none → allowed (UInt64.ofNat (residentBytes resident)) p →
    ∃ ready m', obtainReady ops p (g.persistentAt p) m = (.ok ready, m') ∧
      Operand.ofMaterialized ready = Operand.ofView (g.persistentAt p).view
        (storageProvider (g.persistentAt p).view) ∧
      inv (resident.insert p (residentAt g storageProvider p)) (leases.insert p) m'
  again : ∀ ops resident leases m p tensor, ops? = some ops → inv resident leases m →
    resident.lookup p = some tensor →
    ∃ ready m', obtainReady ops p (g.persistentAt p) m = (.ok ready, m') ∧
      Operand.ofMaterialized ready = Operand.ofView (g.persistentAt p).view
        (storageProvider (g.persistentAt p).view) ∧
      inv resident (leases.insert p) m'
  release : ∀ resident leases m p tensor, inv resident leases m →
    resident.lookup p = some tensor →
    inv (resident.erase p) (leases.erase p) (releaseLease ops? p leases m)

/-- The invariant of a supply, at a run. -/
def Supply.At {g : TensorDependencyExecutor} {storageProvider : TensorWaveStorageProvider}
    {ops? : Option (WaveMaterializer β)} (S : Supply g storageProvider ops?) (run : WaveRun β) :
    Prop :=
  S.inv run.resident run.materializerLeases run.materializer

variable {g} {storageProvider}

theorem Frame.refl (run : WaveRun β) : Frame run run := ⟨rfl, rfl, rfl, rfl, rfl⟩

theorem FrameValues.refl (run : WaveRun β) : FrameValues run run := ⟨Frame.refl run, rfl, rfl⟩

theorem Frame.trans {a b c : WaveRun β} (hab : Frame a b) (hbc : Frame b c) : Frame a c :=
  ⟨hbc.completed.trans hab.completed, hbc.output.trans hab.output,
    hbc.outputShape.trans hab.outputShape, hbc.trace.trans hab.trace,
    hbc.preserved.trans hab.preserved⟩

theorem FrameValues.trans {a b c : WaveRun β} (hab : FrameValues a b) (hbc : FrameValues b c) :
    FrameValues a c :=
  ⟨hab.toFrame.trans hbc.toFrame, hbc.values.trans hab.values,
    hbc.transient.trans hab.transient⟩

theorem frame_acquire (p : Nat) (storage : List UInt8) (run : WaveRun β) :
    FrameValues run (g.acquire p storage run) :=
  ⟨⟨rfl, rfl, rfl, rfl, rfl⟩, rfl, rfl⟩

theorem frame_lease (p : Nat) (m : β) (run : WaveRun β) : FrameValues run (lease p m run) :=
  ⟨⟨rfl, rfl, rfl, rfl, rfl⟩, rfl, rfl⟩

theorem Flow.congr {u : TensorWaveRef → Nat} {acquired acquired' available : Nat → Prop}
    {run : WaveRun β} (h : Flow g storageProvider u acquired available run)
    (hacquired : ∀ p, acquired p ↔ acquired' p) :
    Flow g storageProvider u acquired' available run := by
  have heq : acquired = acquired' := funext (fun p => propext (hacquired p))
  rwa [heq] at h

/-- A change of other fields. -/
theorem Flow.same {u : TensorWaveRef → Nat} {acquired available : Nat → Prop} {run run' : WaveRun β}
    (h : Flow g storageProvider u acquired available run)
    (hpersistent : run'.remainingPersistent = run.remainingPersistent)
    (hvalue : run'.remainingValues = run.remainingValues) (hresident : run'.resident = run.resident)
    (hweight : run'.activeWeightBytes = run.activeWeightBytes) (hvalues : run'.values = run.values) :
    Flow g storageProvider u acquired available run' := by
  refine ⟨?_, ?_, ?_, ?_, ?_, ?_, ?_⟩
  · rw [hpersistent]
    exact h.remaining_persistent
  · rw [hvalue]
    exact h.remaining_value
  · rw [hresident]
    exact h.resident_isSome
  · rw [hresident]
    exact h.resident_eq
  · rw [hweight, hresident]
    exact h.weight
  · rw [hvalues]
    exact h.value_available
  · rw [hvalues]
    exact h.value_kept

/-- An acquisition adds one resident tensor. -/
theorem Flow.acquire {u : TensorWaveRef → Nat} {acquired available : Nat → Prop} {run : WaveRun β}
    {p : Nat} (h : Flow g storageProvider u acquired available run)
    (huses : u (.persistent p) < g.consumers (.persistent p))
    (hnew : run.resident.lookup p = none) :
    Flow g storageProvider u (fun q => acquired q ∨ q = p) available
      (g.acquire p (storageProvider (g.persistentAt p).view) run) := by
  refine ⟨h.remaining_persistent, h.remaining_value, ?_, ?_, ?_, h.value_available, h.value_kept⟩
  · intro q
    show ((run.resident.insert p (residentAt g storageProvider p)).lookup q).isSome ↔ _
    rw [AssocMap.lookup_insert_eq]
    by_cases hq : q = p
    · subst hq
      simp [huses]
    · rw [if_neg hq, h.resident_isSome q]
      simp [hq]
  · intro q tensor hlookup
    have hlookup' : (run.resident.insert p (residentAt g storageProvider p)).lookup q =
        some tensor := hlookup
    rw [AssocMap.lookup_insert_eq] at hlookup'
    by_cases hq : q = p
    · subst hq
      rw [if_pos rfl] at hlookup'
      exact (Option.some.inj hlookup').symm
    · rw [if_neg hq] at hlookup'
      exact h.resident_eq q tensor hlookup'
  · show run.activeWeightBytes + (g.persistentAt p).view.payloadLen = UInt64.ofNat
      (residentBytes (run.resident.insert p (residentAt g storageProvider p)))
    rw [h.weight, residentBytes, residentBytes, AssocMap.total_insert_new _ _ hnew,
      UInt64.ofNat_add, UInt64.add_comm]
    congr 1
    exact UInt64.ofNat_toNat.symm

/-- Every tensor materialized in this operation is the one asked for. -/
def Materialized (g : TensorDependencyExecutor) (storageProvider : TensorWaveStorageProvider)
    (materialized : List (Nat × MaterializedTensor)) : Prop :=
  ∀ p ready, materialized.lookup p = some ready →
    Operand.ofMaterialized ready = Operand.ofView (g.persistentAt p).view
      (storageProvider (g.persistentAt p).view)

theorem Materialized.append {materialized : List (Nat × MaterializedTensor)} {p : Nat}
    {ready : MaterializedTensor} (h : Materialized g storageProvider materialized)
    (hready : Operand.ofMaterialized ready = Operand.ofView (g.persistentAt p).view
      (storageProvider (g.persistentAt p).view)) :
    Materialized g storageProvider (materialized ++ [(p, ready)]) := by
  intro q found hlookup
  rw [List.lookup_append] at hlookup
  cases hold : materialized.lookup q with
  | some other =>
      rw [hold] at hlookup
      exact h q found (by rw [hold]; exact hlookup)
  | none =>
      rw [hold] at hlookup
      by_cases hq : q = p
      · subst hq
        have hhit : [(q, ready)].lookup q = some ready := List.lookup_cons_self
        rw [hhit] at hlookup
        rw [← Option.some.inj hlookup]
        exact hready
      · have hmiss : [(p, ready)].lookup q = none := by
          rw [List.lookup_eq_none_iff]
          intro entry hentry
          rw [List.mem_singleton.1 hentry]
          simpa using hq
        rw [hmiss] at hlookup
        cases hlookup

variable {ops? : Option (WaveMaterializer β)}

/-- Each acquisition of a list of inputs is allowed when it comes. -/
def Allowed (S : Supply g storageProvider ops?) (u : TensorWaveRef → Nat)
    (acquired available : Nat → Prop) (refs : List TensorWaveRef) : Prop :=
  ∀ before p after, refs = before ++ .persistent p :: after → ¬ acquired p →
    .persistent p ∉ before → ∀ run : WaveRun β,
      Flow g storageProvider u (fun q => acquired q ∨ .persistent q ∈ before) available run →
      S.allowed run.activeWeightBytes p

theorem or_eq_or_mem {acquired : Nat → Prop} {p : Nat} {rest : List TensorWaveRef} (q : Nat) :
    ((acquired q ∨ q = p) ∨ TensorWaveRef.persistent q ∈ rest) ↔
      (acquired q ∨ TensorWaveRef.persistent q ∈ TensorWaveRef.persistent p :: rest) := by
  rw [List.mem_cons, TensorWaveRef.persistent.injEq, or_assoc]

/-- What is left to acquire after one input. -/
theorem Allowed.tail {S : Supply g storageProvider ops?} {u : TensorWaveRef → Nat}
    {acquired acquired' available : Nat → Prop} {p : Nat} {rest : List TensorWaveRef}
    (h : Allowed S u acquired available (.persistent p :: rest))
    (hacquired : ∀ q, acquired' q ↔ acquired q ∨ q = p) : Allowed S u acquired' available rest := by
  intro before q after heq hq hbefore run hrun
  have hq' := (hacquired q).not.1 hq
  refine h (.persistent p :: before) q after (by rw [heq]; rfl)
    (fun hacq => hq' (Or.inl hacq)) ?_ run (hrun.congr ?_)
  · intro hmem
    rcases List.mem_cons.1 hmem with hhead | htail
    · exact hq' (Or.inr (TensorWaveRef.persistent.inj hhead))
    · exact hbefore htail
  · intro r
    rw [hacquired r]
    exact or_eq_or_mem r

theorem Allowed.tail_value {S : Supply g storageProvider ops?} {u : TensorWaveRef → Nat}
    {acquired available : Nat → Prop} {v : Nat} {rest : List TensorWaveRef}
    (h : Allowed S u acquired available (.value v :: rest)) : Allowed S u acquired available rest := by
  intro before p after heq hp hbefore run hrun
  exact h (.value v :: before) p after (by rw [heq]; rfl) hp (by simpa using hbefore) run
    (hrun.congr (by simp))

/-- The acquisition loop: what is used and not resident yet is acquired. -/
theorem acquireInputs_ok (S : Supply g storageProvider ops?) (operation : TensorWaveOp)
    {u : TensorWaveRef → Nat} {available : Nat → Prop} (refs : List TensorWaveRef)
    {acquired : Nat → Prop} {run : WaveRun β} (inputs : AcquiredInputs)
    (h : Flow g storageProvider u acquired available run) (hinv : S.At run)
    (hinputs : Materialized g storageProvider inputs.materialized)
    (huses : ∀ p, .persistent p ∈ refs → u (.persistent p) < g.consumers (.persistent p))
    (hallowed : Allowed S u acquired available refs) :
    ∃ inputs' run', g.acquireInputs storageProvider ops? operation refs inputs run =
        (.ok inputs', run') ∧
      Flow g storageProvider u (fun q => acquired q ∨ .persistent q ∈ refs) available run' ∧
      S.At run' ∧ Materialized g storageProvider inputs'.materialized ∧ FrameValues run run' ∧
      g.acquireInputs storageProvider none operation refs ⟨[], inputs.names⟩ (plain run) =
        (.ok ⟨[], inputs'.names⟩, plain run') := by
  induction refs generalizing acquired run inputs with
  | nil =>
      refine ⟨inputs, run, rfl, h.congr ?_, hinv, hinputs, FrameValues.refl run, rfl⟩
      intro p
      simp
  | cons ref rest ih =>
      have hrest : ∀ p, .persistent p ∈ rest → u (.persistent p) < g.consumers (.persistent p) :=
        fun p hp => huses p (List.mem_cons_of_mem _ hp)
      cases ref with
      | value v =>
          rw [acquireInputs, acquireInputs]
          obtain ⟨inputs', run', hrun, hflow, hrest'⟩ := ih inputs h hinv hinputs hrest
            hallowed.tail_value
          exact ⟨inputs', run', hrun, hflow.congr (by simp), hrest'⟩
      | persistent p =>
          have hp := huses p List.mem_cons_self
          by_cases hresident : (run.resident.lookup p).isSome
          · have hresident' : ((plain run).resident.lookup p).isSome := hresident
            rw [acquireInputs, if_pos hresident, acquireInputs, if_pos hresident']
            have hacq : acquired p := ((h.resident_isSome p).1 hresident).1
            have hsame : ∀ q, acquired q ↔ acquired q ∨ q = p := by
              intro q
              constructor
              · exact Or.inl
              · intro hq
                rcases hq with hq | rfl
                · exact hq
                · exact hacq
            obtain ⟨inputs', run', hrun, hflow, hrest'⟩ := ih inputs h hinv hinputs hrest
              (hallowed.tail hsame)
            refine ⟨inputs', run', hrun, hflow.congr ?_, hrest'⟩
            intro q
            rw [← or_eq_or_mem, ← hsame q]
          · have hnone : run.resident.lookup p = none := Option.not_isSome_iff_eq_none.1 hresident
            have hresident' : ¬ ((plain run).resident.lookup p).isSome := hresident
            have hnacq : ¬ acquired p := fun hacq => hresident ((h.resident_isSome p).2 ⟨hacq, hp⟩)
            have hallow : S.allowed run.activeWeightBytes p :=
              hallowed [] p rest rfl hnacq List.not_mem_nil run (h.congr (by simp))
            rw [acquireInputs, if_neg hresident, acquireInputs, if_neg hresident']
            have hflow := h.acquire hp hnone
            cases ops? with
            | none =>
                obtain ⟨inputs', run', hrun, hflow', hinv', hmat, hframe, hplain⟩ := ih
                  { inputs with names := inputs.names ++ [(g.persistentAt p).name] } hflow
                  (S.acquire_none _ _ _ p rfl hinv) hinputs hrest (hallowed.tail (fun _ => Iff.rfl))
                exact ⟨inputs', run', hrun, hflow'.congr or_eq_or_mem, hinv', hmat,
                  (frame_acquire _ _ _).trans hframe, hplain⟩
            | some ops =>
                rw [h.weight] at hallow
                obtain ⟨ready, m', hobtain, hready, hinvReady⟩ := S.acquire_some ops _ _ _ p rfl hinv
                  hnone hallow
                have hpayload : ready.payload = storageProvider (g.persistentAt p).view :=
                  congrArg Operand.bytes hready
                simp only [hobtain, hpayload]
                have hflow' : Flow g storageProvider u (fun q => acquired q ∨ q = p) available
                    (g.acquire p (storageProvider (g.persistentAt p).view) (lease p m' run)) :=
                  hflow.same rfl rfl rfl rfl rfl
                obtain ⟨inputs', run', hrun, hflow'', hinv', hmat, hframe, hplain⟩ := ih
                  { materialized := inputs.materialized ++ [(p, ready)]
                    names := inputs.names ++ [(g.persistentAt p).name] } hflow' hinvReady
                  (hinputs.append hready) hrest (hallowed.tail (fun _ => Iff.rfl))
                exact ⟨inputs', run', hrun, hflow''.congr or_eq_or_mem, hinv', hmat,
                  ((frame_lease _ _ _).trans (frame_acquire _ _ _)).trans hframe, hplain⟩

/-- The values as they are looked up. -/
def viewsOf (run : WaveRun β) (v : Nat) : TensorView :=
  (run.values.lookup v).getD ⟨0, [], [], 0⟩

theorem viewsOf_eq {run : WaveRun β} {v : Nat} {view : TensorView}
    (h : run.values.lookup v = some view) : viewsOf run v = view := by
  rw [viewsOf, h, Option.getD_some]

theorem Flow.lease {u : TensorWaveRef → Nat} {acquired available : Nat → Prop} {run : WaveRun β}
    (h : Flow g storageProvider u acquired available run) (p : Nat) (m : β) :
    Flow g storageProvider u acquired available (lease p m run) :=
  h.same rfl rfl rfl rfl rfl

/-- The binding loop: each input is there and gives its operand. -/
theorem prepareInputs_ok (S : Supply g storageProvider ops?) (operation : TensorWaveOp)
    {u : TensorWaveRef → Nat} {acquired available : Nat → Prop} (refs : List TensorWaveRef)
    {run : WaveRun β} (prepared : PreparedInputs)
    (h : Flow g storageProvider u acquired available run) (hinv : S.At run)
    (hprepared : Materialized g storageProvider prepared.materialized)
    (hpersistent : ∀ p, .persistent p ∈ refs → (run.resident.lookup p).isSome)
    (hvalue : ∀ v, .value v ∈ refs → (run.values.lookup v).isSome) :
    ∃ prepared' run', g.prepareInputs storageProvider ops? operation refs prepared run =
        (.ok prepared', run') ∧
      Flow g storageProvider u acquired available run' ∧ S.At run' ∧
      prepared'.operands = prepared.operands ++
        refs.map (operand g storageProvider (viewsOf run)) ∧ FrameValues run run' ∧
      g.prepareInputs storageProvider none operation refs
        ⟨[], prepared.operands, prepared.consumed⟩ (plain run) =
          (.ok ⟨[], prepared'.operands, prepared'.consumed⟩, plain run') := by
  induction refs generalizing run prepared with
  | nil => exact ⟨prepared, run, rfl, h, hinv, by simp, FrameValues.refl run, rfl⟩
  | cons ref rest ih =>
      have hrestPersistent : ∀ p, .persistent p ∈ rest → (run.resident.lookup p).isSome :=
        fun p hp => hpersistent p (List.mem_cons_of_mem _ hp)
      have hrestValue : ∀ v, .value v ∈ rest → (run.values.lookup v).isSome :=
        fun v hv => hvalue v (List.mem_cons_of_mem _ hv)
      cases ref with
      | persistent p =>
          obtain ⟨tensor, htensor⟩ := Option.isSome_iff_exists.1 (hpersistent p List.mem_cons_self)
          have htensor' : (plain run).resident.lookup p = some tensor := htensor
          have hstorage : tensor.storage = storageProvider (g.persistentAt p).view := by
            rw [h.resident_eq p tensor htensor]
            rfl
          simp only [prepareInputs, htensor, htensor', hstorage, List.lookup_nil]
          have hoperands : ∀ operands : List Operand, operands = prepared.operands ++
              [Operand.ofView (g.persistentAt p).view (storageProvider (g.persistentAt p).view)] ++
                rest.map (operand g storageProvider (viewsOf run)) →
              operands = prepared.operands ++ (TensorWaveRef.persistent p :: rest).map
                  (operand g storageProvider (viewsOf run)) := by
            intro operands heq
            rw [heq, List.map_cons, List.append_assoc, List.singleton_append]
            rfl
          cases hfound : prepared.materialized.lookup p with
          | some ready =>
              obtain ⟨prepared', run', hrun, hflow, hinv', hops, hframe, hplain⟩ :=
                ih (prepared.push (Operand.ofMaterialized ready)) h hinv hprepared hrestPersistent
                  hrestValue
              rw [PreparedInputs.push, hprepared p ready hfound] at hops hplain
              exact ⟨prepared', run', hrun, hflow, hinv', hoperands _ hops, hframe, hplain⟩
          | none =>
              cases ops? with
              | none =>
                  obtain ⟨prepared', run', hrun, hflow, hinv', hops, hframe, hplain⟩ := ih
                    (prepared.push (Operand.ofView (g.persistentAt p).view
                      (storageProvider (g.persistentAt p).view))) h hinv hprepared hrestPersistent
                    hrestValue
                  exact ⟨prepared', run', hrun, hflow, hinv', hoperands _ hops, hframe, hplain⟩
              | some ops =>
                  obtain ⟨ready, m', hobtain, hready, hinvReady⟩ := S.again ops _ _ _ p tensor rfl
                    hinv htensor
                  simp only [hobtain]
                  obtain ⟨prepared', run', hrun, hflow, hinv', hops, hframe, hplain⟩ :=
                    @ih (lease p m' run)
                      { prepared with
                        materialized := prepared.materialized ++ [(p, ready)]
                        operands := prepared.operands ++ [Operand.ofMaterialized ready] }
                      (h.lease p m') hinvReady (hprepared.append hready) hrestPersistent hrestValue
                  rw [hready] at hops hplain
                  exact ⟨prepared', run', hrun, hflow, hinv', hoperands _ hops,
                    (frame_lease _ _ _).trans hframe, hplain⟩
      | value v =>
          obtain ⟨view, hview⟩ := Option.isSome_iff_exists.1 (hvalue v List.mem_cons_self)
          have hview' : (plain run).values.lookup v = some view := hview
          simp only [prepareInputs, hview, hview']
          obtain ⟨prepared', run', hrun, hflow, hinv', hops, hframe, hplain⟩ :=
            ih { prepared.push (Operand.ofView view (storageProvider view)) with
              consumed := prepared.consumed ++ [g.valueName v] } h hinv hprepared hrestPersistent
              hrestValue
          refine ⟨prepared', run', hrun, hflow, hinv', ?_, hframe, hplain⟩
          rw [hops, List.map_cons, operand, viewsOf_eq hview]
          simp [PreparedInputs.push]

/-- The result of an operation joins the values. -/
theorem Flow.produce {u : TensorWaveRef → Nat} {acquired available : Nat → Prop} {run : WaveRun β}
    (h : Flow g storageProvider u acquired available run) (operation : TensorWaveOp)
    (product : Product) :
    Flow g storageProvider u acquired (fun v => available v ∨ v = operation.outputValue)
      (g.produce operation product run) := by
  refine ⟨h.remaining_persistent, h.remaining_value, h.resident_isSome, h.resident_eq, h.weight,
    ?_, ?_⟩
  · intro v hsome
    have hsome' : ((run.values.insert operation.outputValue product.view).lookup v).isSome := hsome
    rw [AssocMap.lookup_insert_eq] at hsome'
    by_cases hv : v = operation.outputValue
    · exact Or.inr hv
    · rw [if_neg hv] at hsome'
      exact Or.inl (h.value_available v hsome')
  · intro v havailable huses
    show ((run.values.insert operation.outputValue product.view).lookup v).isSome
    rw [AssocMap.lookup_insert_eq]
    by_cases hv : v = operation.outputValue
    · rw [if_pos hv]
      rfl
    · rw [if_neg hv]
      exact h.value_kept v (havailable.resolve_right hv) huses

/-! ### Releases -/

/-- One more use of a tensor. -/
def useOnce (u : TensorWaveRef → Nat) (ref : TensorWaveRef) : TensorWaveRef → Nat :=
  Function.update u ref (u ref + 1)

theorem useOnce_self (u : TensorWaveRef → Nat) (ref : TensorWaveRef) :
    useOnce u ref ref = u ref + 1 := Function.update_self _ _ _

theorem useOnce_of_ne {u : TensorWaveRef → Nat} {ref other : TensorWaveRef} (h : other ≠ ref) :
    useOnce u ref other = u other := Function.update_of_ne h _ _

theorem useOnce_add_count (u : TensorWaveRef → Nat) (ref : TensorWaveRef)
    (rest : List TensorWaveRef) :
    (fun r => useOnce u ref r + rest.count r) = fun r => u r + (ref :: rest).count r := by
  funext r
  by_cases hr : r = ref
  · subst hr
    rw [useOnce_self, List.count_cons_self]
    omega
  · rw [useOnce_of_ne hr, List.count_cons_of_ne (Ne.symm hr)]

/-- The uses that are left after one of them. -/
theorem useOnce_add_le {u : TensorWaveRef → Nat} {ref : TensorWaveRef} {rest : List TensorWaveRef}
    (huses : ∀ r, u r + (ref :: rest).count r ≤ g.consumers r) (r : TensorWaveRef) :
    useOnce u ref r + rest.count r ≤ g.consumers r := by
  have hsum : useOnce u ref r + rest.count r = u r + (ref :: rest).count r :=
    congrFun (useOnce_add_count u ref rest) r
  rw [hsum]
  exact huses r

/-- A counter that goes down with a use; `kind` makes the reference. -/
theorem remaining_useOnce {remaining : Nat → Nat} {u : TensorWaveRef → Nat}
    {kind : Nat → TensorWaveRef} (hkind : Function.Injective kind) {i : Nat}
    (h : ∀ j, remaining j + u (kind j) = g.consumers (kind j))
    (hmore : u (kind i) < g.consumers (kind i)) (j : Nat) :
    Function.update remaining i (remaining i - 1) j + useOnce u (kind i) (kind j) =
      g.consumers (kind j) := by
  have hj := h j
  by_cases hij : j = i
  · subst hij
    rw [useOnce_self, Function.update_self]
    omega
  · rw [useOnce_of_ne (fun heq => hij (hkind heq)), Function.update_of_ne hij]
    exact hj

theorem persistent_injective : Function.Injective TensorWaveRef.persistent :=
  fun _ _ h => TensorWaveRef.persistent.inj h

theorem value_injective : Function.Injective TensorWaveRef.value :=
  fun _ _ h => TensorWaveRef.value.inj h

/-- The counter of a persistent tensor after one use. -/
def countPersistent (p : Nat) (run : WaveRun β) : WaveRun β :=
  { run with
    remainingPersistent :=
      Function.update run.remainingPersistent p (run.remainingPersistent p - 1) }

def countValue (v : Nat) (run : WaveRun β) : WaveRun β :=
  { run with
    remainingValues := Function.update run.remainingValues v (run.remainingValues v - 1) }

/-- A persistent use that is not the last. -/
theorem Flow.usePersistent {u : TensorWaveRef → Nat} {acquired available : Nat → Prop}
    {run : WaveRun β} {p : Nat} (h : Flow g storageProvider u acquired available run)
    (hmore : u (.persistent p) + 1 < g.consumers (.persistent p)) :
    Flow g storageProvider (useOnce u (.persistent p)) acquired available
      (countPersistent p run) := by
  refine ⟨remaining_useOnce persistent_injective h.remaining_persistent (by omega), ?_, ?_,
    h.resident_eq, h.weight, h.value_available, ?_⟩
  · intro v
    rw [useOnce_of_ne (by simp)]
    exact h.remaining_value v
  · intro q
    show (run.resident.lookup q).isSome ↔ _
    rw [h.resident_isSome q]
    by_cases hq : q = p
    · subst hq
      rw [useOnce_self]
      constructor
      · exact fun hboth => ⟨hboth.1, hmore⟩
      · exact fun hboth => ⟨hboth.1, by omega⟩
    · rw [useOnce_of_ne (by simpa using hq)]
  · intro v
    rw [useOnce_of_ne (by simp)]
    exact h.value_kept v

/-- The last use of a persistent tensor releases it. -/
theorem Flow.releasePersistent {u : TensorWaveRef → Nat} {acquired available : Nat → Prop}
    {run : WaveRun β} {p : Nat} (h : Flow g storageProvider u acquired available run)
    (hacq : acquired p) (hlast : u (.persistent p) + 1 = g.consumers (.persistent p)) :
    Flow g storageProvider (useOnce u (.persistent p)) acquired available
      (g.releasePersistent ops? p (countPersistent p run)) := by
  obtain ⟨tensor, htensor⟩ := Option.isSome_iff_exists.1
    ((h.resident_isSome p).2 ⟨hacq, by omega⟩)
  refine ⟨remaining_useOnce persistent_injective h.remaining_persistent (by omega), ?_, ?_, ?_, ?_,
    h.value_available, ?_⟩
  · intro v
    rw [useOnce_of_ne (by simp)]
    exact h.remaining_value v
  · intro q
    show ((run.resident.erase p).lookup q).isSome ↔ _
    rw [AssocMap.lookup_erase_eq]
    by_cases hq : q = p
    · subst hq
      rw [useOnce_self, if_pos rfl, hlast]
      simp
    · rw [if_neg hq, h.resident_isSome q, useOnce_of_ne (by simpa using hq)]
  · intro q other hlookup
    have hlookup' : (run.resident.erase p).lookup q = some other := hlookup
    rw [AssocMap.lookup_erase_eq] at hlookup'
    by_cases hq : q = p
    · rw [if_pos hq] at hlookup'
      cases hlookup'
    · rw [if_neg hq] at hlookup'
      exact h.resident_eq q other hlookup'
  · show run.activeWeightBytes - (g.persistentAt p).view.payloadLen =
      UInt64.ofNat (residentBytes (run.resident.erase p))
    rw [h.weight]
    refine AssocMap.ofNat_total_erase htensor ?_
    rw [h.resident_eq p tensor htensor]
    rfl
  · intro v
    rw [useOnce_of_ne (by simp)]
    exact h.value_kept v

/-- A use of a value that keeps it. -/
theorem Flow.useValue {u : TensorWaveRef → Nat} {acquired available : Nat → Prop}
    {run : WaveRun β} {v : Nat} (h : Flow g storageProvider u acquired available run)
    (hmore : u (.value v) < g.consumers (.value v)) :
    Flow g storageProvider (useOnce u (.value v)) acquired available (countValue v run) := by
  refine ⟨?_, remaining_useOnce value_injective h.remaining_value hmore, ?_, h.resident_eq,
    h.weight, h.value_available, ?_⟩
  · intro p
    rw [useOnce_of_ne (by simp)]
    exact h.remaining_persistent p
  · intro p
    rw [useOnce_of_ne (by simp)]
    exact h.resident_isSome p
  · intro w havailable huses
    refine h.value_kept w havailable ?_
    by_cases hw : w = v
    · rw [hw]
      exact hmore
    · rwa [useOnce_of_ne (by simpa using hw)] at huses

/-- The last use of a value releases it. -/
theorem Flow.releaseValue {u : TensorWaveRef → Nat} {acquired available : Nat → Prop}
    {run : WaveRun β} {v : Nat} (h : Flow g storageProvider u acquired available run)
    (hlast : u (.value v) + 1 = g.consumers (.value v)) (view : TensorView) :
    Flow g storageProvider (useOnce u (.value v)) acquired available
      (releaseValue v view (countValue v run)) := by
  refine ⟨?_, remaining_useOnce value_injective h.remaining_value (by omega), ?_, h.resident_eq,
    h.weight, ?_, ?_⟩
  · intro p
    rw [useOnce_of_ne (by simp)]
    exact h.remaining_persistent p
  · intro p
    rw [useOnce_of_ne (by simp)]
    exact h.resident_isSome p
  · intro w hsome
    have hsome' : ((run.values.erase v).lookup w).isSome := hsome
    rw [AssocMap.lookup_erase_eq] at hsome'
    by_cases hw : w = v
    · rw [if_pos hw] at hsome'
      cases hsome'
    · rw [if_neg hw] at hsome'
      exact h.value_available w hsome'
  · intro w havailable huses
    show ((run.values.erase v).lookup w).isSome
    rw [AssocMap.lookup_erase_eq]
    by_cases hw : w = v
    · subst hw
      rw [useOnce_self] at huses
      omega
    · rw [if_neg hw]
      rw [useOnce_of_ne (by simpa using hw)] at huses
      exact h.value_kept w havailable huses

/-- A value whose last use is among the inputs is released, unless it is the
external output. -/
def Released (g : TensorDependencyExecutor) (u : TensorWaveRef → Nat) (refs : List TensorWaveRef)
    (v : Nat) : Prop :=
  .value v ∈ refs ∧ v ≠ g.externalOutput ∧ u (.value v) + refs.count (.value v) =
    g.consumers (.value v)

instance (u : TensorWaveRef → Nat) (refs : List TensorWaveRef) (v : Nat) :
    Decidable (Released g u refs v) :=
  inferInstanceAs (Decidable (_ ∧ _))

theorem released_persistent_iff {u : TensorWaveRef → Nat} {rest : List TensorWaveRef} (p v : Nat) :
    Released g (useOnce u (.persistent p)) rest v ↔ Released g u (.persistent p :: rest) v := by
  unfold Released
  rw [useOnce_of_ne (by simp), List.count_cons_of_ne (by simp), List.mem_cons]
  simp

/-- A use of one value leaves the release of another to the rest. -/
theorem released_value_of_ne {u : TensorWaveRef → Nat} {rest : List TensorWaveRef} {v w : Nat}
    (hv : v ≠ w) :
    Released g (useOnce u (.value w)) rest v ↔ Released g u (.value w :: rest) v := by
  unfold Released
  rw [useOnce_of_ne (by simpa using hv), List.count_cons_of_ne (by simpa using Ne.symm hv),
    List.mem_cons]
  simp [hv]

/-- A use that keeps its value leaves its release to the rest. -/
theorem released_value_iff {u : TensorWaveRef → Nat} {rest : List TensorWaveRef} {w : Nat}
    (hkeep : ¬ (u (.value w) + 1 = g.consumers (.value w) ∧ w ≠ g.externalOutput)) (v : Nat) :
    Released g (useOnce u (.value w)) rest v ↔ Released g u (.value w :: rest) v := by
  by_cases hv : v = w
  · subst hv
    unfold Released
    rw [useOnce_self, List.count_cons_self]
    constructor
    · intro h
      exact ⟨List.mem_cons_self, h.2.1, by omega⟩
    · intro h
      refine ⟨?_, h.2.1, by omega⟩
      by_contra hmem
      have hzero := List.count_eq_zero_of_not_mem hmem
      exact hkeep ⟨by omega, h.2.1⟩
  · exact released_value_of_ne hv

/-- The release loop: every input counts as used, and a value goes with its last
use. -/
theorem releaseInputs_ok (S : Supply g storageProvider ops?) {available acquired : Nat → Prop}
    (refs : List TensorWaveRef) {u : TensorWaveRef → Nat} {run : WaveRun β}
    (released : ReleasedInputs) (h : Flow g storageProvider u acquired available run)
    (hinv : S.At run) (huses : ∀ ref, u ref + refs.count ref ≤ g.consumers ref)
    (hacquired : ∀ p, .persistent p ∈ refs → acquired p)
    (havailable : ∀ v, .value v ∈ refs → available v) :
    ∃ released' run', g.releaseInputs ops? refs released run = (.ok released', run') ∧
      Flow g storageProvider (fun ref => u ref + refs.count ref) acquired available run' ∧
      S.At run' ∧ Frame run run' ∧
      (∀ v, run'.values.lookup v = if Released g u refs v then none else run.values.lookup v) ∧
      (run.activeTransientBytes = UInt64.ofNat (valueBytes run.values) →
        run'.activeTransientBytes = UInt64.ofNat (valueBytes run'.values)) ∧
      g.releaseInputs none refs released (plain run) = (.ok released', plain run') := by
  induction refs generalizing u run released with
  | nil =>
      refine ⟨released, run, rfl, h, hinv, Frame.refl run, ?_, id, rfl⟩
      intro v
      rw [if_neg (fun hreleased => absurd hreleased.1 List.not_mem_nil)]
  | cons ref rest ih =>
      have hrestUses := useOnce_add_le (g := g) huses
      have hrestAcquired : ∀ p, .persistent p ∈ rest → acquired p :=
        fun p hp => hacquired p (List.mem_cons_of_mem _ hp)
      have hrestAvailable : ∀ v, .value v ∈ rest → available v :=
        fun v hv => havailable v (List.mem_cons_of_mem _ hv)
      have hhead := huses ref
      rw [List.count_cons_self] at hhead
      cases ref with
      | persistent p =>
          have hremaining := h.remaining_persistent p
          have hvalues : ∀ (values values' : AssocMap Nat TensorView),
              (∀ v, values'.lookup v = if Released g (useOnce u (.persistent p)) rest v then none
                else values.lookup v) →
              ∀ v, values'.lookup v = if Released g u (.persistent p :: rest) v then none
                else values.lookup v := by
            intro values values' hlookup v
            rw [hlookup v]
            exact if_congr (released_persistent_iff p v) rfl rfl
          by_cases hlast : u (.persistent p) + 1 = g.consumers (.persistent p)
          · have hzero : run.remainingPersistent p - 1 = 0 := by omega
            have hzero' : (plain run).remainingPersistent p - 1 = 0 := hzero
            simp only [releaseInputs, if_pos hzero, if_pos hzero']
            obtain ⟨tensor, htensor⟩ := Option.isSome_iff_exists.1
              ((h.resident_isSome p).2 ⟨hacquired p List.mem_cons_self, by omega⟩)
            obtain ⟨released', run', hrun, hflow, hinv', hframe, hlookup, htransient, hplain⟩ := ih
              { released with persistents := released.persistents ++ [(g.persistentAt p).name] }
              (h.releasePersistent (hacquired p List.mem_cons_self) hlast)
              (S.release _ _ _ p tensor hinv htensor) hrestUses hrestAcquired hrestAvailable
            rw [useOnce_add_count] at hflow
            exact ⟨released', run', hrun, hflow, hinv', ⟨hframe.completed, hframe.output,
              hframe.outputShape, hframe.trace, hframe.preserved⟩, hvalues _ _ hlookup, htransient,
              hplain⟩
          · have hzero : ¬ run.remainingPersistent p - 1 = 0 := by omega
            have hzero' : ¬ (plain run).remainingPersistent p - 1 = 0 := hzero
            simp only [releaseInputs, if_neg hzero, if_neg hzero']
            obtain ⟨released', run', hrun, hflow, hinv', hframe, hlookup, htransient, hplain⟩ := ih
              released (h.usePersistent (by omega)) hinv hrestUses hrestAcquired hrestAvailable
            rw [useOnce_add_count] at hflow
            exact ⟨released', run', hrun, hflow, hinv', ⟨hframe.completed, hframe.output,
              hframe.outputShape, hframe.trace, hframe.preserved⟩, hvalues _ _ hlookup, htransient,
              hplain⟩
      | value w =>
          have hremaining := h.remaining_value w
          by_cases hlast : u (.value w) + 1 = g.consumers (.value w) ∧ w ≠ g.externalOutput
          · have hzero : run.remainingValues w - 1 = 0 ∧ w ≠ g.externalOutput :=
              ⟨by omega, hlast.2⟩
            have hzero' : (plain run).remainingValues w - 1 = 0 ∧ w ≠ g.externalOutput := hzero
            obtain ⟨view, hview⟩ := Option.isSome_iff_exists.1
              (h.value_kept w (havailable w List.mem_cons_self) (by omega))
            have hview' : (plain run).values.lookup w = some view := hview
            simp only [releaseInputs, if_pos hzero, if_pos hzero', hview, hview']
            obtain ⟨released', run', hrun, hflow, hinv', hframe, hlookup, htransient, hplain⟩ := ih
              { released with values := released.values ++ [g.valueName w] }
              (h.releaseValue hlast.1 view) hinv hrestUses hrestAcquired hrestAvailable
            rw [useOnce_add_count] at hflow
            refine ⟨released', run', hrun, hflow, hinv', ⟨hframe.completed, hframe.output,
              hframe.outputShape, hframe.trace, hframe.preserved⟩, ?_, ?_, hplain⟩
            · intro v
              have hbyIh : run'.values.lookup v =
                  if Released g (useOnce u (.value w)) rest v then none
                  else (run.values.erase w).lookup v := hlookup v
              rw [hbyIh, AssocMap.lookup_erase_eq]
              by_cases hv : v = w
              · subst hv
                have hreleased : Released g u (.value v :: rest) v := by
                  have hcount := huses (.value v)
                  rw [List.count_cons_self] at hcount
                  exact ⟨List.mem_cons_self, hlast.2, by rw [List.count_cons_self]; omega⟩
                rw [if_pos hreleased, if_pos rfl, ite_self]
              · rw [if_neg hv]
                exact if_congr (released_value_of_ne hv) rfl rfl
            · intro hsum
              apply htransient
              show run.activeTransientBytes - view.payloadLen =
                UInt64.ofNat (valueBytes (run.values.erase w))
              rw [hsum]
              exact AssocMap.ofNat_total_erase hview rfl
          · have hzero : ¬ (run.remainingValues w - 1 = 0 ∧ w ≠ g.externalOutput) := by
              intro hboth
              exact hlast ⟨by omega, hboth.2⟩
            have hzero' : ¬ ((plain run).remainingValues w - 1 = 0 ∧ w ≠ g.externalOutput) := hzero
            simp only [releaseInputs, if_neg hzero, if_neg hzero']
            obtain ⟨released', run', hrun, hflow, hinv', hframe, hlookup, htransient, hplain⟩ := ih
              released (h.useValue (by omega)) hinv hrestUses hrestAcquired hrestAvailable
            rw [useOnce_add_count] at hflow
            refine ⟨released', run', hrun, hflow, hinv', ⟨hframe.completed, hframe.output,
              hframe.outputShape, hframe.trace, hframe.preserved⟩, ?_, htransient, hplain⟩
            intro v
            have hbyIh : run'.values.lookup v =
                if Released g (useOnce u (.value w)) rest v then none else run.values.lookup v :=
              hlookup v
            rw [hbyIh]
            exact if_congr (released_value_iff hlast v) rfl rfl

/-! ### One pass -/

/-- What a pass that ran operation `i` after the uses `u` leaves behind. -/
structure PassSpec (g : TensorDependencyExecutor) (u : TensorWaveRef → Nat) (i : Nat)
    (product : Product) (run run' : WaveRun β) : Prop where
  completed : run'.completed = Function.update run.completed i true
  values : ∀ v, run'.values.lookup v =
    if Released g u (g.operationAt i).inputs v then none
    else if v = (g.operationAt i).outputValue then some product.view
    else run.values.lookup v
  transient : run.values.lookup (g.operationAt i).outputValue = none →
    run.activeTransientBytes = UInt64.ofNat (valueBytes run.values) →
    run'.activeTransientBytes = UInt64.ofNat (valueBytes run'.values)
  output : run'.output =
    if (g.operationAt i).outputValue = g.externalOutput then product.bytes else run.output
  preserved : run'.report.externalOutputPreserved = (run.report.externalOutputPreserved ||
    decide ((g.operationAt i).outputValue = g.externalOutput))
  trace : ∃ step : TensorWaveTraceStep, run'.report.trace = run.report.trace ++ [step] ∧
    step.opId = (g.operationAt i).opId ∧
    step.activePersistentWeightBytes = run'.activeWeightBytes ∧
    step.activeTransientBytes = run'.activeTransientBytes

/-- The acquisition and binding loops of a pass. -/
theorem prepared_ok (S : Supply g storageProvider ops?) {u : TensorWaveRef → Nat}
    {acquired available : Nat → Prop} {run : WaveRun β} (i : Nat)
    (h : Flow g storageProvider u acquired available run) (hinv : S.At run)
    (huses : ∀ ref, u ref + (g.operationAt i).inputs.count ref ≤ g.consumers ref)
    (havailable : ∀ v, .value v ∈ (g.operationAt i).inputs → available v)
    (hallowed : Allowed S u acquired available (g.operationAt i).inputs) :
    ∃ inputs prepared run₁ run₂,
      g.acquireInputs storageProvider ops? (g.operationAt i) (g.operationAt i).inputs {} run =
        (.ok inputs, run₁) ∧
      g.acquireInputs storageProvider none (g.operationAt i) (g.operationAt i).inputs {} (plain run) =
        (.ok ⟨[], inputs.names⟩, plain run₁) ∧
      g.prepareInputs storageProvider ops? (g.operationAt i) (g.operationAt i).inputs
        { materialized := inputs.materialized }
        { run₁ with report := { run₁.report with
          peakActiveWeightBytes := max run₁.report.peakActiveWeightBytes run₁.activeWeightBytes } } =
          (.ok prepared, run₂) ∧
      g.prepareInputs storageProvider none (g.operationAt i) (g.operationAt i).inputs
        { materialized := [] }
        (plain { run₁ with report := { run₁.report with
          peakActiveWeightBytes := max run₁.report.peakActiveWeightBytes run₁.activeWeightBytes } }) =
          (.ok ⟨[], prepared.operands, prepared.consumed⟩, plain run₂) ∧
      prepared.operands = (g.operationAt i).inputs.map (operand g storageProvider (viewsOf run)) ∧
      Flow g storageProvider u
        (fun p => acquired p ∨ .persistent p ∈ (g.operationAt i).inputs) available run₂ ∧
      S.At run₂ ∧ FrameValues run run₂ := by
  have hpositive : ∀ ref ∈ (g.operationAt i).inputs, u ref < g.consumers ref := by
    intro ref href
    have hcount : 0 < (g.operationAt i).inputs.count ref := List.count_pos_iff.2 href
    have hle := huses ref
    omega
  obtain ⟨inputs, run₁, hacquire, hflow, hinv₁, hmat, hframe, hplain⟩ := acquireInputs_ok S
    (g.operationAt i) (g.operationAt i).inputs {} h hinv
    (fun p ready hlookup => by cases hlookup) (fun p hp => hpositive _ hp) hallowed
  let run₁' : WaveRun β := { run₁ with report := { run₁.report with
    peakActiveWeightBytes := max run₁.report.peakActiveWeightBytes run₁.activeWeightBytes } }
  have hflow' : Flow g storageProvider u
      (fun p => acquired p ∨ .persistent p ∈ (g.operationAt i).inputs) available run₁' :=
    hflow.same rfl rfl rfl rfl rfl
  have hframe' : FrameValues run run₁' := ⟨⟨hframe.completed, hframe.output, hframe.outputShape,
    hframe.trace, hframe.preserved⟩, hframe.values, hframe.transient⟩
  obtain ⟨prepared, run₂, hprepare, hflow₂, hinv₂, hoperands, hframe₂, hplain₂⟩ :=
    prepareInputs_ok S (g.operationAt i) (g.operationAt i).inputs
      { materialized := inputs.materialized } hflow' hinv₁ hmat
      (fun p hp => (hflow.resident_isSome p).2 ⟨Or.inr hp, hpositive _ hp⟩)
      (fun v hv => hflow'.value_kept v (havailable v hv) (hpositive _ hv))
  refine ⟨inputs, prepared, run₁, run₂, hacquire, hplain, hprepare, hplain₂, ?_, hflow₂, hinv₂,
    hframe'.trans hframe₂⟩
  rw [hoperands, List.nil_append]
  apply operands_congr
  intro v _
  rw [viewsOf, viewsOf, hframe'.values]

theorem runnableOperations_plain (run : WaveRun β) :
    g.runnableOperations (plain run) = g.runnableOperations run := rfl

variable {semantics : OperationSemantics}

/-- A pass whose operation computes a product. -/
theorem pass_ok (S : Supply g storageProvider ops?) {u : TensorWaveRef → Nat}
    {acquired available : Nat → Prop} {run : WaveRun β} {i : Nat} {others : List Nat}
    (h : Flow g storageProvider u acquired available run) (hinv : S.At run)
    (hrunnable : g.runnableOperations run = i :: others)
    (huses : ∀ ref, u ref + (g.operationAt i).inputs.count ref ≤ g.consumers ref)
    (havailable : ∀ v, .value v ∈ (g.operationAt i).inputs → available v)
    (hallowed : Allowed S u acquired available (g.operationAt i).inputs) {product : Product}
    (hproduct : semantics (g.operationAt i)
      ((g.operationAt i).inputs.map (operand g storageProvider (viewsOf run))) = .ok product) :
    ∃ run', g.pass semantics storageProvider ops? run = (.ok (), run') ∧
      Flow g storageProvider (fun ref => u ref + (g.operationAt i).inputs.count ref)
        (fun p => acquired p ∨ .persistent p ∈ (g.operationAt i).inputs)
        (fun v => available v ∨ v = (g.operationAt i).outputValue) run' ∧
      S.At run' ∧ PassSpec g u i product run run' ∧
      g.pass semantics storageProvider none (plain run) = (.ok (), plain run') := by
  obtain ⟨inputs, prepared, run₁, run₂, hacquire, hacquire', hprepare, hprepare', hoperands, hflow₂,
    hinv₂, hframe₂⟩ := prepared_ok S i h hinv huses havailable hallowed
  obtain ⟨released, run₃, hrelease, hflow₃, hinv₃, hframe₃, hlookup, htransient, hplain₃⟩ :=
    releaseInputs_ok S (g.operationAt i).inputs {} (hflow₂.produce (g.operationAt i) product) hinv₂
      huses (fun p hp => Or.inr hp) (fun v hv => Or.inl (havailable v hv))
  let step : TensorWaveTraceStep :=
    { opId := (g.operationAt i).opId
      opKind := (g.operationAt i).kind
      runnableBefore := (i :: others).map (fun i => (g.operationAt i).opId)
      persistentAcquired := inputs.names
      persistentReleased := released.persistents
      inputValuesConsumed := prepared.consumed
      outputValuesProduced := [g.valueName (g.operationAt i).outputValue]
      valuesReleased := released.values
      activePersistentWeightBytesDuring := run₁.activeWeightBytes
      activePersistentTensorCountDuring := run₁.resident.keys.length
      activePersistentWeightBytes := run₃.activeWeightBytes
      activePersistentTensorCount := run₃.resident.keys.length
      activeTransientBytes := run₃.activeTransientBytes }
  let run' : WaveRun β := { run₃ with
    completed := Function.update run₃.completed i true
    report := { run₃.report with
      activeTransientBytes := run₃.activeTransientBytes
      trace := run₃.report.trace ++ [step] } }
  have hproduced : ∀ v, run₃.values.lookup v =
      if Released g u (g.operationAt i).inputs v then none
      else if v = (g.operationAt i).outputValue then some product.view
      else run.values.lookup v := by
    intro v
    rw [hlookup v]
    refine if_congr Iff.rfl rfl ?_
    show (run₂.values.insert (g.operationAt i).outputValue product.view).lookup v = _
    rw [AssocMap.lookup_insert_eq, hframe₂.values]
  refine ⟨run', ?_, hflow₃.same rfl rfl rfl rfl rfl, hinv₃, ⟨?_, hproduced, ?_, ?_, ?_, ?_⟩, ?_⟩
  · unfold pass
    rw [hrunnable]
    simp only [hacquire, hprepare, hoperands, hproduct, hrelease]
    rfl
  · show Function.update run₃.completed i true = _
    rw [hframe₃.completed]
    show Function.update run₂.completed i true = _
    rw [hframe₂.completed]
  · intro hnew hsum
    apply htransient
    show run₂.activeTransientBytes + product.view.payloadLen = UInt64.ofNat
      (valueBytes (run₂.values.insert (g.operationAt i).outputValue product.view))
    rw [hframe₂.transient, hframe₂.values, hsum, valueBytes, valueBytes,
      AssocMap.total_insert_new _ _ hnew, UInt64.ofNat_add, UInt64.add_comm]
    congr 1
    exact UInt64.ofNat_toNat.symm
  · show run₃.output = _
    rw [hframe₃.output]
    show (if _ then _ else run₂.output) = _
    rw [hframe₂.output]
  · show run₃.report.externalOutputPreserved = _
    rw [hframe₃.preserved]
    show (run₂.report.externalOutputPreserved || _) = _
    rw [hframe₂.preserved]
  · refine ⟨step, ?_, rfl, rfl, rfl⟩
    show run₃.report.trace ++ [step] = _
    rw [hframe₃.trace]
    show run₂.report.trace ++ [step] = _
    rw [hframe₂.trace]
  · unfold pass
    rw [runnableOperations_plain, hrunnable]
    have hplain₃' : g.releaseInputs none (g.operationAt i).inputs {}
        (g.produce (g.operationAt i) product (plain run₂)) = (.ok released, plain run₃) := hplain₃
    have hprepare'' : g.prepareInputs storageProvider none (g.operationAt i)
        (g.operationAt i).inputs { materialized := [] }
        { plain run₁ with report := { (plain run₁).report with
          peakActiveWeightBytes := max (plain run₁).report.peakActiveWeightBytes
            (plain run₁).activeWeightBytes } } =
          (.ok ⟨[], prepared.operands, prepared.consumed⟩, plain run₂) := hprepare'
    simp only [hacquire', hprepare'', hoperands, hproduct, hplain₃']
    rfl

/-- A pass whose operation fails. -/
theorem pass_error (S : Supply g storageProvider ops?) {u : TensorWaveRef → Nat}
    {acquired available : Nat → Prop} {run : WaveRun β} {i : Nat} {others : List Nat}
    (h : Flow g storageProvider u acquired available run) (hinv : S.At run)
    (hrunnable : g.runnableOperations run = i :: others)
    (huses : ∀ ref, u ref + (g.operationAt i).inputs.count ref ≤ g.consumers ref)
    (havailable : ∀ v, .value v ∈ (g.operationAt i).inputs → available v)
    (hallowed : Allowed S u acquired available (g.operationAt i).inputs) {failure : WaveFailure}
    (hfails : semantics (g.operationAt i)
      ((g.operationAt i).inputs.map (operand g storageProvider (viewsOf run))) = .error failure) :
    ∃ run', g.pass semantics storageProvider ops? run = (.error failure, run') := by
  obtain ⟨inputs, prepared, run₁, run₂, hacquire, -, hprepare, -, hoperands, -⟩ :=
    prepared_ok S i h hinv huses havailable hallowed
  refine ⟨run₂, ?_⟩
  unfold pass
  rw [hrunnable]
  simp only [hacquire, hprepare, hoperands, hfails]

end Passes

end TensorDependencyExecutor

end VBuf.Ggml
