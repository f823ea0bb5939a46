import Mathlib.Data.Fintype.EquivFin
import Mathlib.Order.WellFounded
import VBuf.Ggml.TensorWaveRun
import VBuf.Lib.Result

/-!
# Safety of the tensor dependency executor

`Evaluates` gives every value of a graph its meaning.  The schedule takes every
operation exactly when the value dependencies are acyclic and grounded.  A run
that completes has used everything up, so nothing is resident and the external
output is what plain evaluation gives.
-/

namespace VBuf.Ggml

open VBuf.Lib

namespace TensorDependencyExecutor

variable {g : TensorDependencyExecutor}

/-! ### Meaning -/

section Meaning

variable (g) (semantics : OperationSemantics) (storageProvider : TensorWaveStorageProvider)
  (input : TensorView)

/-- Plain evaluation: the input is given, and an operation whose values evaluate
gives its output value. -/
inductive Evaluates : Nat → TensorView → Prop
  | input : Evaluates g.inputValue input
  | operation {i : Nat} (views : Nat → TensorView) {product : Product}
      (hi : i < g.operations.length)
      (hviews : ∀ v, .value v ∈ (g.operationAt i).inputs → Evaluates v (views v))
      (hproduct : semantics (g.operationAt i)
        ((g.operationAt i).inputs.map (operand g storageProvider views)) = .ok product) :
      Evaluates (g.operationAt i).outputValue product.view

/-- A graph as the executor is given it: its references are valid, its
persistents are used, and each value is produced once. -/
structure WellFormed : Prop where
  input_set : g.inputValue ≠ unsetValue
  output_set : g.externalOutput ≠ unsetValue
  input_lt : g.inputValue < g.values.length
  output_lt : g.externalOutput < g.values.length
  produced_lt : ∀ operation ∈ g.operations, operation.outputValue < g.values.length
  persistent_lt : ∀ operation ∈ g.operations, ∀ p,
    TensorWaveRef.persistent p ∈ operation.inputs → p < g.persistent.length
  value_lt : ∀ operation ∈ g.operations, ∀ v,
    TensorWaveRef.value v ∈ operation.inputs → v < g.values.length
  consumed : ∀ p, p < g.persistent.length → g.consumers (.persistent p) ≠ 0
  distinct : ∀ i j, i < g.operations.length → j < g.operations.length →
    (g.operationAt i).outputValue = (g.operationAt j).outputValue → i = j
  input_free : ∀ operation ∈ g.operations, operation.outputValue ≠ g.inputValue
  external : ∃ operation ∈ g.operations, operation.outputValue = g.externalOutput

variable {g} {semantics} {storageProvider} {input}

theorem operationAt_mem {i : Nat} (hi : i < g.operations.length) :
    g.operationAt i ∈ g.operations := by
  rw [operationAt, List.getD_eq_getElem _ _ hi]
  exact List.getElem_mem hi

theorem operationAt_of_mem {operation : TensorWaveOp} (h : operation ∈ g.operations) :
    ∃ i, i < g.operations.length ∧ g.operationAt i = operation := by
  obtain ⟨i, hi, rfl⟩ := List.mem_iff_getElem.1 h
  exact ⟨i, hi, List.getD_eq_getElem _ _ hi⟩

/-- A value has one meaning. -/
theorem Evaluates.unique (hg : WellFormed g) {v : Nat} {a b : TensorView}
    (ha : Evaluates g semantics storageProvider input v a)
    (hb : Evaluates g semantics storageProvider input v b) : a = b := by
  induction ha generalizing b with
  | input =>
      generalize hv : g.inputValue = v at hb
      cases hb with
      | input => rfl
      | operation views hi _ _ => exact absurd hv.symm (hg.input_free _ (operationAt_mem hi))
  | @operation i views product hi hviews hproduct ih =>
      generalize hv : (g.operationAt i).outputValue = v at hb
      cases hb with
      | input => exact absurd hv (hg.input_free _ (operationAt_mem hi))
      | @operation j views' product' hj hviews' hproduct' =>
          obtain rfl := hg.distinct i j hi hj hv
          rw [operands_congr (fun v hmem => ih v hmem (hviews' v hmem)), hproduct'] at hproduct
          rw [Except.ok.inj hproduct]

end Meaning

/-! ### Dependencies -/

variable (g) in
/-- One operation consumes `u` and produces `v`. -/
def ValueDependency (u v : Nat) : Prop :=
  ∃ operation ∈ g.operations, TensorWaveRef.value u ∈ operation.inputs ∧ operation.outputValue = v

variable (g) in
def Acyclic : Prop := ∀ v, ¬ Relation.TransGen g.ValueDependency v v

variable (g) in
/-- Every consumed value is the input or produced. -/
def Grounded : Prop :=
  ∀ operation ∈ g.operations, ∀ v, TensorWaveRef.value v ∈ operation.inputs →
    v = g.inputValue ∨ ∃ producer ∈ g.operations, producer.outputValue = v

theorem valueDependency_of_mem {i v : Nat} (hi : i < g.operations.length)
    (hv : .value v ∈ (g.operationAt i).inputs) :
    g.ValueDependency v (g.operationAt i).outputValue :=
  ⟨g.operationAt i, operationAt_mem hi, hv, rfl⟩

/-- Each operation of a schedule is the first that can run after those before it. -/
theorem scheduleFrom_next {count : Nat} {done before : List Nat} {i : Nat} {after : List Nat}
    (heq : g.scheduleFrom count done = before ++ i :: after) (hlength : done.length ≤ before.length) :
    ∃ rest, g.nextOperations before = i :: rest := by
  induction count generalizing done with
  | zero =>
      have hsum := congrArg List.length heq
      simp only [scheduleFrom, List.length_append, List.length_cons] at hsum
      omega
  | succ count ih =>
      cases hnext : g.nextOperations done with
      | nil =>
          rw [scheduleFrom, hnext] at heq
          have hsum := congrArg List.length heq
          simp only [List.length_append, List.length_cons] at hsum
          omega
      | cons j rest =>
          rw [scheduleFrom, hnext] at heq
          simp only at heq
          rcases Nat.lt_or_ge done.length before.length with hlt | hge
          · exact ih heq (by rw [List.length_append, List.length_singleton]; exact hlt)
          · -- the operation right after `done`
            obtain ⟨tail, htail⟩ := scheduleFrom_prefix (g := g) count (done ++ [j])
            rw [heq, List.append_assoc] at htail
            have hsame : done.length = before.length := Nat.le_antisymm hlength hge
            obtain ⟨hdone, hrest⟩ := List.append_inj htail hsame
            rw [List.singleton_append, List.cons.injEq] at hrest
            rw [← hdone, ← hrest.1]
            exact ⟨rest, hnext⟩

/-- A schedule that ends early is stuck. -/
theorem scheduleFrom_stuck {count : Nat} {done : List Nat}
    (hlength : (g.scheduleFrom count done).length < done.length + count) :
    g.nextOperations (g.scheduleFrom count done) = [] := by
  induction count generalizing done with
  | zero => exact absurd hlength (Nat.lt_irrefl _)
  | succ count ih =>
      cases hnext : g.nextOperations done with
      | nil =>
          rw [scheduleFrom, hnext]
          exact hnext
      | cons i rest =>
          rw [scheduleFrom, hnext] at hlength ⊢
          apply ih
          rw [List.length_append, List.length_singleton]
          simp only at hlength
          omega

theorem isOrder_scheduleFrom (count : Nat) {done : List Nat} (h : g.IsOrder done) :
    g.IsOrder (g.scheduleFrom count done) := by
  induction count generalizing done with
  | zero => exact h
  | succ count ih =>
      cases hnext : g.nextOperations done with
      | nil =>
          rw [scheduleFrom, hnext]
          exact h
      | cons i rest =>
          rw [scheduleFrom, hnext]
          have hi : i ∈ g.nextOperations done := by
            rw [hnext]
            exact List.mem_cons_self
          obtain ⟨hlt, hnew, -⟩ := mem_nextOperations.1 hi
          exact ih (h.append hlt hnew)

theorem isOrder_schedule : g.IsOrder g.schedule :=
  isOrder_scheduleFrom _ ⟨List.nodup_nil, fun _ h => absurd h List.not_mem_nil⟩

/-- What an operation of the schedule consumes was there before it. -/
theorem schedule_respects {before : List Nat} {i : Nat} {after : List Nat}
    (heq : g.schedule = before ++ i :: after) {v : Nat}
    (hv : .value v ∈ (g.operationAt i).inputs) :
    v = g.inputValue ∨ ∃ j ∈ before, (g.operationAt j).outputValue = v := by
  obtain ⟨rest, hnext⟩ := scheduleFrom_next heq (Nat.zero_le _)
  have hi : i ∈ g.nextOperations before := by
    rw [hnext]
    exact List.mem_cons_self
  exact available_iff.1 (ready_iff.1 (mem_nextOperations.1 hi).2.2 v hv)

theorem schedule_perm (hlength : g.schedule.length = g.operations.length) :
    g.schedule.Perm (List.range g.operations.length) :=
  isOrder_schedule.subperm.perm_of_length_le (by rw [List.length_range, hlength])

/-- A complete schedule puts producers before consumers, so nothing is cyclic. -/
theorem grounded_of_schedule (hlength : g.schedule.length = g.operations.length) :
    g.Grounded := by
  intro operation hoperation v hv
  obtain ⟨i, hi, rfl⟩ := operationAt_of_mem hoperation
  have hmem : i ∈ g.schedule := (schedule_perm hlength).mem_iff.2 (List.mem_range.2 hi)
  obtain ⟨before, after, heq⟩ := List.append_of_mem hmem
  rcases schedule_respects heq hv with hinput | ⟨j, hj, hproduces⟩
  · exact Or.inl hinput
  · have hj' : j ∈ g.schedule := by
      rw [heq]
      exact List.mem_append_left _ hj
    exact Or.inr ⟨_, operationAt_mem (isOrder_schedule.lt j hj'), hproduces⟩

/-- Where a value is produced in the schedule; the input comes first. -/
def rank (g : TensorDependencyExecutor) (v : Nat) : Nat :=
  if v = g.inputValue then 0
  else g.schedule.findIdx (fun i => (g.operationAt i).outputValue == v) + 1

theorem rank_lt (hg : WellFormed g) (hlength : g.schedule.length = g.operations.length) {u v : Nat}
    (h : g.ValueDependency u v) : rank g u < rank g v := by
  obtain ⟨operation, hoperation, hu, hv⟩ := h
  obtain ⟨i, hi, rfl⟩ := operationAt_of_mem hoperation
  have hmem : i ∈ g.schedule := (schedule_perm hlength).mem_iff.2 (List.mem_range.2 hi)
  obtain ⟨before, after, heq⟩ := List.append_of_mem hmem
  have hnew : i ∉ before := by
    intro hbefore
    have hnodup := isOrder_schedule (g := g) |>.nodup
    rw [heq] at hnodup
    exact (List.nodup_append.1 hnodup).2.2 i hbefore i List.mem_cons_self rfl
  -- the consumer stands right after `before`
  have hvrank : rank g v = before.length + 1 := by
    have hinput : v ≠ g.inputValue := by
      rw [← hv]
      exact hg.input_free _ hoperation
    have hbefore : ∀ j ∈ before, ((g.operationAt j).outputValue == v) = false := by
      intro j hj
      rw [beq_eq_false_iff_ne]
      intro hsame
      have hj' : j ∈ g.schedule := by
        rw [heq]
        exact List.mem_append_left _ hj
      have hji := hg.distinct j i (isOrder_schedule.lt j hj') hi (hsame.trans hv.symm)
      exact hnew (by rw [← hji]; exact hj)
    rw [rank, if_neg hinput, heq, List.findIdx_append,
      List.findIdx_eq_length.2 hbefore, if_neg (Nat.lt_irrefl _), List.findIdx_cons, hv]
    simp
  rw [hvrank]
  rcases schedule_respects heq hu with hinput | ⟨j, hj, hproduces⟩
  · rw [rank, if_pos hinput]
    exact Nat.succ_pos _
  · unfold rank
    split
    · exact Nat.succ_pos _
    · rw [heq, List.findIdx_append]
      have hlt : before.findIdx (fun k => (g.operationAt k).outputValue == u) < before.length :=
        List.findIdx_lt_length.2 ⟨j, hj, by simp [hproduces]⟩
      rw [if_pos hlt]
      exact Nat.succ_lt_succ hlt

theorem acyclic_of_schedule (hg : WellFormed g)
    (hlength : g.schedule.length = g.operations.length) : g.Acyclic := by
  intro v hcycle
  have hlt : ∀ {a b}, Relation.TransGen g.ValueDependency a b → rank g a < rank g b := by
    intro a b hab
    induction hab with
    | single h => exact rank_lt hg hlength h
    | tail _ h ih => exact ih.trans (rank_lt hg hlength h)
  exact absurd (hlt hcycle) (Nat.lt_irrefl _)

/-- With acyclic, grounded dependencies the schedule never gets stuck: among the
operations that are left, one depends on none of the others. -/
theorem schedule_complete (hacyclic : g.Acyclic) (hgrounded : g.Grounded) :
    g.schedule.length = g.operations.length := by
  by_contra hne
  have hle := scheduleFrom_length_le (g := g) g.operations.length []
  have hlt : g.schedule.length < ([] : List Nat).length + g.operations.length := by
    have hle' : g.schedule.length ≤ ([] : List Nat).length + g.operations.length := hle
    simp only [List.length_nil] at hle' ⊢
    omega
  have hstuck := scheduleFrom_stuck (g := g) hlt
  let before : Fin g.operations.length → Fin g.operations.length → Prop := fun j i =>
    Relation.TransGen g.ValueDependency (g.operationAt j).outputValue (g.operationAt i).outputValue
  have htrans : IsTrans _ before := ⟨fun _ _ _ hab hbc => hab.trans hbc⟩
  have hirrefl : Std.Irrefl before := ⟨fun i => hacyclic _⟩
  have hwf : WellFounded before := Finite.wellFounded_of_trans_of_irrefl before
  have hleft : ∃ i : Fin g.operations.length, (i : Nat) ∉ g.schedule := by
    by_contra hall
    push Not at hall
    have hsub : List.range g.operations.length ⊆ g.schedule :=
      fun i hi => hall ⟨i, List.mem_range.1 hi⟩
    have hcount := (List.nodup_range.subperm hsub).length_le
    rw [List.length_range] at hcount
    simp only [List.length_nil] at hlt
    omega
  obtain ⟨i, hi, hmin⟩ := hwf.has_min {i : Fin g.operations.length | (i : Nat) ∉ g.schedule} hleft
  have hready : g.ready g.schedule i = true := by
    rw [ready_iff]
    intro v hv
    rw [available_iff]
    rcases hgrounded _ (operationAt_mem i.isLt) v hv with hinput | ⟨producer, hproducer, hproduces⟩
    · exact Or.inl hinput
    · obtain ⟨j, hj, rfl⟩ := operationAt_of_mem hproducer
      by_cases hdone : j ∈ g.schedule
      · exact Or.inr ⟨j, hdone, hproduces⟩
      · refine absurd ?_ (hmin ⟨j, hj⟩ hdone)
        show Relation.TransGen g.ValueDependency (g.operationAt j).outputValue _
        rw [hproduces]
        exact Relation.TransGen.single (valueDependency_of_mem i.isLt hv)
  have hmem : (i : Nat) ∈ g.nextOperations g.schedule :=
    mem_nextOperations.2 ⟨i.isLt, hi, hready⟩
  rw [schedule, hstuck] at hmem
  exact absurd hmem List.not_mem_nil

theorem schedule_complete_iff (hg : WellFormed g) :
    g.schedule.length = g.operations.length ↔ g.Acyclic ∧ g.Grounded :=
  ⟨fun h => ⟨acyclic_of_schedule hg h, grounded_of_schedule h⟩,
    fun h => schedule_complete h.1 h.2⟩

/-! ### Validation -/

theorem WellFormed.validateOperation_ok (hg : WellFormed g) {operation : TensorWaveOp}
    (hoperation : operation ∈ g.operations) : g.validateOperation operation = .ok () := by
  have hinputs : operation.inputs.forM g.validateInput = .ok () := by
    refine forM_eq_ok_iff.2 ?_
    intro ref href
    cases ref with
    | persistent p =>
        exact if_neg (Nat.not_le.2 (hg.persistent_lt operation hoperation p href))
    | value v => exact if_neg (Nat.not_le.2 (hg.value_lt operation hoperation v href))
  unfold validateOperation
  rw [if_neg (Nat.not_le.2 (hg.produced_lt operation hoperation))]
  exact hinputs

/-- A well-formed graph passes the checks. -/
theorem WellFormed.validate_ok (hg : WellFormed g) : g.validate = .ok () := by
  obtain ⟨operation, hoperation, -⟩ := hg.external
  have hcontract : ¬ (g.inputValue = unsetValue ∨ g.externalOutput = unsetValue ∨
      g.operations = []) := by
    intro h
    rcases h with h | h | h
    · exact hg.input_set h
    · exact hg.output_set h
    · rw [h] at hoperation
      cases hoperation
  have hvalues : ¬ (g.inputValue ≥ g.values.length ∨ g.externalOutput ≥ g.values.length) := by
    intro h
    rcases h with h | h
    · exact absurd hg.input_lt (Nat.not_lt.2 h)
    · exact absurd hg.output_lt (Nat.not_lt.2 h)
  have hoperations : g.operations.forM g.validateOperation = .ok () :=
    forM_eq_ok_iff.2 (fun operation hoperation => hg.validateOperation_ok hoperation)
  have hpersistents : (List.range g.persistent.length).forM g.validatePersistent = .ok () := by
    refine forM_eq_ok_iff.2 ?_
    intro p hp
    exact if_neg (hg.consumed p (List.mem_range.1 hp))
  unfold validate
  rw [if_neg hcontract, if_neg hvalues]
  show (g.operations.forM g.validateOperation >>= fun _ =>
    (List.range g.persistent.length).forM g.validatePersistent) = .ok ()
  rw [hoperations]
  exact hpersistents

/-! ### Completion -/

/-! ### What a run computes -/

section Computed

variable {β : Type} (g) (semantics : OperationSemantics)
  (storageProvider : TensorWaveStorageProvider) (input : TensorView)

/-- A value that its last use has not released. -/
def Kept (u : TensorWaveRef → Nat) (v : Nat) : Prop :=
  v = g.externalOutput ∨ g.consumers (.value v) = 0 ∨ u (.value v) < g.consumers (.value v)

/-- The weights between their first and their last use. -/
def weightsAfter (done : List Nat) : Nat :=
  (((List.range g.persistent.length).filter fun p =>
    decide (0 < g.uses done (.persistent p)) &&
      decide (g.uses done (.persistent p) < g.consumers (.persistent p))).map
    (fun p => (g.persistentAt p).view.payloadLen.toNat)).sum

/-- The values that are there and not released. -/
def valuesAfter (views : Nat → TensorView) (done : List Nat) : Nat :=
  (((List.range g.values.length).filter fun v => g.available done v &&
    (decide (v = g.externalOutput) || decide (g.consumers (.value v) = 0) ||
      decide (g.uses done (.value v) < g.consumers (.value v)))).map
    (fun v => (views v).payloadLen.toNat)).sum

/-- What is known of a well-formed graph between two passes: the values are the
ones plain evaluation gives, and the report counts what is live. -/
structure Computed (done : List Nat) (run : WaveRun β) : Prop where
  value_isSome : ∀ v, (run.values.lookup v).isSome ↔
    g.available done v = true ∧ Kept g (g.uses done) v
  value_eq : ∀ v view, run.values.lookup v = some view →
    Evaluates g semantics storageProvider input v view
  transient : run.activeTransientBytes = UInt64.ofNat (valueBytes run.values)
  unused : ∀ v, ¬ g.available done v = true → g.uses done (.value v) = 0
  trace_length : run.report.trace.length = done.length
  trace : ∀ (k : Nat) (step : TensorWaveTraceStep) (i : Nat), run.report.trace[k]? = some step →
    done[k]? = some i → step.opId = (g.operationAt i).opId ∧
      step.activePersistentWeightBytes = UInt64.ofNat (weightsAfter g (done.take (k + 1))) ∧
      ∀ views : Nat → TensorView,
        (∀ v view, Evaluates g semantics storageProvider input v view → views v = view) →
        step.activeTransientBytes = UInt64.ofNat (valuesAfter g views (done.take (k + 1)))
  output : run.report.externalOutputPreserved = true →
    ∃ view, Evaluates g semantics storageProvider input g.externalOutput view ∧
      run.output = view.payload
  preserved : (∃ i ∈ done, (g.operationAt i).outputValue = g.externalOutput) →
    run.report.externalOutputPreserved = true

variable {g} {semantics} {storageProvider} {input}

theorem computed_initial (m : β) :
    Computed g semantics storageProvider input [] (g.initialRun input m) := by
  have hkept : Kept g (g.uses []) g.inputValue := by
    have hnone : g.uses [] (.value g.inputValue) = 0 := rfl
    unfold Kept
    rw [hnone]
    omega
  refine ⟨?_, ?_, ?_, fun _ _ => rfl, rfl, ?_, ?_, ?_⟩
  · intro v
    show ((AList.insert g.inputValue input (∅ : AssocMap Nat TensorView)).lookup v).isSome ↔ _
    rw [AssocMap.lookup_insert_eq]
    by_cases hv : v = g.inputValue
    · subst hv
      simp [available, hkept]
    · simp [hv, available]
  · intro v view hlookup
    have hlookup' : (AList.insert g.inputValue input (∅ : AssocMap Nat TensorView)).lookup v =
        some view := hlookup
    rw [AssocMap.lookup_insert_eq] at hlookup'
    by_cases hv : v = g.inputValue
    · rw [if_pos hv] at hlookup'
      rw [hv, ← Option.some.inj hlookup']
      exact Evaluates.input
    · simp [hv] at hlookup'
  · show input.payloadLen = _
    have hbytes : valueBytes (g.initialRun input m).values = input.payloadLen.toNat :=
      @AssocMap.total_insert_new _ _ _ ∅ g.inputValue _ input (AList.lookup_empty _)
    rw [hbytes]
    exact UInt64.ofNat_toNat.symm
  · intro k step i hstep
    simp [initialRun, initialReport] at hstep
  · intro hpreserved
    exact absurd hpreserved Bool.false_ne_true
  · intro h
    obtain ⟨i, hi, -⟩ := h
    cases hi

/-- The weight counter, as a sum over the graph. -/
theorem Between.weights_eq (hg : WellFormed g) {done : List Nat} {run : WaveRun β}
    (h : Between g storageProvider done run) : residentBytes run.resident = weightsAfter g done := by
  refine AssocMap.total_eq_sum_filter ?_ ?_
  · intro p
    rw [h.flow.resident_isSome p, Bool.and_eq_true, decide_eq_true_eq, decide_eq_true_eq]
    constructor
    · intro hboth
      refine ⟨?_, hboth⟩
      obtain ⟨i, hi, hmem⟩ := uses_pos_iff.1 hboth.1
      exact hg.persistent_lt _ (operationAt_mem (h.order.lt i hi)) p hmem
    · exact fun hboth => hboth.2
  · intro p tensor hlookup
    rw [h.flow.resident_eq p tensor hlookup]
    rfl

/-- The transient counter, as a sum over the graph. -/
theorem Between.values_eq (hg : WellFormed g) {done : List Nat} {run : WaveRun β}
    (h : Between g storageProvider done run)
    (hisSome : ∀ v, (run.values.lookup v).isSome ↔
      g.available done v = true ∧ Kept g (g.uses done) v)
    (heq : ∀ v view, run.values.lookup v = some view →
      Evaluates g semantics storageProvider input v view) {views : Nat → TensorView}
    (hviews : ∀ v view, Evaluates g semantics storageProvider input v view → views v = view) :
    valueBytes run.values = valuesAfter g views done := by
  refine AssocMap.total_eq_sum_filter ?_ ?_
  · intro v
    rw [hisSome v]
    simp only [Bool.and_eq_true, Bool.or_eq_true, decide_eq_true_eq]
    constructor
    · intro hboth
      refine ⟨?_, hboth.1, ?_⟩
      · rcases available_iff.1 hboth.1 with hv | ⟨i, hi, hv⟩
        · rw [hv]
          exact hg.input_lt
        · rw [← hv]
          exact hg.produced_lt _ (operationAt_mem (h.order.lt i hi))
      · rcases hboth.2 with hv | hv | hv
        · exact Or.inl (Or.inl hv)
        · exact Or.inl (Or.inr hv)
        · exact Or.inr hv
    · intro hboth
      refine ⟨hboth.2.1, ?_⟩
      rcases hboth.2.2 with (hv | hv) | hv
      · exact Or.inl hv
      · exact Or.inr (Or.inl hv)
      · exact Or.inr (Or.inr hv)
  · intro v view hlookup
    rw [hviews v view (heq v view hlookup)]

/-- The values an operation uses evaluate to what is looked up. -/
theorem Computed.evaluates {done : List Nat} {run : WaveRun β}
    (h : Computed g semantics storageProvider input done run)
    (hbetween : Between g storageProvider done run) {i : Nat} (hi : i ∈ g.nextOperations done)
    {v : Nat} (hv : .value v ∈ (g.operationAt i).inputs) :
    Evaluates g semantics storageProvider input v (viewsOf run v) := by
  have hcount : 0 < (g.operationAt i).inputs.count (.value v) := List.count_pos_iff.2 hv
  have hle := hbetween.uses_le hi (.value v)
  obtain ⟨view, hview⟩ := Option.isSome_iff_exists.1
    (hbetween.flow.value_kept v (available_of_next hi hv) (by omega))
  rw [viewsOf_eq hview]
  exact h.value_eq v view hview

/-- The entries of a list that has grown by one. -/
theorem getElem?_snoc_cases {α : Type} {l : List α} {a b : α} {k : Nat}
    (h : (l ++ [a])[k]? = some b) : l[k]? = some b ∨ k = l.length ∧ b = a := by
  rcases Nat.lt_trichotomy k l.length with hlt | rfl | hgt
  · rw [List.getElem?_append_left hlt] at h
    exact Or.inl h
  · rw [List.getElem?_append_right (Nat.le_refl _), Nat.sub_self] at h
    exact Or.inr ⟨rfl, (Option.some.inj h).symm⟩
  · rw [List.getElem?_append_right (Nat.le_of_lt hgt), List.getElem?_eq_none (by simp; omega)] at h
    cases h

/-- A pass keeps it all. -/
theorem Computed.pass (hg : WellFormed g) {done : List Nat} {run run' : WaveRun β}
    (h : Computed g semantics storageProvider input done run)
    (hbetween : Between g storageProvider done run) {i : Nat} (hi : i ∈ g.nextOperations done)
    {product : Product} (hproduct : semantics (g.operationAt i)
      ((g.operationAt i).inputs.map (operand g storageProvider (viewsOf run))) = .ok product)
    (hspec : PassSpec g (g.uses done) i product run run')
    (hbetween' : Between g storageProvider (done ++ [i]) run') :
    Computed g semantics storageProvider input (done ++ [i]) run' := by
  obtain ⟨hlt, hnew, -⟩ := mem_nextOperations.1 hi
  have hevaluates : Evaluates g semantics storageProvider input (g.operationAt i).outputValue
      product.view :=
    Evaluates.operation (viewsOf run) hlt (fun v hv => h.evaluates hbetween hi hv) hproduct
  -- the output is new, and nothing that ran has used it
  have hfresh : ¬ g.available done (g.operationAt i).outputValue = true := by
    rw [available_iff]
    intro hav
    rcases hav with hv | ⟨j, hj, hv⟩
    · exact hg.input_free _ (operationAt_mem hlt) hv
    · rw [hg.distinct j i (hbetween.order.lt j hj) hlt hv] at hj
      exact hnew hj
  have hnotUsed : TensorWaveRef.value (g.operationAt i).outputValue ∉ (g.operationAt i).inputs :=
    fun hmem => hfresh (available_of_next hi hmem)
  have huses : ∀ ref, g.uses (done ++ [i]) ref =
      g.uses done ref + (g.operationAt i).inputs.count ref :=
    fun ref => congrFun (uses_snoc done i) ref
  have hisSome : ∀ v, (run'.values.lookup v).isSome ↔
      g.available (done ++ [i]) v = true ∧ Kept g (g.uses (done ++ [i])) v := by
    intro v
    have hle := hbetween.uses_le hi (.value v)
    rw [hspec.values v, available_append]
    by_cases hreleased : Released g (g.uses done) (g.operationAt i).inputs v
    · rw [if_pos hreleased]
      have hgone : ¬ Kept g (g.uses (done ++ [i])) v := by
        unfold Kept
        rw [huses]
        have hcount := List.count_pos_iff.2 hreleased.1
        have hlast := hreleased.2.2
        intro hkept
        rcases hkept with hv | hv | hv
        · exact hreleased.2.1 hv
        · omega
        · omega
      simp [hgone]
    · rw [if_neg hreleased]
      by_cases hv : v = (g.operationAt i).outputValue
      · subst hv
        have hkept : Kept g (g.uses (done ++ [i])) (g.operationAt i).outputValue := by
          unfold Kept
          rw [huses, h.unused _ hfresh, List.count_eq_zero_of_not_mem hnotUsed]
          omega
        simp [hkept]
      · rw [if_neg hv, h.value_isSome v]
        simp only [hv, or_false]
        refine and_congr_right (fun _ => ?_)
        unfold Kept
        rw [huses]
        by_cases hmem : TensorWaveRef.value v ∈ (g.operationAt i).inputs
        · -- used here, and not for the last time
          have hcount := List.count_pos_iff.2 hmem
          have hnotLast : v = g.externalOutput ∨ ¬ g.uses done (.value v) +
              (g.operationAt i).inputs.count (.value v) = g.consumers (.value v) := by
            by_cases hext : v = g.externalOutput
            · exact Or.inl hext
            · exact Or.inr (fun hlast => hreleased ⟨hmem, hext, hlast⟩)
          omega
        · rw [List.count_eq_zero_of_not_mem hmem, Nat.add_zero]
  have heq : ∀ v view, run'.values.lookup v = some view →
      Evaluates g semantics storageProvider input v view := by
    intro v view hlookup
    rw [hspec.values v] at hlookup
    by_cases hreleased : Released g (g.uses done) (g.operationAt i).inputs v
    · rw [if_pos hreleased] at hlookup
      cases hlookup
    · rw [if_neg hreleased] at hlookup
      by_cases hv : v = (g.operationAt i).outputValue
      · rw [if_pos hv] at hlookup
        rw [hv, ← Option.some.inj hlookup]
        exact hevaluates
      · rw [if_neg hv] at hlookup
        exact h.value_eq v view hlookup
  have htransient : run'.activeTransientBytes = UInt64.ofNat (valueBytes run'.values) := by
    refine hspec.transient ?_ h.transient
    rw [← Option.not_isSome_iff_eq_none, h.value_isSome]
    exact fun hboth => hfresh hboth.1
  obtain ⟨step, htrace, hopId, hweight, hstepTransient⟩ := hspec.trace
  refine ⟨hisSome, heq, htransient, ?_, ?_, ?_, ?_, ?_⟩
  · intro v hv
    have hold : ¬ g.available done v = true := fun hav => hv (available_append.2 (Or.inl hav))
    have hnone : TensorWaveRef.value v ∉ (g.operationAt i).inputs :=
      fun hmem => hold (available_of_next hi hmem)
    rw [huses, h.unused v hold, List.count_eq_zero_of_not_mem hnone]
  · rw [htrace, List.length_append, List.length_append, h.trace_length]
    rfl
  · intro k entry j hentry hj
    rw [htrace] at hentry
    rcases getElem?_snoc_cases hentry with hold | ⟨hk, hentry'⟩
    · have hklt : k < done.length := by
        rw [← h.trace_length]
        exact (List.getElem?_eq_some_iff.1 hold).1
      rw [List.getElem?_append_left hklt] at hj
      rw [List.take_append_of_le_length hklt]
      exact h.trace k entry j hold hj
    · subst hentry'
      have hlast : k = done.length := by rw [hk, h.trace_length]
      subst hlast
      rw [List.getElem?_append_right (Nat.le_refl _), Nat.sub_self] at hj
      obtain rfl := Option.some.inj hj
      have htake : (done ++ [i]).take (done.length + 1) = done ++ [i] :=
        List.take_of_length_le (by simp)
      rw [htake]
      refine ⟨hopId, ?_, ?_⟩
      · rw [hweight, hbetween'.flow.weight, hbetween'.weights_eq hg]
      · intro views hviews
        rw [hstepTransient, htransient, hbetween'.values_eq hg hisSome heq hviews]
  · intro hpreserved
    rw [hspec.preserved] at hpreserved
    rw [hspec.output]
    by_cases hexternal : (g.operationAt i).outputValue = g.externalOutput
    · rw [if_pos hexternal]
      rw [hexternal] at hevaluates
      exact ⟨product.view, hevaluates, rfl⟩
    · rw [if_neg hexternal]
      rw [decide_eq_false hexternal, Bool.or_false] at hpreserved
      exact h.output hpreserved
  · intro hexists
    rw [hspec.preserved, Bool.or_eq_true, decide_eq_true_eq]
    obtain ⟨j, hj, hv⟩ := hexists
    rcases List.mem_append.1 hj with hold | hlast
    · exact Or.inl (h.preserved ⟨j, hold, hv⟩)
    · rw [List.mem_singleton.1 hlast] at hv
      exact Or.inr hv

end Computed

section Completion

variable {β : Type} {semantics : OperationSemantics} {storageProvider : TensorWaveStorageProvider}
  {input : TensorView}

theorem uses_schedule (hlength : g.schedule.length = g.operations.length) (ref : TensorWaveRef) :
    g.uses g.schedule ref = g.consumers ref := by
  rw [← uses_range]
  exact ((schedule_perm hlength).map _).sum_eq

/-- After the last pass nothing is resident and the output is there. -/
theorem complete_ok (hg : WellFormed g) (hlength : g.schedule.length = g.operations.length)
    {run : WaveRun β} (hbetween : Between g storageProvider g.schedule run)
    (h : Computed g semantics storageProvider input g.schedule run) :
    complete run = (.ok (), { run with report := { run.report with
      allPersistentReleased := true
      activeTransientBytes := run.activeTransientBytes } }) ∧
    run.resident = ∅ ∧
    ∃ view, Evaluates g semantics storageProvider input g.externalOutput view ∧
      run.output = view.payload := by
  have hnone : ∀ p, run.resident.lookup p = none := by
    intro p
    rw [← Option.not_isSome_iff_eq_none, hbetween.flow.resident_isSome p, uses_schedule hlength]
    exact fun hboth => absurd hboth.2 (Nat.lt_irrefl _)
  have hresident : run.resident = ∅ := by
    apply AList.ext
    have hkeys : run.resident.entries = [] := by
      rw [List.eq_nil_iff_forall_not_mem]
      intro entry hentry
      have hlookup : run.resident.lookup entry.1 = some entry.2 := AList.mem_lookup_iff.2 hentry
      rw [hnone] at hlookup
      cases hlookup
    exact hkeys
  have hweight : run.activeWeightBytes = 0 := by
    rw [hbetween.flow.weight, hresident]
    rfl
  obtain ⟨operation, hoperation, hexternal⟩ := hg.external
  obtain ⟨i, hi, rfl⟩ := operationAt_of_mem hoperation
  have hpreserved := h.preserved ⟨i, (schedule_perm hlength).mem_iff.2 (List.mem_range.2 hi),
    hexternal⟩
  refine ⟨?_, hresident, h.output hpreserved⟩
  have hkeys : run.resident.keys = [] := by
    rw [hresident]
    rfl
  unfold complete
  simp only [hkeys, hweight, hpreserved]
  rfl

/-- Preloaded storage: there is no materializer. -/
def preloaded (g : TensorDependencyExecutor) (storageProvider : TensorWaveStorageProvider) :
    Supply g storageProvider (none : Option (WaveMaterializer β)) where
  inv := fun _ _ _ => True
  allowed := fun _ _ => True
  acquire_none := fun _ _ _ _ _ _ => trivial
  acquire_some := fun _ _ _ _ _ h => by cases h
  again := fun _ _ _ _ _ _ h => by cases h
  release := fun _ _ _ _ _ _ _ => trivial

theorem allowedAt_preloaded (done : List Nat) (i : Nat) :
    AllowedAt (β := β) (preloaded g storageProvider) done i :=
  fun _ _ _ _ _ _ _ _ => trivial

/-- Weights between their first and their last use, when `executed` operations
of the order have run. -/
def liveWeights (g : TensorDependencyExecutor) (order : List Nat) (executed : Nat) : Nat :=
  (((List.range g.persistent.length).filter fun p =>
    (order.take executed).any (fun i => (g.operationAt i).inputs.contains (.persistent p)) &&
      (order.drop executed).any (fun i => (g.operationAt i).inputs.contains (.persistent p))).map
    (fun p => (g.persistentAt p).view.payloadLen.toNat)).sum

/-- Values that are there and still held: the external output, a value that
nothing consumes, or one that a later operation consumes. -/
def liveValues (g : TensorDependencyExecutor) (views : Nat → TensorView) (order : List Nat)
    (executed : Nat) : Nat :=
  (((List.range g.values.length).filter fun v => g.available (order.take executed) v &&
    (v == g.externalOutput ||
      !g.operations.any (fun operation => operation.inputs.contains (.value v)) ||
      (order.drop executed).any (fun i => (g.operationAt i).inputs.contains (.value v)))).map
    (fun v => (views v).payloadLen.toNat)).sum

theorem any_uses_iff {order : List Nat} {ref : TensorWaveRef} :
    order.any (fun i => (g.operationAt i).inputs.contains ref) = true ↔ 0 < g.uses order ref := by
  rw [uses_pos_iff, List.any_eq_true]
  simp

/-- The uses still to come are the rest of the schedule. -/
theorem uses_lt_iff (hlength : g.schedule.length = g.operations.length) (executed : Nat)
    (ref : TensorWaveRef) :
    g.uses (g.schedule.take executed) ref < g.consumers ref ↔
      (g.schedule.drop executed).any (fun i => (g.operationAt i).inputs.contains ref) = true := by
  have hsum := uses_append g (g.schedule.take executed) (g.schedule.drop executed) ref
  rw [List.take_append_drop, uses_schedule hlength] at hsum
  rw [any_uses_iff]
  omega

theorem weightsAfter_eq (hlength : g.schedule.length = g.operations.length) (executed : Nat) :
    weightsAfter g (g.schedule.take executed) = liveWeights g g.schedule executed := by
  unfold weightsAfter liveWeights
  congr 2
  apply List.filter_congr
  intro p _
  rw [Bool.eq_iff_iff, Bool.and_eq_true, Bool.and_eq_true, decide_eq_true_eq, decide_eq_true_eq,
    uses_lt_iff hlength, ← any_uses_iff]

theorem consumers_eq_zero_iff (ref : TensorWaveRef) :
    g.consumers ref = 0 ↔
      (!g.operations.any (fun operation => operation.inputs.contains ref)) = true := by
  rw [consumers, List.count_eq_zero]
  simp

theorem valuesAfter_eq (hlength : g.schedule.length = g.operations.length)
    (views : Nat → TensorView) (executed : Nat) :
    valuesAfter g views (g.schedule.take executed) = liveValues g views g.schedule executed := by
  unfold valuesAfter liveValues
  congr 2
  apply List.filter_congr
  intro v _
  rw [Bool.eq_iff_iff]
  simp only [Bool.and_eq_true, Bool.or_eq_true, decide_eq_true_eq, uses_lt_iff hlength,
    consumers_eq_zero_iff, beq_iff_eq]

end Completion

/-- A graph whose value dependencies are acyclic and grounded runs: every
operation once, after what it depends on, with no lookup of anything released
(a lookup without an entry ends the call), the counters at what is live, nothing
resident at the end, and the output of plain evaluation.  Any other graph ends
without a runnable operation. -/
theorem execute_safe (g : TensorDependencyExecutor) (hg : WellFormed g)
    (semantics : OperationSemantics)
    (htotal : ∀ operation operands, ∃ product, semantics operation operands = .ok product)
    (storageProvider : TensorWaveStorageProvider) (input : TensorView) :
    (g.Acyclic ∧ g.Grounded →
      ∃ order : List Nat, order.Perm (List.range g.operations.length) ∧
        (∀ before i after, order = before ++ i :: after →
          ∀ v, .value v ∈ (g.operationAt i).inputs →
            v = g.inputValue ∨ ∃ j ∈ before, (g.operationAt j).outputValue = v) ∧
        (g.execute semantics storageProvider none input ()).result = .ok () ∧
        (g.execute semantics storageProvider none input ()).report.trace.length = order.length ∧
        (∀ (k : Nat) (step : TensorWaveTraceStep) (i : Nat),
          (g.execute semantics storageProvider none input ()).report.trace[k]? = some step →
          order[k]? = some i →
          step.opId = (g.operationAt i).opId ∧
          step.activePersistentWeightBytes.toNat = liveWeights g order (k + 1) % 2 ^ 64 ∧
          ∀ views : Nat → TensorView,
            (∀ v view, Evaluates g semantics storageProvider input v view → views v = view) →
            step.activeTransientBytes.toNat = liveValues g views order (k + 1) % 2 ^ 64) ∧
        (g.execute semantics storageProvider none input ()).report.allPersistentReleased = true ∧
        ∃ view, Evaluates g semantics storageProvider input g.externalOutput view ∧
          (∀ other, Evaluates g semantics storageProvider input g.externalOutput other →
            other = view) ∧
          (g.execute semantics storageProvider none input ()).output = view.payload) ∧
    (¬ (g.Acyclic ∧ g.Grounded) →
      (g.execute semantics storageProvider none input ()).result =
        .error (.adapter .invalidArgument
          "tensor dependency graph has no runnable operation")) := by
  have hpasses := Between.passes semantics (preloaded g storageProvider)
    allowedAt_preloaded (Computed g semantics storageProvider input)
    (fun _ _ i _ _ _ => htotal (g.operationAt i) _)
    (fun _ _ _ _ _ hbetween hcomputed hi hproduct hspec hbetween' =>
      hcomputed.pass hg hbetween hi hproduct hspec hbetween')
    g.operations.length (between_initial input ()) trivial (computed_initial ())
  have hexecute : g.execute semantics storageProvider none input () =
      ⟨(g.executeRun semantics storageProvider none input ()).1,
        (g.executeRun semantics storageProvider none input ()).2.output,
        (g.executeRun semantics storageProvider none input ()).2.outputShape,
        (g.executeRun semantics storageProvider none input ()).2.report,
        cleanup none (g.executeRun semantics storageProvider none input ()).2⟩ := by
    unfold execute
    rw [hg.validate_ok]
  rw [hexecute]
  refine ⟨?_, ?_⟩
  · intro hgraph
    have hlength := schedule_complete hgraph.1 hgraph.2
    rcases hpasses with ⟨-, run, hrun, hbetween, hcomputed⟩ | ⟨hshort, -⟩
    · have hcomputed' : Computed g semantics storageProvider input g.schedule run := hcomputed
      obtain ⟨hcomplete, -, view, hevaluates, houtput⟩ := complete_ok hg hlength hbetween hcomputed'
      have hdone : g.executeRun semantics storageProvider none input () = (.ok (), { run with
          report := { run.report with
            allPersistentReleased := true
            activeTransientBytes := run.activeTransientBytes } }) := by
        unfold executeRun
        rw [hrun]
        exact hcomplete
      rw [hdone]
      refine ⟨g.schedule, schedule_perm hlength,
        fun before i after heq v hv => schedule_respects heq hv, rfl, hcomputed'.trace_length, ?_,
        rfl, view, hevaluates, fun other hother => hother.unique hg hevaluates, houtput⟩
      intro k step i hstep hi
      obtain ⟨hopId, hweight, htransient⟩ := hcomputed'.trace k step i hstep hi
      refine ⟨hopId, ?_, ?_⟩
      · rw [hweight, weightsAfter_eq hlength, UInt64.toNat_ofNat']
      · intro views hviews
        rw [htransient views hviews, valuesAfter_eq hlength, UInt64.toNat_ofNat']
    · have hlength' : (g.scheduleFrom g.operations.length []).length = g.operations.length := hlength
      rw [hlength', List.length_nil] at hshort
      omega
  · intro hgraph
    have hlength : ¬ g.schedule.length = g.operations.length :=
      fun h => hgraph ((schedule_complete_iff hg).1 h)
    rcases hpasses with ⟨heq, -⟩ | ⟨-, run, hrun⟩
    · rw [List.length_nil, Nat.zero_add] at heq
      exact absurd heq hlength
    · show (g.executeRun semantics storageProvider none input ()).1 = _
      unfold executeRun
      rw [hrun]

/-- A weight times the input, and a gate of the product with itself; the gate
is added first. -/
def exampleGraph : TensorDependencyExecutor where
  inputValue := 0
  externalOutput := 2
  persistent := [⟨7, "weight", ⟨0, [1, 1], [3, 0, 0, 0], 4⟩, 0⟩]
  values := ["input", "product", "output"]
  operations :=
    [⟨"gate", .swiGlu, [.value 1, .value 1], 2, 0⟩,
      ⟨"multiply", .mulMat, [.persistent 0, .value 0], 1, 0⟩]

theorem exampleGraph_wellFormed : WellFormed exampleGraph where
  input_set := by decide
  output_set := by decide
  input_lt := by decide
  output_lt := by decide
  produced_lt := by decide
  persistent_lt := by
    intro operation hoperation p hp
    rcases List.mem_cons.1 hoperation with rfl | hoperation
    · simp at hp
    · rw [List.mem_singleton] at hoperation
      subst hoperation
      have hzero : p = 0 := by simpa using hp
      rw [hzero]
      decide
  value_lt := by
    intro operation hoperation v hv
    rcases List.mem_cons.1 hoperation with rfl | hoperation
    · have hone : v = 1 := by simpa using hv
      rw [hone]
      decide
    · rw [List.mem_singleton] at hoperation
      subst hoperation
      have hzero : v = 0 := by simpa using hv
      rw [hzero]
      decide
  consumed := by
    intro p hp
    obtain rfl : p = 0 := Nat.lt_one_iff.1 hp
    decide
  distinct := by
    have hall : ∀ i < 2, ∀ j < 2, (exampleGraph.operationAt i).outputValue =
        (exampleGraph.operationAt j).outputValue → i = j := by
      decide
    exact fun i j hi hj => hall i hi j hj
  input_free := by decide
  external := by decide

/-- Both operations run, whatever they compute. -/
theorem execute_safe_exampleGraph :
    (exampleGraph.execute (fun _ operands => .ok ⟨operands.flatMap (·.bytes), [1, 1]⟩)
      (fun view => view.payload) none ⟨0, [1, 1], [2, 0, 0, 0], 4⟩ ()).result = .ok () := by
  have hcomplete : exampleGraph.schedule.length = exampleGraph.operations.length := by decide
  obtain ⟨order, -, -, hresult, -⟩ := (execute_safe exampleGraph exampleGraph_wellFormed
    (fun _ operands => .ok ⟨operands.flatMap (·.bytes), [1, 1]⟩) (fun _ _ => ⟨_, rfl⟩)
    (fun view => view.payload) ⟨0, [1, 1], [2, 0, 0, 0], 4⟩).1
    ((schedule_complete_iff exampleGraph_wellFormed).1 hcomplete)
  exact hresult

end TensorDependencyExecutor

end VBuf.Ggml
