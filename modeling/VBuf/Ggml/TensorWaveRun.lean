import VBuf.Ggml.TensorWaveSpec

/-!
# Runs of the executor

`schedule` is the order in which the passes take the operations, computed from
the graph alone.  A run follows it pass by pass, whatever supplies the
persistent tensors, and ends where the schedule ends.
-/

namespace VBuf.Ggml

open VBuf.Lib

namespace TensorDependencyExecutor

variable (g : TensorDependencyExecutor)

/-! ### The schedule -/

/-- The values that are there once the operations of `done` have run. -/
def available (done : List Nat) (v : Nat) : Bool :=
  v == g.inputValue || done.any (fun i => (g.operationAt i).outputValue == v)

def ready (done : List Nat) (i : Nat) : Bool :=
  (g.operationAt i).inputs.all fun
    | .persistent _ => true
    | .value v => g.available done v

/-- The operations that can run next, in index order. -/
def nextOperations (done : List Nat) : List Nat :=
  (List.range g.operations.length).filter (fun i => !decide (i ∈ done) && g.ready done i)

/-- The order of up to `count` more passes. -/
def scheduleFrom : Nat → List Nat → List Nat
  | 0, done => done
  | count + 1, done =>
      match g.nextOperations done with
      | [] => done
      | i :: _ => scheduleFrom count (done ++ [i])

def schedule : List Nat := g.scheduleFrom g.operations.length []

variable {g}

theorem available_iff {done : List Nat} {v : Nat} :
    g.available done v = true ↔
      v = g.inputValue ∨ ∃ i ∈ done, (g.operationAt i).outputValue = v := by
  simp [available]

theorem available_append {done : List Nat} {i v : Nat} :
    g.available (done ++ [i]) v = true ↔
      g.available done v = true ∨ v = (g.operationAt i).outputValue := by
  rw [available_iff, available_iff]
  simp only [List.mem_append, List.mem_singleton]
  constructor
  · intro h
    rcases h with heq | ⟨j, hj | rfl, hv⟩
    · exact Or.inl (Or.inl heq)
    · exact Or.inl (Or.inr ⟨j, hj, hv⟩)
    · exact Or.inr hv.symm
  · intro h
    rcases h with (heq | ⟨j, hj, hv⟩) | hv
    · exact Or.inl heq
    · exact Or.inr ⟨j, Or.inl hj, hv⟩
    · exact Or.inr ⟨i, Or.inr rfl, hv.symm⟩

theorem ready_iff {done : List Nat} {i : Nat} :
    g.ready done i = true ↔
      ∀ v, .value v ∈ (g.operationAt i).inputs → g.available done v = true := by
  rw [ready, List.all_eq_true]
  constructor
  · intro h v hv
    exact h _ hv
  · intro h ref href
    cases ref with
    | persistent p => rfl
    | value v => exact h v href

theorem mem_nextOperations {done : List Nat} {i : Nat} :
    i ∈ g.nextOperations done ↔
      i < g.operations.length ∧ i ∉ done ∧ g.ready done i = true := by
  rw [nextOperations, List.mem_filter, List.mem_range]
  simp

/-! ### Between passes -/

section Between

variable {β : Type} (g) (storageProvider : TensorWaveStorageProvider)

/-- The state between two passes, after the operations of `done`. -/
structure Between (done : List Nat) (run : WaveRun β) : Prop where
  order : g.IsOrder done
  flow : Flow g storageProvider (g.uses done) (fun p => 0 < g.uses done (.persistent p))
    (fun v => g.available done v = true) run
  completed : ∀ i, run.completed i = decide (i ∈ done)

variable {g} {storageProvider} {ops? : Option (WaveMaterializer β)} {semantics : OperationSemantics}

/-- Nothing has run yet. -/
theorem between_initial (input : TensorView) (m : β) :
    Between g storageProvider [] (g.initialRun input m) := by
  have hnone : ∀ ref, g.uses [] ref = 0 := fun _ => rfl
  refine ⟨⟨List.nodup_nil, by simp⟩, ⟨fun _ => rfl, fun _ => rfl, ?_, ?_, rfl, ?_, ?_⟩, ?_⟩
  · intro p
    rw [hnone]
    simp [initialRun]
  · intro p tensor hlookup
    simp [initialRun] at hlookup
  · intro v hsome
    have hsome' : ((AList.insert g.inputValue input (∅ : AssocMap Nat TensorView)).lookup v).isSome :=
      hsome
    rw [AssocMap.lookup_insert_eq] at hsome'
    by_cases hv : v = g.inputValue
    · simp [available, hv]
    · simp [hv] at hsome'
  · intro v havailable _
    show ((AList.insert g.inputValue input (∅ : AssocMap Nat TensorView)).lookup v).isSome
    have hv : v = g.inputValue := by simpa [available] using havailable
    rw [AssocMap.lookup_insert_eq, if_pos hv]
    rfl
  · intro i
    simp [initialRun]

/-- An operation that is next has its uses left and its values there. -/
theorem Between.uses_le {done : List Nat} {run : WaveRun β} (h : Between g storageProvider done run)
    {i : Nat} (hi : i ∈ g.nextOperations done) (ref : TensorWaveRef) :
    g.uses done ref + (g.operationAt i).inputs.count ref ≤ g.consumers ref := by
  obtain ⟨hlt, hnew, -⟩ := mem_nextOperations.1 hi
  exact h.order.uses_add_le hlt hnew ref

theorem available_of_next {done : List Nat} {i : Nat} (hi : i ∈ g.nextOperations done) {v : Nat}
    (hv : .value v ∈ (g.operationAt i).inputs) : g.available done v = true :=
  ready_iff.1 (mem_nextOperations.1 hi).2.2 v hv

/-- The runnable operations are the next ones. -/
theorem Between.runnable_eq {done : List Nat} {run : WaveRun β}
    (h : Between g storageProvider done run) :
    g.runnableOperations run = g.nextOperations done := by
  unfold runnableOperations nextOperations
  apply List.filter_congr
  intro i hi
  rw [List.mem_range] at hi
  rw [h.completed i]
  by_cases hdone : i ∈ done
  · simp [hdone]
  · have hready : g.runnable run i = g.ready done i := by
      rw [Bool.eq_iff_iff, ready_iff, runnable, List.all_eq_true]
      -- a value with a use left has not been released
      have hvalue : ∀ v, .value v ∈ (g.operationAt i).inputs →
          ((run.values.lookup v).isSome ↔ g.available done v = true) := by
        intro v hv
        have hadd := h.order.uses_add_le hi hdone (.value v)
        have hcount : 0 < g.usesIn (.value v) i := List.count_pos_iff.2 hv
        exact ⟨h.flow.value_available v, fun hav => h.flow.value_kept v hav (by omega)⟩
      constructor
      · intro hall v hv
        exact (hvalue v hv).1 (hall _ hv)
      · intro hall ref href
        cases ref with
        | persistent p => rfl
        | value v => exact (hvalue v href).2 (hall v href)
    simp [hdone, hready]

theorem uses_snoc (done : List Nat) (i : Nat) :
    g.uses (done ++ [i]) = fun ref => g.uses done ref + (g.operationAt i).inputs.count ref := by
  funext ref
  rw [uses_append]
  simp [uses, usesIn]

/-- Every acquisition of an operation is allowed when it comes. -/
def AllowedAt (S : Supply g storageProvider ops?) (done : List Nat) (i : Nat) : Prop :=
  Allowed S (g.uses done) (fun p => 0 < g.uses done (.persistent p))
    (fun v => g.available done v = true) (g.operationAt i).inputs

/-- A pass whose operation computes a product. -/
theorem Between.pass_ok (S : Supply g storageProvider ops?) {done : List Nat} {run : WaveRun β}
    (h : Between g storageProvider done run) (hinv : S.At run) {i : Nat} {rest : List Nat}
    (hnext : g.nextOperations done = i :: rest) (hallowed : AllowedAt S done i) {product : Product}
    (hproduct : semantics (g.operationAt i)
      ((g.operationAt i).inputs.map (operand g storageProvider (viewsOf run))) = .ok product) :
    ∃ run', g.pass semantics storageProvider ops? run = (.ok (), run') ∧
      Between g storageProvider (done ++ [i]) run' ∧ S.At run' ∧
      PassSpec g (g.uses done) i product run run' ∧
      g.pass semantics storageProvider none (plain run) = (.ok (), plain run') := by
  have hi : i ∈ g.nextOperations done := by
    rw [hnext]
    exact List.mem_cons_self
  obtain ⟨hlt, hnew, -⟩ := mem_nextOperations.1 hi
  obtain ⟨run', hpass, hflow, hinv', hspec, hplain⟩ := TensorDependencyExecutor.pass_ok S h.flow hinv
    (h.runnable_eq.trans hnext) (h.uses_le hi) (fun v hv => available_of_next hi hv) hallowed hproduct
  refine ⟨run', hpass, ⟨h.order.append hlt hnew, ?_, ?_⟩, hinv', hspec, hplain⟩
  · rw [← uses_snoc] at hflow
    have havailable : (fun v => g.available done v = true ∨ v = (g.operationAt i).outputValue) =
        fun v => g.available (done ++ [i]) v = true :=
      funext (fun v => propext available_append.symm)
    rw [havailable] at hflow
    refine hflow.congr ?_
    intro p
    have hsum : g.uses (done ++ [i]) (.persistent p) =
        g.uses done (.persistent p) + (g.operationAt i).inputs.count (.persistent p) :=
      congrFun (uses_snoc done i) _
    rw [hsum, ← List.count_pos_iff]
    omega
  · intro j
    rw [hspec.completed]
    by_cases hj : j = i
    · subst hj
      simp
    · rw [Function.update_of_ne hj, h.completed j]
      simp [hj]

/-- A pass whose operation fails. -/
theorem Between.pass_error (S : Supply g storageProvider ops?) {done : List Nat} {run : WaveRun β}
    (h : Between g storageProvider done run) (hinv : S.At run) {i : Nat} {rest : List Nat}
    (hnext : g.nextOperations done = i :: rest) (hallowed : AllowedAt S done i)
    {failure : WaveFailure} (hfails : semantics (g.operationAt i)
      ((g.operationAt i).inputs.map (operand g storageProvider (viewsOf run))) = .error failure) :
    ∃ run', g.pass semantics storageProvider ops? run = (.error failure, run') := by
  have hi : i ∈ g.nextOperations done := by
    rw [hnext]
    exact List.mem_cons_self
  exact TensorDependencyExecutor.pass_error S h.flow hinv (h.runnable_eq.trans hnext) (h.uses_le hi)
    (fun v hv => available_of_next hi hv) hallowed hfails

/-- No operation can run. -/
theorem Between.pass_stuck {done : List Nat} {run : WaveRun β}
    (h : Between g storageProvider done run) (hnext : g.nextOperations done = []) :
    g.pass semantics storageProvider ops? run = (.error (.adapter .invalidArgument
      "tensor dependency graph has no runnable operation"), run) := by
  unfold pass
  rw [h.runnable_eq, hnext]

/-! ### All passes -/

theorem scheduleFrom_length_le (count : Nat) (done : List Nat) :
    (g.scheduleFrom count done).length ≤ done.length + count := by
  induction count generalizing done with
  | zero => exact Nat.le_refl _
  | succ count ih =>
      rw [scheduleFrom]
      cases g.nextOperations done with
      | nil => exact Nat.le_add_right _ _
      | cons i rest =>
          have hle := ih (done ++ [i])
          rw [List.length_append, List.length_singleton] at hle
          exact hle.trans (by omega)

theorem scheduleFrom_prefix (count : Nat) (done : List Nat) :
    done <+: g.scheduleFrom count done := by
  induction count generalizing done with
  | zero => exact List.prefix_refl _
  | succ count ih =>
      rw [scheduleFrom]
      split
      · exact List.prefix_refl _
      · exact (List.prefix_append _ _).trans (ih _)

theorem scheduleFrom_nil {count : Nat} {done : List Nat} (hnext : g.nextOperations done = []) :
    g.scheduleFrom (count + 1) done = done := by
  rw [scheduleFrom, hnext]

theorem scheduleFrom_cons {count : Nat} {done : List Nat} {i : Nat} {rest : List Nat}
    (hnext : g.nextOperations done = i :: rest) :
    g.scheduleFrom (count + 1) done = g.scheduleFrom count (done ++ [i]) := by
  rw [scheduleFrom, hnext]

variable (semantics) in
/-- The passes follow the schedule: they end where it ends, or get stuck there.
`extra` is what else each pass preserves. -/
theorem Between.passes (S : Supply g storageProvider ops?) (hallowed : ∀ done i, AllowedAt S done i)
    (extra : List Nat → WaveRun β → Prop)
    (hcomputes : ∀ done run i, Between g storageProvider done run → extra done run →
      i ∈ g.nextOperations done → ∃ product, semantics (g.operationAt i)
        ((g.operationAt i).inputs.map (operand g storageProvider (viewsOf run))) = .ok product)
    (hextra : ∀ done run i product run', Between g storageProvider done run → extra done run →
      i ∈ g.nextOperations done → semantics (g.operationAt i)
        ((g.operationAt i).inputs.map (operand g storageProvider (viewsOf run))) = .ok product →
      PassSpec g (g.uses done) i product run run' → Between g storageProvider (done ++ [i]) run' →
      extra (done ++ [i]) run')
    (count : Nat) {done : List Nat} {run : WaveRun β} (h : Between g storageProvider done run)
    (hinv : S.At run) (hrun : extra done run) :
    ((g.scheduleFrom count done).length = done.length + count ∧
      ∃ run', g.passes semantics storageProvider ops? count run = (.ok (), run') ∧
        Between g storageProvider (g.scheduleFrom count done) run' ∧
        extra (g.scheduleFrom count done) run') ∨
    ((g.scheduleFrom count done).length < done.length + count ∧
      ∃ run', g.passes semantics storageProvider ops? count run = (.error (.adapter .invalidArgument
        "tensor dependency graph has no runnable operation"), run')) := by
  induction count generalizing done run with
  | zero => exact Or.inl ⟨rfl, run, rfl, h, hrun⟩
  | succ count ih =>
      cases hnext : g.nextOperations done with
      | nil =>
          rw [scheduleFrom_nil hnext]
          exact Or.inr ⟨by omega, run, by rw [TensorDependencyExecutor.passes, h.pass_stuck hnext]⟩
      | cons i rest =>
          have hi : i ∈ g.nextOperations done := by
            rw [hnext]
            exact List.mem_cons_self
          obtain ⟨product, hproduct⟩ := hcomputes done run i h hrun hi
          obtain ⟨run', hpass, hbetween, hinv', hspec, -⟩ := h.pass_ok S hinv hnext
            (hallowed done i) hproduct
          have hlength : (done ++ [i]).length + count = done.length + (count + 1) := by
            rw [List.length_append, List.length_singleton]
            omega
          rw [scheduleFrom_cons hnext, TensorDependencyExecutor.passes, hpass, ← hlength]
          exact ih hbetween hinv' (hextra done run i product run' h hrun hi hproduct hspec hbetween)

end Between

end TensorDependencyExecutor

end VBuf.Ggml
