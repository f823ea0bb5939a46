import VBuf.Ggml.OnDemand

/-!
# Runs with the local materializer

An on-demand run follows the preloaded run of the same graph pass by pass, up to
the first operation whose weights do not fit.
-/

namespace VBuf.Ggml

open VBuf.Lib

namespace TensorDependencyExecutor

variable {g : TensorDependencyExecutor} {storageProvider : TensorWaveStorageProvider}

/-! ### Validated graphs -/

/-- The checks cover the persistent references. -/
theorem persistentsLt_of_validate (h : g.validate = .ok ()) : PersistentsLt g := by
  intro operation hoperation p hp
  unfold validate at h
  by_cases hcontract : g.inputValue = unsetValue ∨ g.externalOutput = unsetValue ∨ g.operations = []
  · rw [if_pos hcontract] at h
    exact Except.noConfusion rfl rfl (heq_of_eq h)
  by_cases hvalues : g.inputValue ≥ g.values.length ∨ g.externalOutput ≥ g.values.length
  · rw [if_neg hcontract, if_pos hvalues] at h
    exact Except.noConfusion rfl rfl (heq_of_eq h)
  rw [if_neg hcontract, if_neg hvalues] at h
  have hvalid : (g.operations.forM g.validateOperation >>= fun _ =>
      (List.range g.persistent.length).forM g.validatePersistent) = .ok () := h
  have hoperations : g.operations.forM g.validateOperation = .ok () := by
    cases hall : g.operations.forM g.validateOperation with
    | error failure =>
        rw [hall] at hvalid
        cases hvalid
    | ok _ => rfl
  have hoperation' := forM_eq_ok_iff.1 hoperations operation hoperation
  unfold validateOperation at hoperation'
  by_cases houtput : operation.outputValue ≥ g.values.length
  · rw [if_pos houtput] at hoperation'
    exact Except.noConfusion rfl rfl (heq_of_eq hoperation')
  rw [if_neg houtput] at hoperation'
  have hinputs : operation.inputs.forM g.validateInput = .ok () := hoperation'
  have hinput : (if p ≥ g.persistent.length then
      invalid "operation references an unknown persistent tensor" else .ok ()) = .ok () :=
    forM_eq_ok_iff.1 hinputs _ hp
  by_contra hge
  rw [if_pos (Nat.le_of_not_lt hge)] at hinput
  cases hinput

/-! ### Passes -/

section Passes

variable {β : Type}

theorem Flow.withoutMaterializer {u : TensorWaveRef → Nat} {acquired available : Nat → Prop}
    {run : WaveRun β} (h : Flow g storageProvider u acquired available run) :
    Flow g storageProvider u acquired available (plain run) :=
  ⟨h.remaining_persistent, h.remaining_value, h.resident_isSome, h.resident_eq, h.weight,
    h.value_available, h.value_kept⟩

theorem Between.withoutMaterializer {done : List Nat} {run : WaveRun β}
    (h : Between g storageProvider done run) : Between g storageProvider done (plain run) :=
  ⟨h.order, h.flow.withoutMaterializer, h.completed⟩

/-- A preloaded pass that succeeds computed a product. -/
theorem Between.product_of_pass {semantics : OperationSemantics} {done : List Nat}
    {run : WaveRun β} (h : Between g storageProvider done run) {i : Nat} {rest : List Nat}
    (hnext : g.nextOperations done = i :: rest) {after : WaveRun Unit}
    (hpass : g.pass semantics storageProvider none (plain run) = (.ok (), after)) :
    ∃ product, semantics (g.operationAt i)
      ((g.operationAt i).inputs.map (operand g storageProvider (viewsOf run))) = .ok product := by
  cases hproduct : semantics (g.operationAt i)
      ((g.operationAt i).inputs.map (operand g storageProvider (viewsOf run))) with
  | ok product => exact ⟨product, rfl⟩
  | error failure =>
      obtain ⟨run', hfails⟩ := h.withoutMaterializer.pass_error (preloaded g storageProvider) trivial hnext
        (allowedAt_preloaded done i) hproduct
      rw [hfails] at hpass
      cases congrArg Prod.fst hpass

/-- The first operation after `done` in a schedule that goes on from there. -/
theorem eq_of_schedule_split {count : Nat} {done before : List Nat} {i j : Nat}
    {after : List Nat} (heq : g.scheduleFrom count (done ++ [i]) = before ++ j :: after)
    (hlength : done.length = before.length) : before = done ∧ j = i := by
  obtain ⟨tail, htail⟩ := scheduleFrom_prefix (g := g) count (done ++ [i])
  rw [heq, List.append_assoc, List.singleton_append] at htail
  obtain ⟨hdone, hrest⟩ := List.append_inj htail hlength
  exact ⟨hdone.symm, (List.cons.inj hrest).1.symm⟩

variable {read : RangeReader} {fallbackSource : Option RangeReader} {finishing : Nat → List Nat}

/-- An on-demand pass whose weights do not all fit. -/
theorem Between.pass_refused (semantics : OperationSemantics) {done : List Nat}
    {run : WaveRun LocalVbufRangeMaterializer} (h : Between g storageProvider done run)
    (hinv : (onDemand g storageProvider read fallbackSource finishing).At run)
    (hrefs : PersistentsLt g) {i : Nat} {rest : List Nat}
    (hnext : g.nextOperations done = i :: rest)
    (hdelivers : ∀ p, .persistent p ∈ (g.operationAt i).inputs → Delivers g storageProvider read p)
    (hfits : ¬ g.WeightsFitAt done i) :
    ∃ failure run', g.pass semantics storageProvider
      (some (LocalVbufRangeMaterializer.waveMaterializer (some read) fallbackSource finishing)) run =
        (.error failure, run') := by
  have hi : i ∈ g.nextOperations done := by
    rw [hnext]
    exact List.mem_cons_self
  unfold WeightsFitAt at hfits
  push Not at hfits
  obtain ⟨earlier, p, later, hinputs, hunused, hnew, hfull⟩ := hfits
  obtain ⟨failure, run', hacquire⟩ := acquireInputs_refused
    (g.operationAt i) (g.operationAt i).inputs {} h.flow hinv
    (fun q hq => by
      have hcount : 0 < (g.operationAt i).inputs.count (.persistent q) := List.count_pos_iff.2 hq
      have hle := h.uses_le hi (.persistent q)
      omega)
    hdelivers
    ⟨earlier, p, later, hinputs, by omega, hnew, fun run hflow hle => by
      rw [hflow.weight, hflow.heldBytes_eq hrefs] at hle
      exact hfull hle⟩
  refine ⟨failure, run', ?_⟩
  unfold pass
  rw [h.runnable_eq, hnext]
  simp only [hacquire]

variable (fallbackSource finishing) in
/-- Passes with the local materializer, beside the preloaded passes. -/
theorem Between.onDemand_passes {semantics : OperationSemantics} (hrefs : PersistentsLt g)
    (hsource : g.Holds read storageProvider) (count : Nat) {done : List Nat}
    {run : WaveRun LocalVbufRangeMaterializer} (h : Between g storageProvider done run)
    (hinv : (onDemand g storageProvider read fallbackSource finishing).At run)
    {final : WaveRun Unit}
    (hpreloaded : g.passes (withRankCheck semantics) storageProvider none count (plain run) =
      (.ok (), final)) :
    ((∀ before i after, g.scheduleFrom count done = before ++ i :: after →
        done.length ≤ before.length → g.WeightsFitAt before i) ∧
      ∃ run', g.passes (withRankCheck semantics) storageProvider
          (some (LocalVbufRangeMaterializer.waveMaterializer (some read) fallbackSource finishing))
          count run = (.ok (), run') ∧ plain run' = final ∧
        (onDemand g storageProvider read fallbackSource finishing).At run') ∨
    ((∃ before i after, g.scheduleFrom count done = before ++ i :: after ∧
        ¬ g.WeightsFitAt before i) ∧
      ∃ failure run', g.passes (withRankCheck semantics) storageProvider
          (some (LocalVbufRangeMaterializer.waveMaterializer (some read) fallbackSource finishing))
          count run = (.error failure, run')) := by
  induction count generalizing done run with
  | zero =>
      refine Or.inl ⟨?_, run, rfl, (Prod.mk.inj hpreloaded).2, hinv⟩
      intro before i after heq hlength
      have hsum := congrArg List.length heq
      simp only [scheduleFrom, List.length_append, List.length_cons] at hsum
      omega
  | succ count ih =>
      cases hnext : g.nextOperations done with
      | nil =>
          rw [TensorDependencyExecutor.passes, h.withoutMaterializer.pass_stuck hnext] at hpreloaded
          cases congrArg Prod.fst hpreloaded
      | cons i rest =>
          have hi : i ∈ g.nextOperations done := by
            rw [hnext]
            exact List.mem_cons_self
          rw [scheduleFrom_cons hnext]
          rw [TensorDependencyExecutor.passes] at hpreloaded ⊢
          have hpassed : ∃ after, g.pass (withRankCheck semantics) storageProvider none (plain run) =
              (.ok (), after) := by
            cases hpass : g.pass (withRankCheck semantics) storageProvider none (plain run) with
            | mk result after =>
                cases result with
                | ok _ => exact ⟨after, rfl⟩
                | error failure =>
                    rw [hpass] at hpreloaded
                    cases congrArg Prod.fst hpreloaded
          obtain ⟨after, hpass⟩ := hpassed
          obtain ⟨product, hproduct⟩ := h.product_of_pass hnext hpass
          have hdelivers : ∀ p, .persistent p ∈ (g.operationAt i).inputs →
              Delivers g storageProvider read p := by
            intro p hp
            have hlt := (mem_nextOperations.1 hi).1
            refine ⟨hsource p (hrefs _ (operationAt_mem hlt) p hp), ?_⟩
            exact dimensions_le_of_ok hproduct (List.mem_map.2 ⟨_, hp, rfl⟩)
          by_cases hfits : g.WeightsFitAt done i
          · obtain ⟨run', hrun, hbetween, hinv', -, hplain⟩ := h.pass_ok
              (onDemand g storageProvider read fallbackSource finishing) hinv hnext
              (hfits.allowed hrefs hdelivers) hproduct
            rw [hplain] at hpreloaded
            rw [hrun]
            rcases ih hbetween hinv' hpreloaded with ⟨hall, hpasses⟩ | ⟨hnot, hpasses⟩
            · refine Or.inl ⟨?_, hpasses⟩
              intro before j tail heq hlength
              rcases Nat.eq_or_lt_of_le hlength with hsame | hlonger
              · obtain ⟨rfl, rfl⟩ := eq_of_schedule_split heq hsame
                exact hfits
              · exact hall before j tail heq (by rw [List.length_append]; exact hlonger)
            · exact Or.inr ⟨hnot, hpasses⟩
          · obtain ⟨failure, run', hrun⟩ := h.pass_refused (withRankCheck semantics) hinv
              hrefs hnext hdelivers hfits
            refine Or.inr ⟨?_, failure, run', ?_⟩
            · obtain ⟨tail, htail⟩ := scheduleFrom_prefix (g := g) count (done ++ [i])
              exact ⟨done, i, tail, by rw [← htail, List.append_assoc, List.singleton_append], hfits⟩
            · rw [hrun]

end Passes

/-! ### Whole executions -/

theorem complete_plain {β : Type} (run : WaveRun β) :
    (complete run).1 = (complete (plain run)).1 := by
  unfold complete
  simp only [apply_ite Prod.fst]
  rfl

theorem complete_output {β : Type} (run : WaveRun β) :
    (complete run).2.output = run.output ∧ (complete run).2.outputShape = run.outputShape ∧
      (complete run).2.materializerLeases = run.materializerLeases ∧
      (complete run).2.materializer = run.materializer := by
  unfold complete
  simp only [apply_ite Prod.snd, ite_self]
  exact ⟨trivial, trivial, trivial, trivial⟩

/-- A run that completes has nothing resident. -/
theorem resident_of_complete {β : Type} {run : WaveRun β} (h : (complete run).1 = .ok ()) :
    run.resident.keys = [] := by
  unfold complete at h
  simp only [apply_ite Prod.fst] at h
  by_contra hkeys
  rw [if_pos (Or.inl (by rw [decide_eq_false hkeys, Bool.false_and]))] at h
  cases h

/-- On-demand execution does what preloaded execution does, and leaves nothing in
the materializer, exactly when the weights of the graph fit. -/
theorem onDemand_agrees_iff (g : TensorDependencyExecutor) (semantics : OperationSemantics)
    (storageProvider : TensorWaveStorageProvider) (input : TensorView) (read : RangeReader)
    (fallbackSource : Option RangeReader) (finishing : Nat → List Nat)
    (hsource : g.Holds read storageProvider)
    (hpreloaded : (g.execute (withRankCheck semantics) storageProvider none input ()).result =
      .ok ()) :
    Agrees (g.execute (withRankCheck semantics) storageProvider none input ())
      (g.execute (withRankCheck semantics) storageProvider
        (some (LocalVbufRangeMaterializer.waveMaterializer (some read) fallbackSource finishing))
        input LocalVbufRangeMaterializer.fresh) ↔ g.WeightsFit := by
  have hvalid : g.validate = .ok () := by
    cases hvalidate : g.validate with
    | ok _ => rfl
    | error failure =>
        unfold execute at hpreloaded
        rw [hvalidate] at hpreloaded
        cases hpreloaded
  have hrefs := persistentsLt_of_validate hvalid
  have hexecute : ∀ {β : Type} (ops? : Option (WaveMaterializer β)) (m : β),
      g.execute (withRankCheck semantics) storageProvider ops? input m =
      ⟨(g.executeRun (withRankCheck semantics) storageProvider ops? input m).1,
        (g.executeRun (withRankCheck semantics) storageProvider ops? input m).2.output,
        (g.executeRun (withRankCheck semantics) storageProvider ops? input m).2.outputShape,
        (g.executeRun (withRankCheck semantics) storageProvider ops? input m).2.report,
        cleanup ops? (g.executeRun (withRankCheck semantics) storageProvider ops? input m).2⟩ := by
    intro β ops? m
    unfold execute
    rw [hvalid]
  rw [hexecute] at hpreloaded
  obtain ⟨final, hfinal, hcomplete⟩ : ∃ final, g.passes (withRankCheck semantics) storageProvider
      none g.operations.length (g.initialRun input ()) = (.ok (), final) ∧
      (complete final).1 = .ok () := by
    unfold executeRun at hpreloaded
    cases hpasses : g.passes (withRankCheck semantics) storageProvider none g.operations.length
        (g.initialRun input ()) with
    | mk result final =>
        rw [hpasses] at hpreloaded
        cases result with
        | error failure => cases hpreloaded
        | ok _ => exact ⟨final, rfl, hpreloaded⟩
  have hdone : g.executeRun (withRankCheck semantics) storageProvider none input () =
      complete final := by
    unfold executeRun
    rw [hfinal]
  rw [hexecute, hexecute, hdone]
  have hstart : Between g storageProvider []
      (g.initialRun input LocalVbufRangeMaterializer.fresh) := between_initial input _
  rcases hstart.onDemand_passes fallbackSource finishing hrefs hsource g.operations.length
    LocalInv.fresh hfinal with
    ⟨hfit, run, hrun, hplain, hinv⟩ | ⟨⟨before, i, after, heq, hfull⟩, failure, run, hrun⟩
  · have hsame : g.executeRun (withRankCheck semantics) storageProvider
        (some (LocalVbufRangeMaterializer.waveMaterializer (some read) fallbackSource finishing))
        input LocalVbufRangeMaterializer.fresh = complete run := by
      unfold executeRun
      rw [hrun]
    rw [hsame]
    have hresult : (complete run).1 = (complete final).1 := by rw [complete_plain, hplain]
    obtain ⟨houtput, hshape, hleases, hmaterializer⟩ := complete_output run
    obtain ⟨houtput', hshape', -, -⟩ := complete_output final
    have hkeys := resident_of_complete (hresult.trans hcomplete)
    have hlocal : LocalInv g storageProvider run.resident run.materializerLeases
        run.materializer := hinv
    have hempty : run.resident = ∅ := by
      apply AList.ext
      exact List.map_eq_nil_iff.1 hkeys
    have hnoLeases : run.materializerLeases = [] := by
      rw [List.eq_nil_iff_forall_not_mem]
      intro p hp
      rw [hlocal.leased p, hempty] at hp
      simp at hp
    have hcleanup : cleanup
        (some (LocalVbufRangeMaterializer.waveMaterializer (some read) fallbackSource finishing))
        (complete run).2 = run.materializer := by
      unfold cleanup
      rw [hleases, hnoLeases, hmaterializer]
      rfl
    constructor
    · intro _ before i after heq
      exact hfit before i after heq (Nat.zero_le _)
    · intro _
      refine ⟨hresult, ?_, ?_, ?_, ?_⟩
      · show (complete run).2.output = (complete final).2.output
        rw [houtput, houtput', ← hplain]
        rfl
      · show (complete run).2.outputShape = (complete final).2.outputShape
        rw [hshape, hshape', ← hplain]
        rfl
      · rw [hcleanup]
        exact hlocal.idle
      · rw [hcleanup, hlocal.bytes, hempty]
        rfl
  · constructor
    · intro hagrees
      have hresult := hagrees.result
      unfold executeRun at hresult
      rw [hrun] at hresult
      have hfails : Except.error failure = (complete final).1 := hresult
      rw [hcomplete] at hfails
      cases hfails
    · intro hfits
      exact absurd (hfits before i after heq) hfull

/-- With one weight nothing else is ever held. -/
theorem onDemand_agrees_exampleGraph : exampleGraph.WeightsFit := by
  refine (onDemand_agrees_iff exampleGraph
    (fun _ operands => .ok ⟨operands.flatMap (·.bytes), [1, 1]⟩) (fun view => view.payload)
    ⟨0, [1, 1], [2, 0, 0, 0], 4⟩ (fun _ _ => some [3, 0, 0, 0]) none (fun call => [call]) ?_ ?_).1 ?_
  · intro p hp
    obtain rfl : p = 0 := Nat.lt_one_iff.1 hp
    rfl
  · decide
  · exact ⟨by decide, by decide, by decide, by decide, by decide⟩

/-- The first weight is used again after the second. -/
def sharedWeightGraph : TensorDependencyExecutor where
  inputValue := 0
  externalOutput := 3
  persistent := [⟨7, "shared", ⟨0, [1, 1], [3, 0, 0, 0], 4⟩, 0⟩,
    ⟨8, "other", ⟨0, [1, 1], [5, 0, 0, 0], 4⟩, 4⟩]
  values := ["input", "first", "second", "output"]
  operations :=
    [⟨"first", .mulMat, [.persistent 0, .value 0], 1, 0⟩,
      ⟨"second", .mulMat, [.persistent 1, .value 1], 2, 0⟩,
      ⟨"third", .mulMat, [.persistent 0, .value 2], 3, 0⟩]

/-- The request of the second weight counts the first one against its own length. -/
theorem onDemand_fails_sharedWeightGraph :
    ¬ ∀ (g : TensorDependencyExecutor) (semantics : OperationSemantics)
      (storageProvider : TensorWaveStorageProvider) (input : TensorView) (read : RangeReader)
      (finishing : Nat → List Nat), g.Holds read storageProvider →
      (g.execute (withRankCheck semantics) storageProvider none input ()).result = .ok () →
      Agrees (g.execute (withRankCheck semantics) storageProvider none input ())
        (g.execute (withRankCheck semantics) storageProvider
          (some (LocalVbufRangeMaterializer.waveMaterializer (some read) none finishing))
          input LocalVbufRangeMaterializer.fresh) := by
  intro h
  have hagrees := h sharedWeightGraph
    (fun _ operands => .ok ⟨(operands.flatMap (·.bytes)).take 4, [1, 1]⟩) (fun view => view.payload)
    ⟨0, [1, 1], [2, 0, 0, 0], 4⟩
    (fun offset _ => some [if offset = 0 then 3 else 5, 0, 0, 0]) (fun _ => [])
    (by
      intro p hp
      have hcases : p = 0 ∨ p = 1 := by
        have hlt : p < 2 := hp
        omega
      rcases hcases with rfl | rfl
      · rfl
      · rfl)
    (by decide)
  have hresult := hagrees.result
  revert hresult
  decide

end TensorDependencyExecutor

end VBuf.Ggml
