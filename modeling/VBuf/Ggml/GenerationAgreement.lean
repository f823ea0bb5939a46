import Mathlib.Algebra.Order.Ring.Rat
import Mathlib.Algebra.Field.Rat
import VBuf.Ggml.GenerationLoop

/-!
# The generation loops agree

Over one model, the session generates what `generate` of the runtime does with
the greedy selector.
-/

namespace VBuf.Ggml

open VBuf.Lib VBuf.Runtime

variable {F : Type} [Zero F] [LinearOrder F] {isFinite : F → Bool}
  {model : List UInt32 → GenericTensor F}

theorem stop_of_reachesStop {next : List UInt32 → UInt32} {stop : Option UInt32} {left : Nat}
    {fed : List UInt32} (h : reachesStop next stop left fed = true) : ∃ token, stop = some token := by
  induction left generalizing fed with
  | zero => cases h
  | succ left ih =>
      rw [reachesStop, Bool.or_eq_true, decide_eq_true_eq] at h
      exact h.elim (fun hstop => ⟨_, hstop⟩) ih

/-- Without the stop token that ends it, a generation is the continuation. -/
theorem dropLast_continuationWithStop (next : List UInt32 → UInt32) (stop : Option UInt32)
    (left : Nat) (fed : List UInt32) :
    (if reachesStop next stop left fed = true then
        (continuationWithStop next stop left fed).dropLast
      else continuationWithStop next stop left fed) = continuation next stop left fed := by
  unfold continuationWithStop
  by_cases hstop : reachesStop next stop left fed = true
  · obtain ⟨token, rfl⟩ := stop_of_reachesStop hstop
    rw [if_pos hstop, if_pos hstop, Option.toList_some, List.dropLast_concat]
  · rw [if_neg hstop, if_neg hstop, List.append_nil]

/-- The session ends completed, with the tokens of the runtime before the stop token;
it feeds the prompt and then the generated tokens, each at its position, and
announces each token once. -/
theorem generation_loops_agree (hmodel : Selectable isFinite model)
    (session : VbufGenerationSession) (config : VbufGenerationConfig)
    (callbacks : GenerationCallbacks) (hpermits : callbacks.Permits)
    (hprompt : config.promptTokens ≠ []) (hmax : config.maxNewTokens ≠ 0)
    (hblocks : config.blockCount ≠ 0 ∧ config.blockCount.toNat = session.plans.length)
    (htotal : config.promptTokens.length + config.maxNewTokens.toNat ≤ 4096) :
    let run := session.runGeneration (modelTransformer model) callbacks config []
    let generated := (generate (selectGreedy isFinite) (modelCalls model)
      ⟨config.maxNewTokens, config.stopToken⟩ config.promptTokens (model config.promptTokens)
      config.promptTokens).1
    run.1.completed = true ∧ run.1.cancelled = false ∧ run.1.error = none ∧
      run.1.tokens = (if generated.stopReason = .eos then generated.generatedTokenIds.dropLast
        else generated.generatedTokenIds) ∧
      run.1.announced = callbacks.announcements
        (numbered (config.promptTokens.length - 1) run.1.tokens) ∧
      run.2 = numbered 0 (config.promptTokens ++
        fedTail (decide (generated.stopReason = .eos)) run.1.tokens) := by
  intro run generated
  obtain ⟨first, rest, hfirst⟩ := List.exists_cons_of_ne_nil hprompt
  have hpos : 0 < config.maxNewTokens.toNat :=
    Nat.pos_of_ne_zero (fun hzero => hmax (UInt32.toNat_inj.1 hzero))
  -- The prompt is fed first, and the decode positions follow.
  have htotalSteps : config.promptTokens.length + config.maxNewTokens.toNat =
      rest.length + (config.maxNewTokens.toNat + 1) := by
    rw [hfirst, List.length_cons]
    omega
  obtain ⟨positions, before, last, hsplit, hprefill⟩ := @generationLoop_prefill F _ _ model callbacks
    config hpermits rest.length (config.maxNewTokens.toNat + 1) [] rest first {} hfirst rfl
  have hlength : config.promptTokens.length = before.length + 1 := by
    rw [hsplit, List.length_append, List.length_singleton]
  have hdecode := @generationLoop_decode F _ _ model callbacks config hpermits
    config.maxNewTokens.toNat 1 before last { completedPositions := positions } (by omega) hpos
    (Nat.zero_add _)
  simp only [← hsplit, ← hprefill] at hdecode
  obtain ⟨hcompleted, hcancelled, herror, htokens, hannounced, hfed⟩ := hdecode
  rw [List.nil_append] at htokens hannounced
  have hrun : run = ((generationLoop (modelTransformer model) callbacks config
      (rest.length + (config.maxNewTokens.toNat + 1)) ([] : List UInt32).length first (numbered 0 [])
        {}).1.finish,
      (generationLoop (modelTransformer model) callbacks config
        (rest.length + (config.maxNewTokens.toNat + 1)) ([] : List UInt32).length first
          (numbered 0 []) {}).2) := by
    show session.runGeneration (modelTransformer model) callbacks config [] = _
    unfold VbufGenerationSession.runGeneration
    rw [hfirst]
    simp only
    rw [if_neg (by rw [not_or]; exact ⟨hblocks.1, hmax⟩), if_neg (not_not.2 hblocks.2),
      ← hfirst, if_neg (Nat.not_lt.2 htotal), htotalSteps]
    rfl
  have hfinish : ∀ result : VbufGenerationResult, result.completed = true →
      result.finish = result := by
    intro result hresult
    unfold VbufGenerationResult.finish
    rw [if_neg (by rw [hresult]; simp)]
  rw [hfinish _ hcompleted] at hrun
  -- The runtime generates the same continuation.
  obtain ⟨hgenerated, hreason⟩ := @generateFrom_eq F _ _ isFinite model hmodel
    ⟨config.maxNewTokens, config.stopToken⟩ config.maxNewTokens.toNat 0 config.promptTokens
    { allTokenIds := config.promptTokens } rfl
  rw [List.nil_append] at hgenerated
  have heos : generated.stopReason = .eos ↔ reachesStop (nextToken model) config.stopToken
      config.maxNewTokens.toNat config.promptTokens = true := by
    have hsame : generated.stopReason = _ := hreason
    rw [hsame]
    split
    next hreaches => exact iff_of_true rfl hreaches
    next hreaches => exact iff_of_false GenerationStopReason.noConfusion hreaches
  have hgenerated' : generated.generatedTokenIds = continuationWithStop (nextToken model)
      config.stopToken config.maxNewTokens.toNat config.promptTokens := hgenerated
  have hstopped : decide (generated.stopReason = .eos) = reachesStop (nextToken model)
      config.stopToken config.maxNewTokens.toNat config.promptTokens := by
    rw [Bool.eq_iff_iff, decide_eq_true_eq]
    exact heos
  rw [hrun]
  refine ⟨hcompleted, hcancelled, herror, ?_, ?_, ?_⟩
  · rw [hgenerated', if_congr heos rfl rfl, dropLast_continuationWithStop]
    exact htokens
  · simp only
    rw [hannounced, htokens, hlength, Nat.add_sub_cancel]
  · simp only
    rw [hstopped, htokens]
    exact hfed

/-- A model over three tokens that counts what it was fed, modulo three. -/
def exampleModel (fed : List UInt32) : GenericTensor ℚ :=
  ⟨[1, 3], (List.range 3).map (fun token => if token = fed.length % 3 then 1 else 0)⟩

theorem exampleModel_selectable : Selectable (fun _ => true) exampleModel := by
  refine ⟨?_, ?_, ?_⟩
  · intro fed
    exact ⟨3, rfl⟩
  · intro fed
    exact ⟨3, rfl, by decide, by decide, Nat.le_refl 3⟩
  · intro fed
    exact List.all_eq_true.2 (fun _ _ => rfl)

def exampleConfig : VbufGenerationConfig := ⟨1, 4, [5, 6], some 1⟩

/-- Tokens 2 and 0 are generated, and the stop token 1 ends the generation. -/
theorem generation_loops_agree_stop_token :
    let session : VbufGenerationSession := ⟨[], [⟨[], 0, 10000⟩]⟩
    let run := session.runGeneration (modelTransformer exampleModel) {} exampleConfig []
    run.1.tokens = [2, 0] ∧ run.2 = [(5, 0), (6, 1), (2, 2), (0, 3)] := by
  intro session run
  have hpermits : GenerationCallbacks.Permits {} := by
    constructor
    · intro cancel hnone
      cases hnone
    · intro onToken hnone
      cases hnone
  obtain ⟨-, -, -, htokens, -, hfed⟩ := generation_loops_agree exampleModel_selectable session
    exampleConfig {} hpermits (by decide) (by decide) (by decide) (by decide)
  have hvalue : run.1.tokens = [2, 0] := htokens.trans (by decide +kernel)
  refine ⟨hvalue, hfed.trans ?_⟩
  rw [hvalue]
  decide +kernel

end VBuf.Ggml
