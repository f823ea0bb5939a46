import VBuf.Ggml.GenerationSession
import VBuf.Runtime.Generate

/-!
# The generation loop of a session

`VbufGenerationSession::run` over a transformer that is a parameter: it is fed one
token at a position, and gives logits after it.  Source, residency, trace and
timing are left out.
-/

namespace VBuf.Ggml

open VBuf.Lib VBuf.Runtime

/-- The transformer of a session, over its key and value slots `σ`. -/
structure Transformer (σ F : Type) where
  feed : UInt32 → UInt32 → σ → Except String σ
  logits : UInt32 → σ → Except String (List F)

/-- `on_token` and `should_cancel`, where they are set. -/
structure GenerationCallbacks where
  onToken : Option (UInt32 → UInt32 → Bool) := none
  shouldCancel : Option (Nat → Bool) := none

/-- `VbufGenerationResult`, with the calls of `on_token`. -/
structure VbufGenerationResult where
  completed : Bool := false
  cancelled : Bool := false
  error : Option String := none
  tokens : List UInt32 := []
  completedPositions : Nat := 0
  announced : List (UInt32 × UInt32) := []
  deriving DecidableEq, Repr

section Loop

variable {σ F : Type}

/-- `greedy`: the first of the greatest logits, as `std::max_element` finds it. -/
def greedy [Zero F] [LinearOrder F] (logits : List F) : UInt32 :=
  UInt32.ofNat ((List.range' 1 (logits.length - 1)).foldl
    (fun largest index => if logits.getD largest 0 < logits.getD index 0 then index else largest) 0)

/-- A token joins the result, which keeps the last ones. -/
def VbufGenerationResult.push (result : VbufGenerationResult) (maxNewTokens : UInt32)
    (token : UInt32) : VbufGenerationResult :=
  let tokens := result.tokens ++ [token]
  { result with tokens := if tokens.length > maxNewTokens.toNat then tokens.drop 1 else tokens }

/-- `on_token` is called, where it is set, and can refuse. -/
def VbufGenerationResult.announce (result : VbufGenerationResult) (callbacks : GenerationCallbacks)
    (token position : UInt32) : Bool × VbufGenerationResult :=
  match callbacks.onToken with
  | none => (true, result)
  | some onToken =>
      (onToken token position, { result with announced := result.announced ++ [(token, position)] })

variable [Zero F] [LinearOrder F] (transformer : Transformer σ F) (callbacks : GenerationCallbacks)
  (config : VbufGenerationConfig)

/-- The loop of `run` over the positions that are left. -/
def generationLoop : Nat → Nat → UInt32 → σ → VbufGenerationResult → VbufGenerationResult × σ
  | 0, _, _, s, result => (result, s)
  | left + 1, position, inputToken, s, result =>
      if (callbacks.shouldCancel.map (fun cancel => cancel position)).getD false = true then
        ({ result with cancelled := true }, s)
      else
        match transformer.feed inputToken (UInt32.ofNat position) s with
        | .error error => ({ result with error := some error }, s)
        | .ok s =>
            match config.promptTokens[position + 1]? with
            | some promptToken =>
                generationLoop left (position + 1) promptToken s
                  { result with completedPositions := result.completedPositions + 1 }
            | none =>
                match transformer.logits (UInt32.ofNat position) s with
                | .error error => ({ result with error := some error }, s)
                | .ok logits =>
                    let token := greedy logits
                    if config.stopToken = some token then ({ result with completed := true }, s)
                    else
                      let (accepted, result) := (result.push config.maxNewTokens token).announce
                        callbacks token (UInt32.ofNat position)
                      if accepted = false then ({ result with cancelled := true }, s)
                      else if result.tokens.length = config.maxNewTokens.toNat then
                        ({ result with
                          completed := true
                          completedPositions := result.completedPositions + 1 }, s)
                      else
                        generationLoop left (position + 1) token s
                          { result with completedPositions := result.completedPositions + 1 }

/-- After the loop: a generation that was neither completed nor cancelled is an error. -/
def VbufGenerationResult.finish (result : VbufGenerationResult) : VbufGenerationResult :=
  if result.error = none ∧ result.cancelled = false ∧ result.completed = false then
    { result with error := some "generation ended before the requested token bound" }
  else result

/-- `VbufGenerationSession::run`, with the state that the transformer is left in. -/
def VbufGenerationSession.runGeneration (session : VbufGenerationSession) (s : σ) :
    VbufGenerationResult × σ :=
  match config.promptTokens with
  | [] => ({ error := some "prompt tokenization produced no tokens" }, s)
  | first :: _ =>
      if config.blockCount = 0 ∨ config.maxNewTokens = 0 then
        ({ error := some "generation bounds must be positive" }, s)
      else if config.blockCount.toNat ≠ session.plans.length then
        ({ error := some "generation block count differs from prepared session" }, s)
      else
        let totalPositions := config.promptTokens.length + config.maxNewTokens.toNat
        if totalPositions > 4096 then
          ({ error := some "generation request exceeds bounded position limit" }, s)
        else
          let (result, s) := generationLoop transformer callbacks config totalPositions 0 first s {}
          (result.finish, s)

end Loop

/-! ### An abstract model -/

section Model

variable {F : Type} [Zero F] [LinearOrder F] (model : List UInt32 → GenericTensor F)

/-- A transformer that keeps what it was fed, each token with its position. -/
def modelTransformer : Transformer (List (UInt32 × UInt32)) F where
  feed := fun token position fed => .ok (fed ++ [(token, position)])
  logits := fun _ fed => .ok (lastRow (model (fed.map Prod.fst)))

/-- Tokens at the positions from `start` on. -/
def numbered (start : Nat) : List UInt32 → List (UInt32 × UInt32)
  | [] => []
  | token :: rest => (token, UInt32.ofNat start) :: numbered (start + 1) rest

@[simp] theorem map_fst_numbered (start : Nat) (tokens : List UInt32) :
    (numbered start tokens).map Prod.fst = tokens := by
  induction tokens generalizing start with
  | nil => rfl
  | cons token rest ih => rw [numbered, List.map_cons, ih]

theorem numbered_append (start : Nat) (tokens rest : List UInt32) :
    numbered start (tokens ++ rest) = numbered start tokens ++ numbered (start + tokens.length) rest := by
  induction tokens generalizing start with
  | nil => rfl
  | cons token tokens ih =>
      rw [List.cons_append, numbered, numbered, ih, List.cons_append, List.length_cons]
      congr 3
      omega

theorem numbered_concat (start : Nat) (tokens : List UInt32) (token : UInt32) :
    numbered start tokens ++ [(token, UInt32.ofNat (start + tokens.length))] =
      numbered start (tokens ++ [token]) := by
  rw [numbered_append]
  rfl

/-- The two ways to find the greatest logit agree. -/
theorem greedy_eq_argmax (logits : List F) : greedy logits = UInt32.ofNat (argmax logits) := by
  unfold greedy argmax
  congr 1
  cases logits with
  | nil => rfl
  | cons first rest =>
      rw [List.length_cons, Nat.add_sub_cancel, List.range_eq_range', List.range'_succ,
        List.foldl_cons, if_neg (lt_irrefl _)]

variable {model}

theorem greedy_model (fed : List (UInt32 × UInt32)) :
    greedy (lastRow (model (fed.map Prod.fst))) = nextToken model (fed.map Prod.fst) :=
  greedy_eq_argmax _

/-- The callbacks neither cancel nor refuse. -/
structure GenerationCallbacks.Permits (callbacks : GenerationCallbacks) : Prop where
  cancel : ∀ cancel, callbacks.shouldCancel = some cancel → ∀ position, cancel position = false
  token : ∀ onToken, callbacks.onToken = some onToken → ∀ token position,
    onToken token position = true

variable {callbacks : GenerationCallbacks} {config : VbufGenerationConfig}

theorem GenerationCallbacks.Permits.not_cancelled (h : callbacks.Permits) (position : Nat) :
    (callbacks.shouldCancel.map (fun cancel => cancel position)).getD false = false := by
  cases hcancel : callbacks.shouldCancel with
  | none => rfl
  | some cancel => exact h.cancel cancel hcancel position

/-- What is announced of some tokens: each one, where `on_token` is set. -/
def GenerationCallbacks.announcements (callbacks : GenerationCallbacks)
    (tokens : List (UInt32 × UInt32)) : List (UInt32 × UInt32) :=
  if callbacks.onToken.isSome = true then tokens else []

theorem GenerationCallbacks.Permits.announce_eq (h : callbacks.Permits)
    (result : VbufGenerationResult) (token position : UInt32) :
    result.announce callbacks token position = (true, { result with
      announced := result.announced ++ callbacks.announcements [(token, position)] }) := by
  unfold VbufGenerationResult.announce GenerationCallbacks.announcements
  cases honToken : callbacks.onToken with
  | none => simp
  | some onToken => simp [h.token onToken honToken]

theorem GenerationCallbacks.announcements_cons (callbacks : GenerationCallbacks)
    (token : UInt32 × UInt32) (rest : List (UInt32 × UInt32)) :
    callbacks.announcements [token] ++ callbacks.announcements rest =
      callbacks.announcements (token :: rest) := by
  unfold GenerationCallbacks.announcements
  split
  · rfl
  · rfl

/-- What is fed of the tokens that follow: all but the last, unless the stop token
comes after it. -/
def fedTail (stopped : Bool) (tokens : List UInt32) : List UInt32 :=
  if stopped = true then tokens else tokens.dropLast

theorem fedTail_cons {stopped : Bool} {token : UInt32} {rest : List UInt32}
    (h : stopped = true ∨ rest ≠ []) : fedTail stopped (token :: rest) = token :: fedTail stopped rest := by
  unfold fedTail
  split
  · rfl
  next hstopped =>
      rcases h with h | h
      · exact absurd h hstopped
      · rw [List.dropLast_cons_of_ne_nil h]

/-- The decode positions: the loop generates the continuation of what was fed. -/
theorem generationLoop_decode (hpermits : callbacks.Permits) (remaining extra : Nat)
    {fed : List UInt32} {inputToken : UInt32} (result : VbufGenerationResult)
    (hprompt : config.promptTokens.length ≤ fed.length + 1)
    (hremaining : 0 < remaining)
    (hmax : result.tokens.length + remaining = config.maxNewTokens.toNat) :
    let after := fed ++ [inputToken]
    let tokens := continuation (nextToken model) config.stopToken remaining after
    let stopped := reachesStop (nextToken model) config.stopToken remaining after
    let final := generationLoop (modelTransformer model) callbacks config (remaining + extra)
      fed.length inputToken (numbered 0 fed) result
    final.1.completed = true ∧ final.1.cancelled = result.cancelled ∧
      final.1.error = result.error ∧ final.1.tokens = result.tokens ++ tokens ∧
      final.1.announced = result.announced ++
        callbacks.announcements (numbered fed.length tokens) ∧
      final.2 = numbered 0 (after ++ fedTail stopped tokens) := by
  induction remaining generalizing fed inputToken result with
  | zero => exact absurd hremaining (Nat.lt_irrefl 0)
  | succ remaining ih =>
      intro after tokens stopped final
      have hprompt' : config.promptTokens[fed.length + 1]? = none := List.getElem?_eq_none hprompt
      have hfed : numbered 0 fed ++ [(inputToken, UInt32.ofNat fed.length)] = numbered 0 after := by
        have hconcat := numbered_concat 0 fed inputToken
        rw [Nat.zero_add] at hconcat
        exact hconcat
      have hnext : greedy (lastRow (model ((numbered 0 after).map Prod.fst))) =
          nextToken model after := by
        rw [greedy_model, map_fst_numbered]
      -- One turn of the loop, with the token it selects.
      have hturn : final = if config.stopToken = some (nextToken model after) then
          ({ result with completed := true }, numbered 0 after)
          else
            let result := ((result.push config.maxNewTokens (nextToken model after)).announce
              callbacks (nextToken model after) (UInt32.ofNat fed.length)).2
            if result.tokens.length = config.maxNewTokens.toNat then
              ({ result with
                completed := true
                completedPositions := result.completedPositions + 1 }, numbered 0 after)
            else
              generationLoop (modelTransformer model) callbacks config (remaining + extra)
                (fed.length + 1) (nextToken model after) (numbered 0 after)
                { result with completedPositions := result.completedPositions + 1 } := by
        show generationLoop (modelTransformer model) callbacks config (remaining + 1 + extra)
          fed.length inputToken (numbered 0 fed) result = _
        rw [Nat.add_right_comm, generationLoop]
        simp only [hpermits.not_cancelled, Bool.false_eq_true, if_false, modelTransformer, hprompt',
          hfed, hnext, hpermits.announce_eq, Bool.true_eq_false]
      have htokens : tokens = if config.stopToken = some (nextToken model after) then [] else
          nextToken model after :: continuation (nextToken model) config.stopToken remaining
            (after ++ [nextToken model after]) := rfl
      have hstopped : stopped = (decide (config.stopToken = some (nextToken model after)) ||
          reachesStop (nextToken model) config.stopToken remaining
            (after ++ [nextToken model after])) := rfl
      rw [hturn, htokens, hstopped]
      by_cases hstop : config.stopToken = some (nextToken model after)
      · rw [if_pos hstop, if_pos hstop]
        refine ⟨rfl, rfl, rfl, (List.append_nil _).symm, ?_, ?_⟩
        · show result.announced = result.announced ++ callbacks.announcements []
          unfold GenerationCallbacks.announcements
          simp
        · simp [fedTail]
      · rw [if_neg hstop, if_neg hstop]
        have hpush : result.push config.maxNewTokens (nextToken model after) =
            { result with tokens := result.tokens ++ [nextToken model after] } := by
          unfold VbufGenerationResult.push
          simp only
          rw [if_neg (by rw [List.length_append, List.length_singleton]; omega)]
        rw [hpush, hpermits.announce_eq]
        simp only [List.length_append, List.length_singleton, hstop, decide_false, Bool.false_or]
        by_cases hlast : remaining = 0
        · subst hlast
          rw [if_pos (by omega)]
          refine ⟨rfl, rfl, rfl, rfl, rfl, ?_⟩
          show numbered 0 after = numbered 0 (after ++ [])
          rw [List.append_nil]
        · rw [if_neg (by omega)]
          have hlater := @ih after (nextToken model after)
            { result with
              tokens := result.tokens ++ [nextToken model after]
              announced := result.announced ++ callbacks.announcements
                [(nextToken model after, UInt32.ofNat fed.length)]
              completedPositions := result.completedPositions + 1 }
            (by rw [List.length_append, List.length_singleton]; omega) (Nat.pos_of_ne_zero hlast)
            (by simp only [List.length_append, List.length_singleton]; omega)
          have hafter : after.length = fed.length + 1 := by
            rw [List.length_append, List.length_singleton]
          rw [hafter] at hlater
          obtain ⟨hcompleted, hcancelled, herror, htokens', hannounced, hfinal⟩ := hlater
          refine ⟨hcompleted, hcancelled, herror, ?_, ?_, ?_⟩
          · rw [htokens', List.append_assoc]
            rfl
          · rw [hannounced, List.append_assoc]
            simp only [numbered]
            rw [callbacks.announcements_cons]
          · rw [hfinal, List.append_assoc, List.singleton_append, fedTail_cons]
            by_cases hlater : reachesStop (nextToken model) config.stopToken remaining
                (after ++ [nextToken model after]) = true
            · exact Or.inl hlater
            · right
              intro hnil
              have hlength := @length_continuation (nextToken model) config.stopToken remaining
                (after ++ [nextToken model after]) (Bool.not_eq_true _ ▸ hlater)
              rw [hnil] at hlength
              exact hlast hlength.symm

/-- The prompt positions: the loop feeds the prompt. -/
theorem generationLoop_prefill (hpermits : callbacks.Permits) (steps left : Nat)
    {fed rest : List UInt32} {inputToken : UInt32} (result : VbufGenerationResult)
    (hprompt : config.promptTokens = fed ++ inputToken :: rest) (hrest : rest.length = steps) :
    ∃ positions : Nat, ∃ before last,
      config.promptTokens = before ++ [last] ∧
      generationLoop (modelTransformer model) callbacks config (steps + left) fed.length inputToken
        (numbered 0 fed) result =
      generationLoop (modelTransformer model) callbacks config left before.length last
        (numbered 0 before) { result with completedPositions := positions } := by
  induction steps generalizing fed rest inputToken result with
  | zero =>
      have hnil : rest = [] := List.eq_nil_of_length_eq_zero hrest
      subst hnil
      exact ⟨result.completedPositions, fed, inputToken, hprompt, by rw [Nat.zero_add]⟩
  | succ steps ih =>
      obtain ⟨nextInput, later, rfl⟩ : ∃ nextInput later, rest = nextInput :: later :=
        List.exists_cons_of_ne_nil (fun hnil => by rw [hnil] at hrest; cases hrest)
      have hget : config.promptTokens[fed.length + 1]? = some nextInput := by
        rw [hprompt, List.getElem?_append_right (Nat.le_succ _)]
        simp
      have hfed : numbered 0 fed ++ [(inputToken, UInt32.ofNat fed.length)] =
          numbered 0 (fed ++ [inputToken]) := by
        have hconcat := numbered_concat 0 fed inputToken
        rw [Nat.zero_add] at hconcat
        exact hconcat
      obtain ⟨positions, before, last, hsplit, hloop⟩ := @ih (fed ++ [inputToken]) later nextInput
        { result with completedPositions := result.completedPositions + 1 }
        (by rw [hprompt]; simp) (by simpa using hrest)
      refine ⟨positions, before, last, hsplit, ?_⟩
      rw [← hloop, Nat.add_right_comm, generationLoop]
      simp only [hpermits.not_cancelled, Bool.false_eq_true, if_false, modelTransformer, hget, hfed,
        List.length_append, List.length_singleton]

end Model

end VBuf.Ggml
