import VBuf.Runtime.Generate

/-!
# The calls of a generation

`generate` with a selector that has a state as well, and the calls it makes.  The
callbacks can be made to write down every call with its answer; the trace that is
left determines the result.
-/

namespace VBuf.Runtime

open VBuf.Lib

/-- The callbacks of `generate`, with a selector that may have a state. -/
structure GenerationCallbacks (σ E F : Type) extends GenerationCalls σ E F where
  select : GenericTensor F → σ → Except String UInt32 × σ

/-- A call of `generate`, with its answer. -/
inductive GenerationCall (E F : Type)
  | cancelled (answer : Bool)
  | select (logits : GenericTensor F) (answer : Except String UInt32)
  | embed (tokenId : UInt32) (answer : Except String E)
  | decode (embedding : E) (position : UInt64) (answer : Except String (GenericTensor F))

namespace GenerationCallbacks

variable {σ E F : Type} (calls : GenerationCallbacks σ E F) (config : GenerationConfig)

/-- The loop of `generate` for the indices that are left. -/
def generateFrom : Nat → Nat → GenericTensor F → σ → GenerationResult → GenerationResult × σ
  | 0, _, _, s, result => (result, s)
  | left + 1, index, logits, s, result =>
      match calls.cancelled s with
      | (true, s) => ({ result with stopReason := .cancelled }, s)
      | (false, s) =>
          match calls.select logits s with
          | (.error error, s) => (result.fail error, s)
          | (.ok tokenId, s) =>
              let position := UInt64.ofNat result.allTokenIds.length
              let result := result.record index tokenId
              if config.eosTokenId = some tokenId then ({ result with stopReason := .eos }, s)
              else
                match calls.embed tokenId s with
                | (.error error, s) => (result.fail error, s)
                | (.ok embedding, s) =>
                    match calls.decode embedding position s with
                    | (.error error, s) => (result.fail error, s)
                    | (.ok logits, s) => generateFrom left (index + 1) logits s result

/-- `generate`. -/
def generate (promptTokenIds : List UInt32) (initialLogits : GenericTensor F) (s : σ) :
    GenerationResult × σ :=
  calls.generateFrom config config.maxNewTokens.toNat 0 initialLogits s
    { allTokenIds := promptTokenIds }

/-- The callbacks of a selector without a state. -/
def ofSelector (select : GenericTensor F → Except String UInt32) (calls : GenerationCalls σ E F) :
    GenerationCallbacks σ E F where
  toGenerationCalls := calls
  select := fun logits s => (select logits, s)

/-- The callbacks, which also write down their calls. -/
def logged : GenerationCallbacks (σ × List (GenerationCall E F)) E F where
  cancelled := fun s =>
    let answer := calls.cancelled s.1
    (answer.1, answer.2, s.2 ++ [.cancelled answer.1])
  select := fun logits s =>
    let answer := calls.select logits s.1
    (answer.1, answer.2, s.2 ++ [.select logits answer.1])
  embed := fun tokenId s =>
    let answer := calls.embed tokenId s.1
    (answer.1, answer.2, s.2 ++ [.embed tokenId answer.1])
  decode := fun embedding position s =>
    let answer := calls.decode embedding position s.1
    (answer.1, answer.2, s.2 ++ [.decode embedding position answer.1])

end GenerationCallbacks

/-- A selector without a state is a special one with a state. -/
theorem generateFrom_eq_callbacks {σ E F : Type} (select : GenericTensor F → Except String UInt32)
    (calls : GenerationCalls σ E F) (config : GenerationConfig) (left index : Nat)
    (logits : GenericTensor F) (s : σ) (result : GenerationResult) :
    generateFrom select calls config left index logits s result =
      (GenerationCallbacks.ofSelector select calls).generateFrom config left index logits s
        result := by
  induction left generalizing index logits s result with
  | zero => rfl
  | succ left ih =>
      rcases hcancelled : calls.cancelled s with ⟨_ | _, s₁⟩
      · cases hselect : select logits with
        | error error =>
            simp [generateFrom, GenerationCallbacks.generateFrom, GenerationCallbacks.ofSelector,
              hcancelled, hselect]
        | ok tokenId =>
            simp only [generateFrom, GenerationCallbacks.generateFrom,
              GenerationCallbacks.ofSelector, hcancelled, hselect, Bool.false_eq_true, if_false]
            split
            · rfl
            · rcases calls.embed tokenId s₁ with ⟨_ | embedding, s₂⟩
              · rfl
              · simp only
                rcases calls.decode embedding _ s₂ with ⟨_ | logits, s₃⟩
                · rfl
                · exact ih _ _ _ _
      · simp [generateFrom, GenerationCallbacks.generateFrom, GenerationCallbacks.ofSelector,
          hcancelled]

/-! ### Traces -/

section Trace

variable {σ E F : Type}

/-- A token that was selected, embedded and decoded. -/
structure GenerationRound (E F : Type) where
  tokenId : UInt32
  embedding : E
  logits : GenericTensor F

/-- The calls of rounds at consecutive positions; each selects from the logits of the
round before. -/
def roundCalls : GenericTensor F → Nat → List (GenerationRound E F) → List (GenerationCall E F)
  | _, _, [] => []
  | logits, position, round :: rest =>
      [.cancelled false, .select logits (.ok round.tokenId),
        .embed round.tokenId (.ok round.embedding),
        .decode round.embedding (UInt64.ofNat position) (.ok round.logits)] ++
        roundCalls round.logits (position + 1) rest

/-- The logits that the rounds leave. -/
def roundLogits : GenericTensor F → List (GenerationRound E F) → GenericTensor F
  | logits, [] => logits
  | _, round :: rest => roundLogits round.logits rest

/-- How a loop ends that has rounds left: its last calls, the token it still
selects, the reason and the error. -/
inductive LastCalls (config : GenerationConfig) (logits : GenericTensor F) (position : Nat) :
    Nat → List (GenerationCall E F) → List UInt32 → GenerationStopReason → Option String → Prop
  | limit : LastCalls config logits position 0 [] [] .maxNewTokens none
  | cancelled (left : Nat) :
      LastCalls config logits position (left + 1) [.cancelled true] [] .cancelled none
  | selectFailed (left : Nat) (error : String) :
      LastCalls config logits position (left + 1)
        [.cancelled false, .select logits (.error error)] [] .failed (some error)
  | eos (left : Nat) (tokenId : UInt32) (h : config.eosTokenId = some tokenId) :
      LastCalls config logits position (left + 1)
        [.cancelled false, .select logits (.ok tokenId)] [tokenId] .eos none
  | embedFailed (left : Nat) (tokenId : UInt32) (error : String)
      (h : config.eosTokenId ≠ some tokenId) :
      LastCalls config logits position (left + 1)
        [.cancelled false, .select logits (.ok tokenId), .embed tokenId (.error error)]
        [tokenId] .failed (some error)
  | decodeFailed (left : Nat) (tokenId : UInt32) (embedding : E) (error : String)
      (h : config.eosTokenId ≠ some tokenId) :
      LastCalls config logits position (left + 1)
        [.cancelled false, .select logits (.ok tokenId), .embed tokenId (.ok embedding),
          .decode embedding (UInt64.ofNat position) (.error error)]
        [tokenId] .failed (some error)

/-- The steps of tokens from an index and a position on. -/
def stepsFrom (index position : Nat) (tokens : List UInt32) : List GenerationStep :=
  tokens.mapIdx fun i tokenId => ⟨index + i, tokenId, UInt64.ofNat (position + i)⟩

theorem stepsFrom_cons (index position : Nat) (tokenId : UInt32) (tokens : List UInt32) :
    stepsFrom index position (tokenId :: tokens) =
      ⟨index, tokenId, UInt64.ofNat position⟩ :: stepsFrom (index + 1) (position + 1) tokens := by
  unfold stepsFrom
  rw [List.mapIdx_cons]
  simp only [Nat.add_zero, Nat.add_assoc, Nat.add_comm 1]

/-- A result with more tokens, and with a reason. -/
def GenerationResult.extend (result : GenerationResult) (index : Nat) (tokens : List UInt32)
    (stopReason : GenerationStopReason) (error : Option String) : GenerationResult where
  allTokenIds := result.allTokenIds ++ tokens
  generatedTokenIds := result.generatedTokenIds ++ tokens
  steps := result.steps ++ stepsFrom index result.allTokenIds.length tokens
  stopReason := stopReason
  error := error

theorem GenerationResult.record_extend (result : GenerationResult) (index : Nat)
    (tokenId : UInt32) (tokens : List UInt32) (stopReason : GenerationStopReason)
    (error : Option String) :
    (result.record index tokenId).extend (index + 1) tokens stopReason error =
      result.extend index (tokenId :: tokens) stopReason error := by
  simp [GenerationResult.record, GenerationResult.extend, stepsFrom_cons]

/-- The loop ends after some rounds, and the calls of both are written down. -/
theorem logged_generateFrom (calls : GenerationCallbacks σ E F) (config : GenerationConfig)
    (left index : Nat) (logits : GenericTensor F) (s : σ) (log : List (GenerationCall E F))
    (result : GenerationResult) (hreason : result.stopReason = .maxNewTokens)
    (herror : result.error = none) :
    ∃ (rounds : List (GenerationRound E F)) (more : Nat) (last : List (GenerationCall E F))
      (tokens : List UInt32) (reason : GenerationStopReason) (error : Option String),
      left = rounds.length + more ∧
      (∀ round ∈ rounds, config.eosTokenId ≠ some round.tokenId) ∧
      LastCalls config (roundLogits logits rounds) (result.allTokenIds.length + rounds.length)
        more last tokens reason error ∧
      calls.logged.generateFrom config left index logits (s, log) result =
        (result.extend index (rounds.map GenerationRound.tokenId ++ tokens) reason error,
          (calls.generateFrom config left index logits s result).2,
          log ++ roundCalls logits result.allTokenIds.length rounds ++ last) ∧
      (calls.generateFrom config left index logits s result).1 =
        result.extend index (rounds.map GenerationRound.tokenId ++ tokens) reason error := by
  induction left generalizing index logits s log result with
  | zero =>
      refine ⟨[], 0, [], [], .maxNewTokens, none, rfl, List.forall_mem_nil _, .limit, ?_, ?_⟩
      · simp [GenerationCallbacks.generateFrom, GenerationResult.extend, roundCalls, stepsFrom,
          ← hreason, ← herror]
      · simp [GenerationCallbacks.generateFrom, GenerationResult.extend, stepsFrom, ← hreason,
          ← herror]
  | succ left ih =>
      simp only [GenerationCallbacks.generateFrom, GenerationCallbacks.logged]
      rcases calls.cancelled s with ⟨_ | _, s⟩
      · simp only
        rcases hselect : calls.select logits s with ⟨error | tokenId, s⟩
        · refine ⟨[], left + 1, _, [], .failed, some error, by simp, List.forall_mem_nil _,
            .selectFailed left error, ?_, ?_⟩
          · simp [GenerationResult.extend, GenerationResult.fail, roundCalls, roundLogits, stepsFrom]
          · simp [GenerationResult.extend, GenerationResult.fail, stepsFrom]
        · simp only
          by_cases heos : config.eosTokenId = some tokenId
          · rw [if_pos heos, if_pos heos]
            refine ⟨[], left + 1, _, [tokenId], .eos, none, by simp, List.forall_mem_nil _,
              .eos left tokenId heos, ?_, ?_⟩
            · simp [GenerationResult.extend, GenerationResult.record, roundCalls, roundLogits, stepsFrom, herror]
            · simp [GenerationResult.extend, GenerationResult.record, stepsFrom, herror]
          · rw [if_neg heos, if_neg heos]
            rcases calls.embed tokenId s with ⟨error | embedding, s⟩
            · refine ⟨[], left + 1, _, [tokenId], .failed, some error, by simp,
                List.forall_mem_nil _, .embedFailed left tokenId error heos, ?_, ?_⟩
              · simp [GenerationResult.extend, GenerationResult.record, GenerationResult.fail,
                  roundCalls, roundLogits, stepsFrom]
              · simp [GenerationResult.extend, GenerationResult.record, GenerationResult.fail,
                  stepsFrom]
            · simp only
              rcases calls.decode embedding (UInt64.ofNat result.allTokenIds.length) s with
                ⟨error | next, s⟩
              · refine ⟨[], left + 1, _, [tokenId], .failed, some error, by simp,
                  List.forall_mem_nil _, .decodeFailed left tokenId embedding error heos, ?_, ?_⟩
                · simp [GenerationResult.extend, GenerationResult.record, GenerationResult.fail,
                    roundCalls, roundLogits, stepsFrom]
                · simp [GenerationResult.extend, GenerationResult.record, GenerationResult.fail,
                    stepsFrom]
              · simp only
                -- a whole round is over, and the loop goes on with its logits
                obtain ⟨rounds, more, last, tokens, reason, error, hleft, hrounds, hlast, hlogged,
                  hresult⟩ := ih (index + 1) next s
                    (log ++ [.cancelled false] ++ [.select logits (.ok tokenId)] ++
                      [.embed tokenId (.ok embedding)] ++
                      [.decode embedding (UInt64.ofNat result.allTokenIds.length) (.ok next)])
                    (result.record index tokenId) hreason herror
                rw [GenerationResult.record_extend] at hlogged hresult
                have hlength : (result.record index tokenId).allTokenIds.length =
                    result.allTokenIds.length + 1 := by
                  simp [GenerationResult.record]
                rw [hlength] at hlast hlogged
                refine ⟨⟨tokenId, embedding, next⟩ :: rounds, more, last, tokens, reason, error,
                  by simp; omega, List.forall_mem_cons.2 ⟨heos, hrounds⟩, ?_, ?_, hresult⟩
                · rw [List.length_cons, Nat.add_comm rounds.length 1, ← Nat.add_assoc]
                  exact hlast
                · refine hlogged.trans ?_
                  simp [roundCalls]
      · refine ⟨[], left + 1, _, [], .cancelled, none, by simp, List.forall_mem_nil _,
          .cancelled left, ?_, ?_⟩
        · simp [GenerationResult.extend, roundCalls, stepsFrom, herror]
        · simp [GenerationResult.extend, stepsFrom, herror]

/-! ### The contract -/

/-- The reason and the error of a call that ends the generation. -/
def GenerationCall.stop : GenerationCall E F → Option (GenerationStopReason × Option String)
  | .cancelled true => some (.cancelled, none)
  | .select _ (.error error) => some (.failed, some error)
  | .embed _ (.error error) => some (.failed, some error)
  | .decode _ _ (.error error) => some (.failed, some error)
  | _ => none

theorem findSome?_roundCalls (logits : GenericTensor F) (position : Nat)
    (rounds : List (GenerationRound E F)) :
    (roundCalls logits position rounds).findSome? GenerationCall.stop = none := by
  induction rounds generalizing logits position with
  | nil => rfl
  | cons round rest ih =>
      rw [roundCalls, List.findSome?_append, ih]
      rfl

/-- What the result of a generation says about its calls, and what the calls were. -/
structure GenerationContract (config : GenerationConfig) (promptTokenIds : List UInt32)
    (initialLogits : GenericTensor F) (trace : List (GenerationCall E F))
    (result : GenerationResult) : Prop where
  all : result.allTokenIds = promptTokenIds ++ result.generatedTokenIds
  bounded : result.generatedTokenIds.length ≤ config.maxNewTokens.toNat
  steps : result.steps = stepsFrom 0 promptTokenIds.length result.generatedTokenIds
  /-- Whole rounds at consecutive positions, and the calls that end the loop. -/
  calls : ∃ (rounds : List (GenerationRound E F)) (last : List (GenerationCall E F))
      (tokens : List UInt32),
    trace = roundCalls initialLogits promptTokenIds.length rounds ++ last ∧
    result.generatedTokenIds = rounds.map GenerationRound.tokenId ++ tokens ∧
    LastCalls config (roundLogits initialLogits rounds)
      (promptTokenIds.length + rounds.length) (config.maxNewTokens.toNat - rounds.length) last
      tokens result.stopReason result.error
  eos_last : ∀ before tokenId after, result.generatedTokenIds = before ++ tokenId :: after →
    config.eosTokenId = some tokenId → after = []
  eos_iff : result.stopReason = .eos ↔
    ∃ tokenId ∈ result.generatedTokenIds, config.eosTokenId = some tokenId
  limit_iff : result.stopReason = .maxNewTokens ↔
    result.generatedTokenIds.length = config.maxNewTokens.toNat ∧
      (∀ tokenId ∈ result.generatedTokenIds, config.eosTokenId ≠ some tokenId) ∧
      trace.findSome? GenerationCall.stop = none
  /-- The first call that was cancelled or failed is the last, and gives the reason. -/
  stopped : ∀ outcome, trace.findSome? GenerationCall.stop = some outcome →
    outcome = (result.stopReason, result.error) ∧
      trace.getLast?.bind GenerationCall.stop = some outcome
  finished : trace.findSome? GenerationCall.stop = none →
    (result.stopReason = .eos ∨ result.stopReason = .maxNewTokens) ∧ result.error = none

/-- The last calls of a loop that was left with a token still to select. -/
theorem LastCalls.tokens_length {config : GenerationConfig} {logits : GenericTensor F}
    {position more : Nat} {last : List (GenerationCall E F)} {tokens : List UInt32}
    {reason : GenerationStopReason} {error : Option String}
    (h : LastCalls config logits position more last tokens reason error) :
    tokens.length ≤ more ∧ tokens.length ≤ 1 := by
  cases h <;> simp

/-- Rounds without an end-of-sequence token, and the last calls, make the contract. -/
theorem GenerationContract.of_lastCalls {config : GenerationConfig}
    {promptTokenIds : List UInt32} {initialLogits : GenericTensor F}
    {rounds : List (GenerationRound E F)} {more : Nat} {last : List (GenerationCall E F)}
    {tokens : List UInt32} {reason : GenerationStopReason} {error : Option String}
    (hlength : config.maxNewTokens.toNat = rounds.length + more)
    (hrounds : ∀ round ∈ rounds, config.eosTokenId ≠ some round.tokenId)
    (hlast : LastCalls config (roundLogits initialLogits rounds)
      (promptTokenIds.length + rounds.length) more last tokens reason error) :
    GenerationContract config promptTokenIds initialLogits
      (roundCalls initialLogits promptTokenIds.length rounds ++ last)
      (({ allTokenIds := promptTokenIds } : GenerationResult).extend 0
        (rounds.map GenerationRound.tokenId ++ tokens) reason error) := by
  have hmore : config.maxNewTokens.toNat - rounds.length = more := by omega
  have hcount := hlast.tokens_length
  have hfound : (roundCalls initialLogits promptTokenIds.length rounds ++ last).findSome?
      GenerationCall.stop = last.findSome? GenerationCall.stop := by
    rw [List.findSome?_append, findSome?_roundCalls]
    rfl
  have hids : ∀ tokenId ∈ rounds.map GenerationRound.tokenId, config.eosTokenId ≠ some tokenId := by
    intro tokenId hmem
    obtain ⟨round, hround, rfl⟩ := List.mem_map.1 hmem
    exact hrounds round hround
  refine ⟨rfl, ?_, rfl, ⟨rounds, last, tokens, rfl, rfl, hmore ▸ hlast⟩, ?_, ?_, ?_, ?_, ?_⟩
  · show (rounds.map GenerationRound.tokenId ++ tokens).length ≤ _
    rw [List.length_append, List.length_map]
    omega
  · intro before tokenId after hsplit heos
    have hsplit' : rounds.map GenerationRound.tokenId ++ tokens = before ++ tokenId :: after :=
      hsplit
    -- the token is not of a round, so it is the one that the last calls select
    rcases List.append_eq_append_iff.1 hsplit' with
      ⟨between, rfl, htokens⟩ | ⟨between, hmap, htokens⟩
    · have htail := congrArg List.length htokens
      simp only [List.length_append, List.length_cons] at htail
      exact List.eq_nil_of_length_eq_zero (by omega)
    · cases between with
      | nil =>
          have htail := congrArg List.length htokens
          simp only [List.nil_append, List.length_cons] at htail
          exact List.eq_nil_of_length_eq_zero (by omega)
      | cons first between =>
          obtain ⟨rfl, -⟩ := List.cons.inj htokens
          exact absurd heos (hids tokenId (by rw [hmap]; simp))
  · show reason = .eos ↔ ∃ tokenId ∈ rounds.map GenerationRound.tokenId ++ tokens, _
    constructor
    · rintro rfl
      cases hlast with
      | eos left tokenId heos => exact ⟨tokenId, by simp, heos⟩
    · rintro ⟨tokenId, hmem, heos⟩
      rcases List.mem_append.1 hmem with hmem | hmem
      · exact absurd heos (hids tokenId hmem)
      · cases hlast with
        | eos => rfl
        | limit => cases hmem
        | cancelled => cases hmem
        | selectFailed => cases hmem
        | embedFailed left selected error hne =>
            exact absurd (List.mem_singleton.1 hmem ▸ heos) hne
        | decodeFailed left selected embedding error hne =>
            exact absurd (List.mem_singleton.1 hmem ▸ heos) hne
  · rw [hfound]
    show reason = .maxNewTokens ↔ (rounds.map GenerationRound.tokenId ++ tokens).length = _ ∧ _ ∧ _
    rw [List.length_append, List.length_map]
    constructor
    · rintro rfl
      cases hlast with
      | limit =>
          refine ⟨hlength.symm, ?_, rfl⟩
          intro tokenId hmem
          exact hids tokenId (by simpa [GenerationResult.extend] using hmem)
    · rintro ⟨hcount, hne, hstop⟩
      cases hlast with
      | limit => rfl
      | cancelled => cases hstop
      | selectFailed => cases hstop
      | eos left tokenId heos =>
          exact absurd heos (hne tokenId (by simp [GenerationResult.extend]))
      | embedFailed => cases hstop
      | decodeFailed => cases hstop
  · intro outcome houtcome
    rw [hfound] at houtcome
    rw [List.getLast?_append]
    cases hlast with
    | limit => cases houtcome
    | cancelled => exact ⟨(Option.some.inj houtcome).symm, houtcome⟩
    | selectFailed => exact ⟨(Option.some.inj houtcome).symm, houtcome⟩
    | eos => cases houtcome
    | embedFailed => exact ⟨(Option.some.inj houtcome).symm, houtcome⟩
    | decodeFailed => exact ⟨(Option.some.inj houtcome).symm, houtcome⟩
  · rw [hfound]
    intro hnone
    cases hlast with
    | limit => exact ⟨Or.inr rfl, rfl⟩
    | cancelled => cases hnone
    | selectFailed => cases hnone
    | eos => exact ⟨Or.inl rfl, rfl⟩
    | embedFailed => cases hnone
    | decodeFailed => cases hnone

/-- Every generation makes its calls in rounds, and its result is the one that they
determine. -/
theorem generate_contract (calls : GenerationCallbacks σ E F) (config : GenerationConfig)
    (promptTokenIds : List UInt32) (initialLogits : GenericTensor F) (s : σ) :
    ∃ trace, calls.logged.generate config promptTokenIds initialLogits (s, []) =
        ((calls.generate config promptTokenIds initialLogits s).1,
          (calls.generate config promptTokenIds initialLogits s).2, trace) ∧
      GenerationContract config promptTokenIds initialLogits trace
        (calls.generate config promptTokenIds initialLogits s).1 ∧
      (promptTokenIds.length + config.maxNewTokens.toNat ≤ 2 ^ 64 →
        ∀ step ∈ (calls.generate config promptTokenIds initialLogits s).1.steps,
          step.position.toNat = promptTokenIds.length + step.index) := by
  obtain ⟨rounds, more, last, tokens, reason, error, hlength, hrounds, hlast, hlogged, hresult⟩ :=
    logged_generateFrom calls config config.maxNewTokens.toNat 0 initialLogits s []
      { allTokenIds := promptTokenIds } rfl rfl
  have hcontract := GenerationContract.of_lastCalls hlength hrounds hlast
  have hplain : (calls.generate config promptTokenIds initialLogits s).1 = _ := hresult
  refine ⟨_, ?_, hplain ▸ hcontract, ?_⟩
  · rw [hplain]
    exact hlogged
  · intro hfits step hstep
    rw [hplain, hcontract.steps, stepsFrom, List.mem_mapIdx] at hstep
    obtain ⟨i, hi, rfl⟩ := hstep
    have hbound := hcontract.bounded
    have hlt : promptTokenIds.length + i < 2 ^ 64 := by omega
    show (UInt64.ofNat (promptTokenIds.length + i)).toNat = _
    rw [UInt64.toNat_ofNat_of_lt' hlt, Nat.zero_add]

end Trace

end VBuf.Runtime
