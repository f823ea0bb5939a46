import VBuf.Runtime.Generic

/-!
# Generation of the runtime

`GreedyArgmaxSelector` and `generate`.  The embedding is opaque to the loop, so
its type is a parameter; the three closures share a state.
-/

namespace VBuf.Runtime

open VBuf.Lib

/-! ### Selection -/

section Selection

variable {F : Type} [Zero F] [LinearOrder F] (isFinite : F → Bool)

/-- The last row of the logits. -/
def lastRow (logits : GenericTensor F) : List F :=
  match logits.dimensions.getLast? with
  | none => []
  | some vocabulary => logits.values.drop (logits.values.length - vocabulary.toNat)

/-- The first index of a greatest value. -/
def argmax (row : List F) : Nat :=
  (List.range row.length).foldl
    (fun best index => if row.getD index 0 > row.getD best 0 then index else best) 0

/-- `GreedyArgmaxSelector::select`. -/
def selectGreedy (logits : GenericTensor F) : Except String UInt32 := do
  let _ ← logits.elements
  match logits.dimensions.getLast? with
  | none => .error "logits rank is invalid"
  | some vocabulary =>
      rejectIf (vocabulary = 0) "logits vocabulary is empty"
      rejectIf (logits.values.length < vocabulary.toNat) "logits row is empty"
      let row := logits.values.drop (logits.values.length - vocabulary.toNat)
      rejectIf (row.all isFinite = false) "logits contain a non-finite value"
      if argmax row < 2 ^ 32 then .ok (UInt32.ofNat (argmax row))
      else .error "selected token ID exceeds u32"

end Selection

/-! ### Generation -/

inductive GenerationStopReason
  | maxNewTokens
  | eos
  | cancelled
  | failed
  deriving DecidableEq, Repr

structure GenerationConfig where
  maxNewTokens : UInt32
  eosTokenId : Option UInt32
  deriving DecidableEq, Repr

structure GenerationStep where
  index : Nat
  tokenId : UInt32
  position : UInt64
  deriving DecidableEq, Repr

structure GenerationResult where
  allTokenIds : List UInt32
  generatedTokenIds : List UInt32 := []
  steps : List GenerationStep := []
  stopReason : GenerationStopReason := .maxNewTokens
  error : Option String := none
  deriving DecidableEq, Repr

/-- The closures of `generate`, over the state `σ` they share. -/
structure GenerationCalls (σ E F : Type) where
  embed : UInt32 → σ → Except String E × σ
  decode : E → UInt64 → σ → Except String (GenericTensor F) × σ
  cancelled : σ → Bool × σ

section Generate

variable {σ E F : Type} (select : GenericTensor F → Except String UInt32)
  (calls : GenerationCalls σ E F) (config : GenerationConfig)

def GenerationResult.fail (result : GenerationResult) (error : String) : GenerationResult :=
  { result with stopReason := .failed, error := some error }

/-- A selected token is recorded. -/
def GenerationResult.record (result : GenerationResult) (index : Nat) (tokenId : UInt32) :
    GenerationResult :=
  { result with
    allTokenIds := result.allTokenIds ++ [tokenId]
    generatedTokenIds := result.generatedTokenIds ++ [tokenId]
    steps := result.steps ++ [⟨index, tokenId, UInt64.ofNat result.allTokenIds.length⟩] }

/-- The loop of `generate` for the indices that are left. -/
def generateFrom : Nat → Nat → GenericTensor F → σ → GenerationResult → GenerationResult × σ
  | 0, _, _, s, result => (result, s)
  | left + 1, index, logits, s, result =>
      let (cancelled, s) := calls.cancelled s
      if cancelled = true then ({ result with stopReason := .cancelled }, s)
      else
        match select logits with
        | .error error => (result.fail error, s)
        | .ok tokenId =>
            let position := UInt64.ofNat result.allTokenIds.length
            let result := result.record index tokenId
            if config.eosTokenId = some tokenId then ({ result with stopReason := .eos }, s)
            else
              match calls.embed tokenId s with
              | (.error error, s) => (result.fail error, s)
              | (.ok embedding, s) =>
                  match calls.decode embedding position s with
                  | (.error error, s) => (result.fail error, s)
                  | (.ok logits, s) => generateFrom left (index + 1) logits s result

/-- `generate`. -/
def generate (promptTokenIds : List UInt32) (initialLogits : GenericTensor F) (s : σ) :
    GenerationResult × σ :=
  generateFrom select calls config config.maxNewTokens.toNat 0 initialLogits s
    { allTokenIds := promptTokenIds }

end Generate

/-! ### Greedy continuations -/

section Continuation

variable (next : List UInt32 → UInt32) (stop : Option UInt32)

/-- The tokens that follow what was fed, up to the stop token. -/
def continuation : Nat → List UInt32 → List UInt32
  | 0, _ => []
  | left + 1, fed =>
      if stop = some (next fed) then []
      else next fed :: continuation left (fed ++ [next fed])

/-- The stop token is among the tokens that follow. -/
def reachesStop : Nat → List UInt32 → Bool
  | 0, _ => false
  | left + 1, fed => stop = some (next fed) || reachesStop left (fed ++ [next fed])

/-- A continuation with the stop token that ends it. -/
def continuationWithStop (left : Nat) (fed : List UInt32) : List UInt32 :=
  continuation next stop left fed ++
    if reachesStop next stop left fed = true then stop.toList else []

variable {next} {stop}

theorem continuationWithStop_succ (left : Nat) (fed : List UInt32) :
    continuationWithStop next stop (left + 1) fed =
      next fed :: if stop = some (next fed) then []
        else continuationWithStop next stop left (fed ++ [next fed]) := by
  unfold continuationWithStop
  rw [continuation, reachesStop]
  by_cases hstop : stop = some (next fed)
  · rw [if_pos hstop, if_pos hstop]
    simp [hstop]
  · rw [if_neg hstop, if_neg hstop]
    simp [hstop]

theorem length_continuation (left : Nat) (fed : List UInt32)
    (h : reachesStop next stop left fed = false) :
    (continuation next stop left fed).length = left := by
  induction left generalizing fed with
  | zero => rfl
  | succ left ih =>
      rw [reachesStop, Bool.or_eq_false_iff, decide_eq_false_iff_not] at h
      rw [continuation, if_neg h.1, List.length_cons, ih _ h.2]

end Continuation

/-! ### An abstract model -/

section Model

variable {F : Type} [Zero F] [LinearOrder F] (isFinite : F → Bool)
  (model : List UInt32 → GenericTensor F)

/-- The logits of a model can be selected from, whatever was fed. -/
structure Selectable : Prop where
  elements : ∀ fed, ∃ n, (model fed).elements = .ok n
  vocabulary : ∀ fed, ∃ n, (model fed).dimensions.getLast? = some n ∧ n ≠ 0 ∧
    n.toNat ≤ 2 ^ 32 ∧ n.toNat ≤ (model fed).values.length
  finite : ∀ fed, (lastRow (model fed)).all isFinite = true

/-- The token that a model selects after what was fed. -/
def nextToken (fed : List UInt32) : UInt32 := UInt32.ofNat (argmax (lastRow (model fed)))

/-- The calls of a model that keeps the tokens it was fed. -/
def modelCalls : GenerationCalls (List UInt32) UInt32 F where
  embed := fun tokenId fed => (.ok tokenId, fed)
  decode := fun tokenId _ fed => (.ok (model (fed ++ [tokenId])), fed ++ [tokenId])
  cancelled := fun fed => (false, fed)

variable {isFinite} {model}

theorem argmax_lt (row : List F) (h : row ≠ []) : argmax row < row.length := by
  have hpos : 0 < row.length := List.length_pos_of_ne_nil h
  have hfold : ∀ (indices : List Nat) (best : Nat), best < row.length →
      (∀ i ∈ indices, i < row.length) →
      indices.foldl (fun best index => if row.getD index 0 > row.getD best 0 then index else best)
        best < row.length := by
    intro indices
    induction indices with
    | nil => exact fun best hbest _ => hbest
    | cons index rest ih =>
        intro best hbest hmem
        rw [List.foldl_cons]
        apply ih
        · split
          · exact hmem index List.mem_cons_self
          · exact hbest
        · exact fun i hi => hmem i (List.mem_cons_of_mem index hi)
  exact hfold _ 0 hpos (fun i hi => List.mem_range.1 hi)

omit [Zero F] [LinearOrder F] in
theorem Selectable.row_length (h : Selectable isFinite model) (fed : List UInt32) :
    lastRow (model fed) ≠ [] ∧ (lastRow (model fed)).length ≤ 2 ^ 32 := by
  obtain ⟨vocabulary, hlast, hne, hle, hvalues⟩ := h.vocabulary fed
  have hpos : 0 < vocabulary.toNat := toNat_pos_of_ne hne
  have hlength : (lastRow (model fed)).length = vocabulary.toNat := by
    rw [lastRow, hlast, List.length_drop]
    omega
  refine ⟨?_, by omega⟩
  intro hnil
  rw [hnil] at hlength
  exact absurd hlength (by simp; omega)

theorem Selectable.select_eq (h : Selectable isFinite model) (fed : List UInt32) :
    selectGreedy isFinite (model fed) = .ok (nextToken model fed) := by
  obtain ⟨vocabulary, hlast, hne, hle, hvalues⟩ := h.vocabulary fed
  obtain ⟨n, helements⟩ := h.elements fed
  have hfinite := h.finite fed
  obtain ⟨hrow, hlength⟩ := h.row_length fed
  have hlt := Nat.lt_of_lt_of_le (argmax_lt _ hrow) hlength
  have hrowEq : lastRow (model fed) =
      (model fed).values.drop ((model fed).values.length - vocabulary.toNat) := by
    rw [lastRow, hlast]
  rw [hrowEq] at hfinite hlt
  unfold selectGreedy nextToken
  rw [helements, hrowEq]
  simp only [bind, Except.bind, hlast, rejectIf, if_neg hne, if_neg (Nat.not_lt.2 hvalues), hfinite,
    Bool.true_eq_false, if_false, if_pos hlt]

/-- The loop generates the continuation, with its stop token. -/
theorem generateFrom_eq (h : Selectable isFinite model) (config : GenerationConfig) (left index : Nat)
    (fed : List UInt32) (result : GenerationResult) (hreason : result.stopReason = .maxNewTokens) :
    let final := (generateFrom (selectGreedy isFinite) (modelCalls model) config left index
      (model fed) fed result).1
    final.generatedTokenIds = result.generatedTokenIds ++
        continuationWithStop (nextToken model) config.eosTokenId left fed ∧
      (final.stopReason = if reachesStop (nextToken model) config.eosTokenId left fed = true
        then .eos else .maxNewTokens) := by
  induction left generalizing index fed result with
  | zero =>
      refine ⟨?_, hreason⟩
      show result.generatedTokenIds = result.generatedTokenIds ++ []
      rw [List.append_nil]
  | succ left ih =>
      simp only [generateFrom, modelCalls, Bool.false_eq_true, if_false, h.select_eq fed]
      rw [continuationWithStop_succ, reachesStop]
      by_cases hstop : config.eosTokenId = some (nextToken model fed)
      · rw [if_pos hstop]
        simp only [hstop, decide_true, Bool.true_or, if_true]
        exact ⟨rfl, trivial⟩
      · rw [if_neg hstop, if_neg hstop]
        simp only [hstop, decide_false, Bool.false_or]
        obtain ⟨htokens, hfinal⟩ := ih (index + 1) (fed ++ [nextToken model fed])
          (result.record index (nextToken model fed)) hreason
        refine ⟨htokens.trans ?_, hfinal⟩
        show result.generatedTokenIds ++ [_] ++ _ = _
        rw [List.append_assoc]
        rfl

end Model

end VBuf.Runtime
