import VBuf.Ggml.PortableExecutor
import VBuf.Runtime.ChunkedAttention

/-!
# Failed executions of a portable graph

An attention operation commits its append when it is carried out, and nothing
takes it back.  So a failed execution leaves the state exactly when no attention
operation was carried out before the failure.
-/

namespace VBuf.Ggml

open VBuf.Lib VBuf.Runtime

variable {F : Type} [Field F] [LinearOrder F] (math : ExactMath F) (env : PortableEnvironment F)
  (graphOutput : UInt32)

/-- An attention operation is carried out. -/
def CompletesAttention : Nat → List (Option (VbufGraphOperationDescV2 F)) → PortableExecution F →
    Prop
  | _, [], _ => False
  | index, operation :: rest, s => ∃ after,
      executeOperation math env graphOutput index operation s = (.ok (), after) ∧
        ((∃ desc, operation = some desc ∧ desc.kind = 6) ∨
          CompletesAttention (index + 1) rest after)

/-- The number of positions that the state has stored. -/
def storedPositions (s : PortableExecution F) : Nat :=
  match s.state with
  | none => 0
  | some state => state.length.toNat

variable {math} {env} {graphOutput}

/-- A commit stores at least one position. -/
theorem length_lt_of_attentionResult {desc : VbufAttentionDesc F}
    {inputs : List (PortableActivation F)} {state after : VbufPortableExecutionState F}
    {output : PortableActivation F}
    (h : attentionResult math desc inputs state = .ok (output, after)) :
    state.length.toNat < after.length.toNat := by
  unfold attentionResult at h
  rw [bind_eq_ok_iff] at h
  obtain ⟨_, hdesc, h⟩ := h
  simp only [checkDescriptor, bind_eq_ok_iff, rejectIf_eq_ok_iff] at hdesc
  obtain ⟨_, -, _, -, _, hgeometry, _, -, _, hroom, -⟩ := hdesc
  simp only [not_or, UInt64.not_lt] at hgeometry hroom
  have hafter : after.length = state.length + desc.queryLength := by
    split at h
    next query key value =>
        rw [bind_eq_ok_iff] at h
        obtain ⟨-, -, h⟩ := h
        rw [bind_eq_ok_iff] at h
        obtain ⟨values, -, h⟩ := h
        simp only [Except.ok.injEq, Prod.mk.injEq] at h
        rw [← h.2]
        rfl
    next => cases h
  have hquery : desc.queryLength.toNat ≠ 0 := fun hzero =>
    hgeometry.2.2.2.2.1 (UInt64.toNat_inj.1 hzero)
  have hle := UInt64.le_iff_toNat_le.1 hroom.1
  have hfits := UInt64.le_iff_toNat_le.1 hroom.2
  rw [UInt64.toNat_sub_of_le _ _ hroom.1] at hfits
  have hcapacity := state.capacity.toNat_lt
  rw [hafter, UInt64.toNat_add]
  omega

/-- A rejected attention leaves the state, and an accepted one stores positions. -/
theorem runAttention_state (desc : VbufAttentionDesc F) (inputs : List (PortableActivation F))
    (state : Option (VbufPortableExecutionState F)) :
    (∃ error, runAttention math desc inputs state = (.error error, state)) ∨
      ∃ before after output, state = some before ∧
        runAttention math desc inputs state = (.ok output, some after) ∧
        before.length.toNat < after.length.toNat := by
  cases state with
  | none => exact Or.inl ⟨_, rfl⟩
  | some state =>
      unfold runAttention
      simp only
      cases hresult : attentionResult math desc inputs state with
      | error error => exact Or.inl ⟨error, rfl⟩
      | ok result =>
          exact Or.inr ⟨state, result.2, result.1, rfl, rfl, length_lt_of_attentionResult hresult⟩

/-- The other operations leave the state. -/
theorem valueOperation_state {index : Nat} {operation : VbufGraphOperationDescV2 F}
    {value : PortableActivation F} {s after : PortableExecution F}
    (h : valueOperation math env graphOutput index operation value s = .ok after) :
    after.state = s.state := by
  unfold valueOperation at h
  split at h
  · simp only [bind_eq_ok_iff] at h
    obtain ⟨-, -, -, -, output, -, h⟩ := h
    split at h
    · exact Except.ok.inj h ▸ rfl
    · exact Except.ok.inj h ▸ rfl
  · split at h
    · simp only [bind_eq_ok_iff] at h
      obtain ⟨output, -, h⟩ := h
      exact Except.ok.inj h ▸ rfl
    · split at h
      · split at h
        · split at h
          · simp only [bind_eq_ok_iff] at h
            obtain ⟨output, -, h⟩ := h
            exact Except.ok.inj h ▸ rfl
          · cases h
        · cases h
      · split at h
        · split at h
          · cases h
          · simp only [bind_eq_ok_iff] at h
            obtain ⟨selection, -, h⟩ := h
            exact Except.ok.inj h ▸ rfl
        · cases h

/-- What one operation does to the state. -/
theorem executeOperation_state (math : ExactMath F) (env : PortableEnvironment F)
    (graphOutput : UInt32) (index : Nat) (operation : Option (VbufGraphOperationDescV2 F))
    (s : PortableExecution F) :
    let result := executeOperation math env graphOutput index operation s
    (∃ error, result.1 = .error error) ∧ result.2.state = s.state ∨
      result.1 = .ok () ∧ (¬ ∃ desc, operation = some desc ∧ desc.kind = 6) ∧
        result.2.state = s.state ∨
      result.1 = .ok () ∧ (∃ desc, operation = some desc ∧ desc.kind = 6) ∧
        storedPositions s < storedPositions result.2 := by
  intro result
  cases operation with
  | none => exact Or.inl ⟨⟨_, rfl⟩, rfl⟩
  | some operation =>
      by_cases hkind : operation.kind = 6
      · have hresult : result = attentionOperation math env index operation s := if_pos hkind
        rw [hresult]
        unfold attentionOperation
        cases attentionOperands env index operation s.values with
        | error error => exact Or.inl ⟨⟨error, rfl⟩, rfl⟩
        | ok inputs =>
            rcases @runAttention_state F _ _ math operation.attention inputs s.state with
              ⟨error, hrun⟩ | ⟨before, after, output, hstate, hrun, hlt⟩
            · simp only
              rw [hrun]
              exact Or.inl ⟨⟨error, rfl⟩, rfl⟩
            · simp only
              rw [hrun]
              refine Or.inr (Or.inr ⟨rfl, ⟨operation, rfl, hkind⟩, ?_⟩)
              unfold storedPositions
              rw [hstate]
              exact hlt
      · have hnot : ¬ ∃ desc, some operation = some desc ∧ desc.kind = 6 := by
          intro hsome
          obtain ⟨desc, heq, hdesc⟩ := hsome
          exact hkind (Option.some.inj heq ▸ hdesc)
        have hresult : result = executeOperation math env graphOutput index (some operation) s := rfl
        rw [hresult]
        unfold executeOperation
        simp only [if_neg hkind]
        cases findValue operation with
        | error error => exact Or.inl ⟨⟨error, rfl⟩, rfl⟩
        | ok valueId =>
            simp only
            cases s.values.lookup valueId with
            | none => exact Or.inl ⟨⟨_, rfl⟩, rfl⟩
            | some value =>
                simp only
                cases hvalue : valueOperation math env graphOutput index operation value s with
                | error error => exact Or.inl ⟨⟨error, rfl⟩, rfl⟩
                | ok after => exact Or.inr (Or.inl ⟨rfl, hnot, valueOperation_state hvalue⟩)

/-- In a run, the state is as before, or positions were stored by an attention that
was carried out. -/
theorem executeOperations_state (operations : List (Option (VbufGraphOperationDescV2 F)))
    (index : Nat) (s : PortableExecution F) :
    let result := executeOperations math env graphOutput index operations s
    ¬ CompletesAttention math env graphOutput index operations s ∧ result.2.state = s.state ∨
      CompletesAttention math env graphOutput index operations s ∧
        storedPositions s < storedPositions result.2 := by
  induction operations generalizing index s with
  | nil =>
      refine Or.inl ⟨id, ?_⟩
      unfold executeOperations
      split
      · rfl
      · rfl
  | cons operation rest ih =>
      intro result
      have hresult : result = executeOperations math env graphOutput index (operation :: rest) s :=
        rfl
      rw [hresult]
      unfold executeOperations CompletesAttention
      have hstep := executeOperation_state math env graphOutput index operation s
      cases hexecute : executeOperation math env graphOutput index operation s with
      | mk outcome after =>
          rw [hexecute] at hstep
          simp only at hstep
          cases outcome with
          | error error =>
              refine Or.inl ⟨?_, ?_⟩
              · intro hcompletes
                obtain ⟨other, heq, -⟩ := hcompletes
                cases heq
              · rcases hstep with ⟨-, hstate⟩ | ⟨hok, -⟩ | ⟨hok, -⟩
                · exact hstate
                · cases hok
                · cases hok
          | ok u =>
              have hlater := ih (index + 1) after
              -- The step either leaves the state or is an attention that is carried out.
              rcases hstep with ⟨⟨error, herror⟩, -⟩ | ⟨-, hother, hstate⟩ | ⟨-, hattention, hlt⟩
              · cases herror
              · have hsame : storedPositions after = storedPositions s := by
                  unfold storedPositions
                  rw [hstate]
                rcases hlater with ⟨hnot, hlater⟩ | ⟨hcompletes, hlater⟩
                · refine Or.inl ⟨?_, hlater.trans hstate⟩
                  intro hcompletes
                  obtain ⟨other, heq, hcases⟩ := hcompletes
                  cases heq
                  exact hcases.elim hother hnot
                · rw [hsame] at hlater
                  exact Or.inr ⟨⟨after, rfl, Or.inr hcompletes⟩, hlater⟩
              · refine Or.inr ⟨⟨after, rfl, Or.inl hattention⟩, ?_⟩
                rcases hlater with ⟨-, hlater⟩ | ⟨-, hlater⟩
                · have hsame : storedPositions (executeOperations math env graphOutput (index + 1)
                      rest after).2 = storedPositions after := by
                    unfold storedPositions
                    rw [hlater]
                  simp only
                  omega
                · simp only
                  omega

/-- An execution, failed or not, leaves the state exactly when no attention operation
was carried out; then a retry is a first attempt. -/
theorem execution_leaves_state_iff (math : ExactMath F) (env : PortableEnvironment F)
    (graph : VbufRuntimeGraphHandle F) (input : PortableActivation F)
    (state : Option (VbufPortableExecutionState F)) :
    let after := (executePortableGraphWithState math env graph input state).2.state
    (after = state ∧ ∀ retry : PortableEnvironment F,
      executePortableGraphWithState math retry graph input after =
        executePortableGraphWithState math retry graph input state) ↔
      ¬ CompletesAttention math env graph.output 0 graph.operations (graph.start input state) := by
  intro after
  have hrun := @executeOperations_state F _ _ math env graph.output graph.operations 0
    (graph.start input state)
  rcases hrun with ⟨hnot, hstate⟩ | ⟨hcompletes, hlt⟩
  · have hafter : after = state := hstate
    refine iff_of_true ⟨hafter, ?_⟩ hnot
    intro retry
    rw [hafter]
  · refine iff_of_false ?_ (not_not.2 hcompletes)
    intro hintact
    have hsame : storedPositions (executePortableGraphWithState math env graph input state).2 =
        storedPositions (graph.start input state) := by
      unfold storedPositions
      rw [show (executePortableGraphWithState math env graph input state).2.state =
        (graph.start input state).state from hintact.1]
    have hlt' : storedPositions (graph.start input state) <
        storedPositions (executePortableGraphWithState math env graph input state).2 := hlt
    omega

/-- Attention over the input, then a matrix product. -/
def exampleAttentionGraph : VbufRuntimeGraphHandle ℚ where
  input := 0
  output := 2
  operations :=
    [some ⟨6, [⟨0, 0⟩, ⟨0, 0⟩, ⟨0, 0⟩], 1, 0, 0, 0, 0, 0, 0, 0, 0, 0, ⟨1, 1, 1, 1, 1, 1, 1, 1, 1, 5⟩⟩,
      some ⟨2, [⟨0, 1⟩, ⟨1, 9⟩], 2, 0, 2, 1, 0, 0, 0, 0, 0, 0, ⟨0, 0, 0, 0, 0, 0, 0, 0, 0, 0⟩⟩]

/-- The resolver has the weight, or not; the backend gives back its input. -/
def exampleEnvironment (available : Bool) : PortableEnvironment ℚ where
  resolver := fun _ _ id =>
    if available then .ok ⟨9, "w", ⟨0, [1, 1], [0, 0, 128, 63], 4⟩, 0⟩
    else .error ("tensor " ++ toString id.toNat ++ " is not resident")
  backend := fun _ _ input _ => .ok input
  floats := fun _ => [1]

/-- A resolver that fails once: the append stays, and the retry is refused where a
first attempt succeeds. -/
theorem failed_execution_keeps_append :
    let empty : VbufPortableExecutionState ℚ := ⟨5, 4, 0, 0, 0, 0, [], []⟩
    let input : PortableActivation ℚ := ⟨[1], [1, 1, 1, 1]⟩
    let math := SequenceGeometry.exampleMath
    let failed := executePortableGraphWithState math (exampleEnvironment false)
      exampleAttentionGraph input (some empty)
    failed.1 = .error "tensor 9 is not resident" ∧
      failed.2.state = some ⟨5, 4, 1, 1, 1, 1, [1], [1]⟩ ∧
      (executePortableGraphWithState math (exampleEnvironment true) exampleAttentionGraph input
        failed.2.state).1 = .error "attention state length is inconsistent" ∧
      (executePortableGraphWithState math (exampleEnvironment true) exampleAttentionGraph input
        (some empty)).1 = .ok () := by
  decide +kernel

end VBuf.Ggml
