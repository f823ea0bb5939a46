import VBuf.Runtime.ChunkedAttention
import VBuf.Runtime.KernelSafety

/-!
# Runs of the executor that do not panic

`execute_generic_graph` over the checked kernels.  A run does not end the program when in
each step the operands fit the kernel of the operation; an error leaves the state as it was.
-/

namespace VBuf.Runtime.Checked

open VBuf.Lib VBuf.Lib.Outcome

section Executor

variable {F : Type} [Field F] [LinearOrder F] (math : ExactMath F)
  (angle : RotaryAttributes F → Nat → Nat → F × F)
  (provider : UInt32 → Except String (GenericTensor F))
  (selection : Option (GenericTopKSelection F))

/-- The operations that read values and tensors only. -/
def operationOutput (operation : Operation F) (values : AssocMap UInt32 (GenericTensor F)) :
    Outcome (GenericTensor F) :=
  let value := fun index => ofExcept (valueInput operation values index)
  let tensor := fun index => ofExcept (tensorInput operation index provider)
  match operation.kind with
  | .rmsNorm => do
      let input ← value 0
      let weight ← tensor 1
      let epsilon ← ofExcept (okOr operation.attributes.epsilon "RMSNorm epsilon missing")
      rmsNorm math input weight epsilon
  | .matMul | .quantizedMatMul => do
      let input ← value 0
      let weight ← tensor 1
      matmul input weight
  | .biasAdd => do
      let input ← value 0
      let bias ← tensor 1
      biasAdd input bias
  | .activation => do
      let input ← value 0
      let kind ← ofExcept (okOr operation.attributes.activation "activation kind missing")
      .ok ⟨input.dimensions, input.values.map (activate math kind)⟩
  | .reshapeHeads => do
      let attrs ← ofExcept (okOr operation.attributes.headReshape
        "head reshape attributes missing")
      let input ← value 0
      ofExcept (reshapeHeads input attrs)
  | .rotary => do
      let input ← value 0
      let attrs ← ofExcept (okOr operation.attributes.rotary "rotary attributes missing")
      rotary angle input attrs
  | .residualAdd => do
      let left ← value 0
      let right ← value 1
      ofExcept (elementwise "elementwise geometry is invalid" (· + ·) left right)
  | .elementwiseMul => do
      let left ← value 0
      let right ← value 1
      ofExcept (elementwise "elementwise geometry is invalid" (· * ·) left right)
  | .zeroLike => do
      let input ← value 0
      .ok ⟨input.dimensions, List.replicate input.values.length 0⟩
  | .weightedAdd => do
      let left ← value 0
      let right ← value 1
      ofExcept (rejectIf (left.dimensions ≠ right.dimensions ∨
        left.values.length ≠ right.values.length) "weighted add geometry is invalid")
      let weight ← ofExcept (okOr operation.attributes.weightedAdd "weighted add weight missing")
      ofExcept (elementwise "weighted add geometry is invalid" (fun a b => a + weight * b)
        left right)
  | .expertDispatch => do
      let selection ← ofExcept (okOr selection "expert dispatch selection is missing")
      let input ← value 0
      let gate ← tensor 1
      let up ← tensor 2
      let down ← tensor 3
      let expertId ← ofExcept (okOr operation.attributes.expertDispatch
        "expert dispatch identity is missing")
      expertDispatch math input gate up down expertId selection
  | .ssmScan => .error "generic operation SsmScan is unsupported"
  | .stateRead => .error "generic operation StateRead is unsupported"
  | .stateWrite => .error "generic operation StateWrite is unsupported"
  | .attention | .topKRouter => .error "the operation has a state"

/-- A turn of the loop of `execute_generic_graph`. -/
def executeGenericOperation (run : GenericRun F) (operation : Operation F) :
    Outcome (GenericRun F) :=
  match operation.kind with
  | .attention => do
      let query ← ofExcept (valueInput operation run.values 0)
      let key ← ofExcept (valueInput operation run.values 1)
      let value ← ofExcept (valueInput operation run.values 2)
      let attrs ← ofExcept (okOr operation.attributes.attention "attention attributes missing")
      let after ← attention math query key value attrs run.state
      .ok { run with
        state := after.2
        values := run.values.insert operation.output after.1 }
  | .topKRouter => do
      let scores ← ofExcept (valueInput operation run.values 0)
      let corrected ← ofExcept (valueInput operation run.values 1)
      let count ← ofExcept (okOr operation.attributes.topK "top-k missing")
      let selected ← topK scores corrected count
      .ok { run with
        selection := some selected
        values := run.values.insert operation.output scores }
  | _ => do
      let output ← operationOutput math angle provider selection operation run.values
      .ok { run with values := run.values.insert operation.output output }

/-- What is known before the first operation. -/
def startRun (graph : ExecutionGraph F) (input : GenericTensor F)
    (state : GenericExecutionState F) : GenericRun F where
  values := (∅ : AssocMap UInt32 (GenericTensor F)).insert graph.input input
  selection := none
  state := state

/-- `execute_generic_graph`: the result and the state, or nothing when it panics.  An error
puts the copy of the state back. -/
def executeGenericGraph (graph : ExecutionGraph F) (input : GenericTensor F)
    (state : GenericExecutionState F) :
    Option (Except String (GenericExecutionResult F) × GenericExecutionState F) :=
  match graph.operations.foldlM (executeGenericOperation math angle provider selection)
      (startRun graph input state) with
  | .ok run => some (.ok ⟨run.values, run.selection⟩, run.state)
  | .error message => some (.error message, state)
  | .panicked => none

/-! ### Steps -/

/-- The operands of an operation fit its kernel. -/
def StepFits (operation : Operation F) (run : GenericRun F) : Prop :=
  let value := fun index tensor => valueInput operation run.values index = .ok tensor
  let weight := fun index tensor => tensorInput operation index provider = .ok tensor
  match operation.kind with
  | .rmsNorm => ∀ input scale epsilon, value 0 input → weight 1 scale →
      operation.attributes.epsilon = some epsilon →
      ¬ (EmptyRows input scale ∧ math.isFinite epsilon = true)
  | .matMul | .quantizedMatMul => ∀ input matrix, value 0 input → weight 1 matrix →
      MatmulFits input matrix
  | .biasAdd => ∀ input bias, value 0 input → weight 1 bias → ¬ EmptyRows input bias
  | .rotary => ∀ input attrs, value 0 input → operation.attributes.rotary = some attrs →
      RotaryFits input attrs
  | .attention => ∀ query key values attrs, value 0 query → value 1 key → value 2 values →
      operation.attributes.attention = some attrs → AttentionFits query key values attrs run.state
  | .topKRouter => ∀ scores corrected count, value 0 scores → value 1 corrected →
      operation.attributes.topK = some count → RouterFits scores corrected count
  | .expertDispatch => ∀ input gate up down expertId chosen, value 0 input → weight 1 gate →
      weight 2 up → weight 3 down → operation.attributes.expertDispatch = some expertId →
      selection = some chosen → DispatchFits input gate up down expertId chosen
  | _ => True

/-- Every step of a run has operands that fit. -/
def RunFits : List (Operation F) → GenericRun F → Prop
  | [], _ => True
  | operation :: rest, run => StepFits math provider selection operation run ∧
      ∀ after, executeGenericOperation math angle provider selection run operation = .ok after →
        RunFits rest after

/-- The tensors, the input and the selected ids are as long as vectors can be. -/
structure Vectors (provider : UInt32 → Except String (GenericTensor F))
    (selection : Option (GenericTopKSelection F)) (input : GenericTensor F) : Prop where
  input : IsVector input.values
  provider : ∀ id tensor, provider id = .ok tensor → IsVector tensor.values
  selection : ∀ chosen, selection = some chosen → IsVector chosen.ids

/-- The geometry that lowering has checked. -/
structure IsLowered (operation : Operation F) : Prop where
  attention : ∀ attrs, operation.kind = .attention →
    operation.attributes.attention = some attrs → attrs.kvHeadCount ≠ 0 ∧ attrs.headDim ≠ 0
  rotary : ∀ attrs, operation.kind = .rotary → operation.attributes.rotary = some attrs →
    attrs.headDim ≠ 0

end Executor

section Safety

variable {F : Type} [Field F] [LinearOrder F] {math : ExactMath F}
  {angle : RotaryAttributes F → Nat → Nat → F × F}
  {provider : UInt32 → Except String (GenericTensor F)}
  {selection : Option (GenericTopKSelection F)}

theorem lowerOperation_isLowered {program : PortableProgram} {bindings : AssocMap String UInt32}
    {operation : PortableOperation F} {lowered : Operation F}
    (h : lowerOperation math program bindings operation = .ok lowered) : IsLowered lowered := by
  obtain ⟨_, hchecks, h⟩ := bind_eq_ok_iff.1 h
  obtain ⟨inputs, _, h⟩ := bind_eq_ok_iff.1 h
  obtain rfl := (Except.ok.inj h).symm
  unfold checkOperation at hchecks
  constructor
  · intro attrs hkind hattrs
    change operation.kind.lowered = .attention at hkind
    change operation.attributes.attention = some attrs at hattrs
    cases hsource : operation.kind <;> rw [hsource] at hkind <;> cases hkind
    rw [hsource] at hchecks
    simp only [checkAttentionAttributes, hattrs] at hchecks
    obtain ⟨_, _, hchecks⟩ := bind_eq_ok_iff.1 hchecks
    obtain ⟨_, hgeometry, _⟩ := bind_eq_ok_iff.1 hchecks
    have hnot := rejectIf_eq_ok_iff.1 hgeometry
    tauto
  · intro attrs hkind hattrs
    change operation.kind.lowered = .rotary at hkind
    change operation.attributes.rotary = some attrs at hattrs
    cases hsource : operation.kind <;> rw [hsource] at hkind <;> cases hkind
    rw [hsource] at hchecks
    simp only [checkRotary, hattrs] at hchecks
    have hnot := rejectIf_eq_ok_iff.1 hchecks
    tauto

theorem lowerRegion_isLowered {program : PortableProgram} {region : PortableRegion F}
    {graph : ExecutionGraph F} (h : lowerRegion math program region = .ok graph) :
    ∀ operation ∈ graph.operations, IsLowered operation := by
  obtain ⟨bindings, _, h⟩ := bind_eq_ok_iff.1 h
  obtain ⟨operations, hoperations, h⟩ := bind_eq_ok_iff.1 h
  obtain rfl := (Except.ok.inj h).symm
  intro operation hmem
  obtain ⟨source, _, hlowered⟩ := exists_of_mem_right (mapM_eq_ok_iff.1 hoperations) hmem
  exact lowerOperation_isLowered hlowered

/-- The values of a run are vectors. -/
def ValuesFit (values : AssocMap UInt32 (GenericTensor F)) : Prop :=
  ∀ id tensor, values.lookup id = some tensor → IsVector tensor.values

omit [Field F] [LinearOrder F] in
theorem ValuesFit.insert {values : AssocMap UInt32 (GenericTensor F)} (h : ValuesFit values)
    {output : UInt32} {tensor : GenericTensor F} (htensor : IsVector tensor.values) :
    ValuesFit (values.insert output tensor) := by
  intro id other hother
  rw [AssocMap.lookup_insert_eq] at hother
  split at hother
  next =>
      obtain rfl := Option.some.inj hother
      exact htensor
  next => exact h id other hother

omit [Field F] [LinearOrder F] in
theorem ValuesFit.valueInput {values : AssocMap UInt32 (GenericTensor F)} (h : ValuesFit values)
    {operation : Operation F} {index : Nat} {tensor : GenericTensor F}
    (hvalue : Runtime.valueInput operation values index = .ok tensor) :
    IsVector tensor.values := by
  obtain ⟨input, -, hinput⟩ := bind_eq_ok_iff.1 hvalue
  cases input with
  | tensor id => cases hinput
  | value id => exact h id tensor (okOr_eq_ok_iff.1 hinput)

omit [Field F] [LinearOrder F] in
theorem Vectors.tensorInput {input : GenericTensor F} (h : Vectors provider selection input)
    {operation : Operation F} {index : Nat} {tensor : GenericTensor F}
    (htensor : Runtime.tensorInput operation index provider = .ok tensor) :
    IsVector tensor.values := by
  unfold Runtime.tensorInput at htensor
  split at htensor
  next => exact h.provider _ tensor htensor
  next => cases htensor

omit [Field F] [LinearOrder F] in
theorem elementwise_isVector {message : String} {f : F → F → F}
    {left right output : GenericTensor F} (h : elementwise message f left right = .ok output) (hleft : IsVector left.values) :
    IsVector output.values := by
  unfold elementwise at h
  split at h
  next => cases h
  next =>
      obtain rfl := Except.ok.inj h
      show 4 * (List.zipWith f left.values right.values).length < 2 ^ 63
      unfold IsVector at hleft
      rw [List.length_zipWith]
      omega

omit [Field F] [LinearOrder F] in
theorem reshapeHeads_values {input output : GenericTensor F} {attrs : HeadReshapeAttributes}
    (h : reshapeHeads input attrs = .ok output) : output.values = input.values := by
  obtain ⟨_, _, h⟩ := bind_eq_ok_iff.1 h
  obtain ⟨_, _, h⟩ := bind_eq_ok_iff.1 h
  simp only at h
  split at h
  all_goals
    split at h
    next => cases h
    next =>
        obtain rfl := Except.ok.inj h
        rfl

/-- An operation on operands that fit does not panic, and its output is a vector. -/
theorem operationOutput_safe {input : GenericTensor F} (hvectors : Vectors provider selection input)
    {operation : Operation F} {run : GenericRun F} (hlowered : IsLowered operation)
    (hvalues : ValuesFit run.values) (hfits : StepFits math provider selection operation run) :
    Safe (operationOutput math angle provider selection operation run.values) fun output =>
      IsVector output.values := by
  unfold StepFits at hfits
  unfold operationOutput
  have hvalue : ∀ {index tensor}, valueInput operation run.values index = .ok tensor →
      IsVector tensor.values := fun h => hvalues.valueInput h
  have htensor : ∀ {index tensor}, tensorInput operation index provider = .ok tensor →
      IsVector tensor.values := fun h => hvectors.tensorInput h
  cases hkind : operation.kind with
  | rmsNorm =>
      rw [hkind] at hfits
      exact Safe.ofExcept.bind fun x hx => Safe.ofExcept.bind fun w hw => Safe.ofExcept.bind
        fun e he => rmsNorm_safe (hfits x w e hx hw (okOr_eq_ok_iff.1 he)) (hvalue hx)
  | matMul =>
      rw [hkind] at hfits
      exact Safe.ofExcept.bind fun x hx => Safe.ofExcept.bind fun w hw =>
        matmul_safe (hfits x w hx hw) (hvalue hx) (htensor hw)
  | quantizedMatMul =>
      rw [hkind] at hfits
      exact Safe.ofExcept.bind fun x hx => Safe.ofExcept.bind fun w hw =>
        matmul_safe (hfits x w hx hw) (hvalue hx) (htensor hw)
  | biasAdd =>
      rw [hkind] at hfits
      exact Safe.ofExcept.bind fun x hx => Safe.ofExcept.bind fun w hw =>
        biasAdd_safe (hfits x w hx hw) (hvalue hx)
  | activation =>
      refine Safe.ofExcept.bind fun x hx => Safe.ofExcept.bind fun kind _ => ?_
      show 4 * (x.values.map (activate math kind)).length < 2 ^ 63
      rw [List.length_map]
      exact hvalue hx
  | reshapeHeads =>
      refine Safe.ofExcept.bind fun attrs _ => Safe.ofExcept.bind fun x hx =>
        Safe.ofExcept.mono fun output houtput => ?_
      rw [reshapeHeads_values houtput]
      exact hvalue hx
  | rotary =>
      rw [hkind] at hfits
      refine Safe.ofExcept.bind fun x hx => Safe.ofExcept.bind fun attrs hattrs => ?_
      have hsome := okOr_eq_ok_iff.1 hattrs
      exact rotary_safe (hfits x attrs hx hsome) (hlowered.rotary attrs hkind hsome) (hvalue hx)
  | residualAdd =>
      exact Safe.ofExcept.bind fun x hx => Safe.ofExcept.bind fun y _ =>
        Safe.ofExcept.mono fun output houtput => elementwise_isVector houtput (hvalue hx)
  | elementwiseMul =>
      exact Safe.ofExcept.bind fun x hx => Safe.ofExcept.bind fun y _ =>
        Safe.ofExcept.mono fun output houtput => elementwise_isVector houtput (hvalue hx)
  | zeroLike =>
      refine Safe.ofExcept.bind fun x hx => ?_
      show 4 * (List.replicate x.values.length (0 : F)).length < 2 ^ 63
      rw [List.length_replicate]
      exact hvalue hx
  | weightedAdd =>
      exact Safe.ofExcept.bind fun x hx => Safe.ofExcept.bind fun y _ => Safe.rejectIf.bind
        fun _ _ => Safe.ofExcept.bind fun weight _ => Safe.ofExcept.mono fun output houtput =>
          elementwise_isVector houtput (hvalue hx)
  | expertDispatch =>
      rw [hkind] at hfits
      refine Safe.ofExcept.bind fun chosen hchosen => Safe.ofExcept.bind fun x hx =>
        Safe.ofExcept.bind fun gate hgate => Safe.ofExcept.bind fun up hup =>
          Safe.ofExcept.bind fun down hdown => Safe.ofExcept.bind fun id hid => ?_
      have hsome := okOr_eq_ok_iff.1 hchosen
      exact expertDispatch_safe
        (hfits x gate up down id chosen hx hgate hup hdown (okOr_eq_ok_iff.1 hid) hsome)
        (hvalue hx) (htensor hgate) (htensor hdown) (hvectors.selection chosen hsome)
  | ssmScan => trivial
  | stateRead => trivial
  | stateWrite => trivial
  | attention => trivial
  | topKRouter => trivial

/-- A step on operands that fit does not panic, and keeps the values vectors. -/
theorem executeGenericOperation_safe {input : GenericTensor F}
    (hvectors : Vectors provider selection input) {operation : Operation F} {run : GenericRun F}
    (hlowered : IsLowered operation) (hvalues : ValuesFit run.values)
    (hfits : StepFits math provider selection operation run) :
    Safe (executeGenericOperation math angle provider selection run operation) fun after =>
      ValuesFit after.values := by
  have hother := @operationOutput_safe F _ _ math angle provider selection input hvectors operation run
    hlowered hvalues hfits
  unfold StepFits at hfits
  unfold executeGenericOperation
  split
  next hkind =>
      rw [hkind] at hfits
      refine Safe.ofExcept.bind fun q hq => Safe.ofExcept.bind fun k hk =>
        Safe.ofExcept.bind fun v hv => Safe.ofExcept.bind fun attrs hattrs => ?_
      have hsome := okOr_eq_ok_iff.1 hattrs
      obtain ⟨hheads, hdim⟩ := hlowered.attention attrs hkind hsome
      refine (attention_safe (hfits q k v attrs hq hk hv hsome) hheads hdim
        (hvalues.valueInput hq)).bind fun after hafter => ?_
      exact hvalues.insert hafter
  next hkind =>
      rw [hkind] at hfits
      refine Safe.ofExcept.bind fun scores hscores => Safe.ofExcept.bind fun corrected hcorrected =>
        Safe.ofExcept.bind fun count hcount => ?_
      refine (topK_safe (hfits scores corrected count hscores hcorrected (okOr_eq_ok_iff.1 hcount))
        (hvalues.valueInput hscores)).bind fun selected _ => ?_
      exact hvalues.insert (hvalues.valueInput hscores)
  next => exact hother.bind fun output houtput => hvalues.insert houtput

/-- A run whose steps all fit does not panic. -/
theorem run_safe {input : GenericTensor F} (hvectors : Vectors provider selection input)
    {operations : List (Operation F)} (hlowered : ∀ operation ∈ operations, IsLowered operation)
    {run : GenericRun F} (hvalues : ValuesFit run.values)
    (hfits : RunFits math angle provider selection operations run) :
    Safe (operations.foldlM (executeGenericOperation math angle provider selection) run)
      fun after => ValuesFit after.values := by
  induction operations generalizing run with
  | nil => exact hvalues
  | cons operation rest ih =>
      rw [List.forall_mem_cons] at hlowered
      obtain ⟨hstep, hrest⟩ := hfits
      rw [List.foldlM_cons]
      have hsafe := @executeGenericOperation_safe F _ _ math angle provider selection input hvectors
        operation run hlowered.1 hvalues hstep
      cases hrun : executeGenericOperation math angle provider selection run operation with
      | ok after =>
          rw [hrun] at hsafe
          exact ih hlowered.2 hsafe (hrest after hrun)
      | error message => trivial
      | panicked =>
          rw [hrun] at hsafe
          exact hsafe

/-- A graph whose steps all fit is executed to a result or to an error, and an error leaves
the state as it was. -/
theorem executeGenericGraph_returns {program : PortableProgram} {region : PortableRegion F}
    {graph : ExecutionGraph F} (hgraph : lowerRegion math program region = .ok graph)
    {input : GenericTensor F} {state : GenericExecutionState F}
    (hvectors : Vectors provider selection input)
    (hfits : RunFits math angle provider selection graph.operations (startRun graph input state)) :
    ∃ result after, executeGenericGraph math angle provider selection graph input state =
      some (result, after) ∧ ∀ message, result = .error message → after = state := by
  have hstart : ValuesFit (startRun graph input state).values := by
    refine ValuesFit.insert ?_ hvectors.input
    intro id tensor h
    cases h
  have hsafe := run_safe hvectors (lowerRegion_isLowered hgraph) hstart hfits
  unfold executeGenericGraph
  cases hrun : graph.operations.foldlM (executeGenericOperation math angle provider selection)
      (startRun graph input state) with
  | ok run => exact ⟨_, _, rfl, fun message h => by cases h⟩
  | error message => exact ⟨_, _, rfl, fun _ _ => rfl⟩
  | panicked =>
      rw [hrun] at hsafe
      exact hsafe.elim

end Safety

/-! ### A graph of one bias -/

section Bias

open SequenceGeometry (exampleMath)

def biasProgram : PortableProgram := ⟨[⟨"bias", 7⟩], []⟩

def biasRegion : PortableRegion ℚ :=
  ⟨"region", 0, 1, [⟨"add", .biasAdd, [.value 0, .tensor "bias"], 1, {}⟩]⟩

def biasGraph : ExecutionGraph ℚ :=
  ⟨0, 1, [⟨7, "bias", 0, 0⟩], [⟨"add", .biasAdd, [.value 0, .tensor 7], 1, {}⟩]⟩

def biasState : GenericExecutionState ℚ := ⟨0, 4, 0, 0, 0, 0, [], []⟩

/-- Every tensor of the graph is the bias. -/
def biasProvider (bias : GenericTensor ℚ) (_ : UInt32) : Except String (GenericTensor ℚ) := .ok bias

def noTurn (_ : RotaryAttributes ℚ) (_ _ : Nat) : ℚ × ℚ := (1, 0)

theorem lowerRegion_bias : lowerRegion exampleMath biasProgram biasRegion = .ok biasGraph := by
  decide +kernel

theorem biasVectors : Vectors (biasProvider ⟨[1], [3]⟩) none ⟨[1], [2]⟩ where
  input := by
    show 4 * 1 < 2 ^ 63
    decide
  provider := by
    rintro id tensor ⟨⟩
    show 4 * 1 < 2 ^ 63
    decide
  selection := by
    rintro chosen ⟨⟩

theorem biasRun_fits : RunFits exampleMath noTurn (biasProvider ⟨[1], [3]⟩) none
    biasGraph.operations (startRun biasGraph ⟨[1], [2]⟩ biasState) := by
  refine ⟨?_, fun after _ => trivial⟩
  rintro input bias hinput hbias ⟨hlast, -⟩
  obtain rfl : (⟨[1], [2]⟩ : GenericTensor ℚ) = input := Except.ok.inj hinput
  cases hlast

/-- A bias of one number is added. -/
theorem executeGenericGraph_bias : ∃ result after,
    executeGenericGraph exampleMath noTurn (biasProvider ⟨[1], [3]⟩) none biasGraph ⟨[1], [2]⟩
      biasState = some (result, after) ∧ ∀ message, result = .error message → after = biasState :=
  executeGenericGraph_returns lowerRegion_bias biasVectors biasRun_fits

/-- A bias of no numbers ends the program. -/
theorem executeGenericGraph_empty_rows :
    lowerRegion exampleMath biasProgram biasRegion = .ok biasGraph ∧
      executeGenericGraph exampleMath noTurn (biasProvider ⟨[0], []⟩) none biasGraph ⟨[0], []⟩
        biasState = none :=
  ⟨lowerRegion_bias, rfl⟩

end Bias

end VBuf.Runtime.Checked
