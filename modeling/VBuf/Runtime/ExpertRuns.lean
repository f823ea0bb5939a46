import VBuf.Runtime.ExpertGraph

/-!
# Running the operations of the expert graph

Each portable operation of the expert graph is lowered and executed; one lemma
for each kind says what it reads and what it puts under its value id.
-/

namespace VBuf.Runtime

open VBuf.Lib

section Bindings

theorem lookup_bindTensors {list : List TensorBinding} {start bindings : AssocMap String UInt32}
    (h : bindTensors list start = .ok bindings) :
    (∀ key tensor, start.lookup key = some tensor → bindings.lookup key = some tensor) ∧
      ∀ binding ∈ list, bindings.lookup binding.semantic = some binding.tensor := by
  induction list generalizing start with
  | nil =>
      cases h
      exact ⟨fun _ _ hkey => hkey, fun _ hmem => absurd hmem List.not_mem_nil⟩
  | cons binding rest ih =>
      rw [bindTensors] at h
      split at h
      · cases h
      · -- A key that is already bound ends the loop, so an insertion hides none.
        rename_i hnew
        obtain ⟨hstart, hrest⟩ := ih h
        refine ⟨fun key tensor hkey => hstart _ _ ?_, List.forall_mem_cons.2 ⟨hstart _ _ ?_, hrest⟩⟩
        · rw [AssocMap.lookup_insert_eq, if_neg, hkey]
          rintro rfl
          rw [hkey] at hnew
          exact hnew rfl
        · rw [AssocMap.lookup_insert_eq, if_pos rfl]

end Bindings

section Runs

variable {F : Type} [Field F] [LinearOrder F] (math : ExactMath F)
  (rotary : GenericTensor F → RotaryAttributes F → Except String (GenericTensor F))
  (provider : UInt32 → Except String (GenericTensor F)) (selection : GenericTopKSelection F)
  (program : PortableProgram) (bindings : AssocMap String UInt32)

/-- A portable operation is lowered and executed. -/
def Runs (operation : PortableOperation F) (run next : GenericRun F) : Prop :=
  ∃ lowered, lowerOperation math program bindings operation = .ok lowered ∧
    executeGenericOperation math (exactKernels math rotary) provider (some selection) run lowered =
      .ok next

/-- Portable operations are lowered and executed one after another. -/
def RunsAll : List (PortableOperation F) → GenericRun F → GenericRun F → Prop
  | [], run, final => run = final
  | operation :: rest, run, final =>
      ∃ next, Runs math rotary provider selection program bindings operation run next ∧
        RunsAll rest next final

variable {math rotary provider selection program bindings}

theorem runsAll_of_foldlM {operations : List (PortableOperation F)} {lowered : List (Operation F)}
    (hlowered : List.Forall₂ (fun operation target =>
      lowerOperation math program bindings operation = .ok target) operations lowered)
    {run final : GenericRun F}
    (h : lowered.foldlM (executeGenericOperation math (exactKernels math rotary) provider
      (some selection)) run = .ok final) :
    RunsAll math rotary provider selection program bindings operations run final := by
  induction hlowered generalizing run with
  | nil => exact Except.ok.inj h
  | cons hfirst _ ih =>
      rw [List.foldlM_cons, bind_eq_ok_iff] at h
      obtain ⟨next, hnext, hrest⟩ := h
      exact ⟨next, ⟨_, hfirst, hnext⟩, ih hrest⟩

theorem RunsAll.append {front back : List (PortableOperation F)} {run final : GenericRun F}
    (h : RunsAll math rotary provider selection program bindings (front ++ back) run final) :
    ∃ middle, RunsAll math rotary provider selection program bindings front run middle ∧
      RunsAll math rotary provider selection program bindings back middle final := by
  induction front generalizing run with
  | nil => exact ⟨run, rfl, h⟩
  | cons operation rest ih =>
      obtain ⟨next, hnext, hrest⟩ := h
      obtain ⟨middle, hfront, hback⟩ := ih hrest
      exact ⟨middle, ⟨next, hnext, hfront⟩, hback⟩

/-- A run of an operation without a state puts its output under its id. -/
theorem Runs.output {operation : PortableOperation F} {run next : GenericRun F}
    (h : Runs math rotary provider selection program bindings operation run next)
    (hattention : operation.kind ≠ .attention) (htopK : operation.kind ≠ .topK) :
    ∃ inputs output, operation.inputs.mapM (lowerInput bindings) = .ok inputs ∧
      operationOutput math (exactKernels math rotary) provider (some selection)
        ⟨operation.id, operation.kind.lowered, inputs, operation.output, operation.attributes⟩
        run.values = .ok output ∧
      next.values = run.values.insert operation.output output := by
  obtain ⟨lowered, hlowered, hrun⟩ := h
  rw [lowerOperation, bind_eq_ok_iff] at hlowered
  obtain ⟨_, -, hlowered⟩ := hlowered
  rw [bind_eq_ok_iff] at hlowered
  obtain ⟨inputs, hinputs, hlowered⟩ := hlowered
  obtain rfl := (Except.ok.inj hlowered).symm
  refine ⟨inputs, ?_⟩
  unfold executeGenericOperation at hrun
  cases hkind : operation.kind with
  | attention => exact absurd hkind hattention
  | topK => exact absurd hkind htopK
  | _ =>
      rw [hkind] at hrun
      simp only [PortableOperationKind.lowered, bind_eq_ok_iff] at hrun
      obtain ⟨output, houtput, hnext⟩ := hrun
      refine ⟨output, hinputs, houtput, ?_⟩
      rw [← Except.ok.inj hnext]

omit [Field F] [LinearOrder F] in
theorem valueInput_of_lookup {operation : Operation F} {values : AssocMap UInt32 (GenericTensor F)}
    {index : Nat} {id : UInt32} {tensor : GenericTensor F}
    (hinput : operation.inputs[index]? = some (.value id)) (h : values.lookup id = some tensor) :
    valueInput operation values index = .ok tensor := by
  rw [valueInput, hinput]
  show inputValue values (.value id) = _
  rw [inputValue, h]
  rfl

omit [Field F] [LinearOrder F] in
theorem tensorInput_of_input {operation : Operation F} {index : Nat} {id : UInt32}
    (hinput : operation.inputs[index]? = some (.tensor id)) :
    tensorInput operation index provider = provider id := by
  rw [tensorInput, hinput]

/-- What the two operations that combine values number by number leave. -/
theorem Runs.combine (message : String) {kind : PortableOperationKind} {f : F → F → F}
    {id : String} {left right output : UInt32} {run next : GenericRun F} {a b : GenericTensor F}
    (h : Runs math rotary provider selection program bindings
      (plainOperation id kind [.value left, .value right] output) run next)
    (hattention : kind ≠ .attention) (htopK : kind ≠ .topK)
    (hkind : ∀ (operation : Operation F) (values : AssocMap UInt32 (GenericTensor F)),
      operation.kind = kind.lowered →
        operationOutput math (exactKernels math rotary) provider (some selection) operation values =
          (valueInput operation values 0 >>= fun x => valueInput operation values 1 >>= fun y =>
            elementwise message f x y))
    (ha : run.values.lookup left = some a) (hb : run.values.lookup right = some b) :
    a.dimensions = b.dimensions ∧ a.values.length = b.values.length ∧
      next.values = run.values.insert output ⟨a.dimensions, List.zipWith f a.values b.values⟩ := by
  obtain ⟨inputs, result, hinputs, houtput, hnext⟩ := h.output hattention htopK
  obtain rfl : inputs = [.value left, .value right] := (Except.ok.inj hinputs).symm
  rw [hkind _ _ rfl, valueInput_of_lookup rfl ha, valueInput_of_lookup rfl hb] at houtput
  change elementwise message f a b = _ at houtput
  rw [elementwise] at houtput
  split at houtput
  · cases houtput
  · rename_i hgeometry
    simp only [not_or, not_not] at hgeometry
    cases houtput
    exact ⟨hgeometry.1, hgeometry.2, hnext⟩

/-- A sum of two values. -/
theorem Runs.residualAdd {id : String} {left right output : UInt32} {run next : GenericRun F}
    {a b : GenericTensor F}
    (h : Runs math rotary provider selection program bindings
      (plainOperation id .residualAdd [.value left, .value right] output) run next)
    (ha : run.values.lookup left = some a) (hb : run.values.lookup right = some b) :
    a.dimensions = b.dimensions ∧ a.values.length = b.values.length ∧
      next.values = run.values.insert output
        ⟨a.dimensions, List.zipWith (· + ·) a.values b.values⟩ := by
  refine h.combine "elementwise geometry is invalid" (by simp) (by simp)
    (fun operation values hkind => ?_) ha hb
  simp only [operationOutput, hkind, PortableOperationKind.lowered]

/-- A product of two values. -/
theorem Runs.elementwiseMul {id : String} {left right output : UInt32} {run next : GenericRun F}
    {a b : GenericTensor F}
    (h : Runs math rotary provider selection program bindings
      (plainOperation id .elementwiseMul [.value left, .value right] output) run next)
    (ha : run.values.lookup left = some a) (hb : run.values.lookup right = some b) :
    a.dimensions = b.dimensions ∧ a.values.length = b.values.length ∧
      next.values = run.values.insert output
        ⟨a.dimensions, List.zipWith (· * ·) a.values b.values⟩ := by
  refine h.combine "elementwise geometry is invalid" (by simp) (by simp)
    (fun operation values hkind => ?_) ha hb
  simp only [operationOutput, hkind, PortableOperationKind.lowered]

/-- Zeros in the shape of a value. -/
theorem Runs.zeroLike {id : String} {input output : UInt32} {run next : GenericRun F}
    {a : GenericTensor F}
    (h : Runs math rotary provider selection program bindings
      (plainOperation id .zeroLike [.value input] output) run next)
    (ha : run.values.lookup input = some a) :
    next.values = run.values.insert output ⟨a.dimensions, List.replicate a.values.length 0⟩ := by
  obtain ⟨inputs, result, hinputs, houtput, hnext⟩ := h.output (by simp [plainOperation])
    (by simp [plainOperation])
  obtain rfl : inputs = [.value input] := (Except.ok.inj hinputs).symm
  simp only [operationOutput, plainOperation, PortableOperationKind.lowered] at houtput
  rw [valueInput_of_lookup rfl ha] at houtput
  rw [hnext, ← Except.ok.inj houtput]
  rfl

/-- An activation of a value. -/
theorem Runs.activation {id : String} {input output : UInt32} {kind : ActivationKind}
    {run next : GenericRun F} {a : GenericTensor F}
    (h : Runs math rotary provider selection program bindings
      (activationOperation id input output kind) run next)
    (ha : run.values.lookup input = some a) :
    next.values = run.values.insert output ⟨a.dimensions, a.values.map (activate math kind)⟩ := by
  obtain ⟨inputs, result, hinputs, houtput, hnext⟩ := h.output (by simp [activationOperation])
    (by simp [activationOperation])
  obtain rfl : inputs = [.value input] := (Except.ok.inj hinputs).symm
  simp only [operationOutput, activationOperation, PortableOperationKind.lowered] at houtput
  rw [valueInput_of_lookup rfl ha] at houtput
  rw [hnext, ← Except.ok.inj houtput]
  rfl

theorem mapM_lowerInput_pair {value : UInt32} {key : String} {tensor : UInt32}
    (hkey : bindings.lookup key = some tensor) :
    [PortableInput.value value, .tensor key].mapM (lowerInput bindings) =
      .ok [.value value, .tensor tensor] := by
  refine mapM_eq_ok_iff.2 (.cons rfl (.cons ?_ .nil))
  rw [lowerInput, hkey]

/-- A value against the weight that a key names. -/
theorem Runs.matmul {id key : String} {input output tensor : UInt32} {run next : GenericRun F}
    {a : GenericTensor F}
    (h : Runs math rotary provider selection program bindings
      (matmulOperation id input key output) run next)
    (ha : run.values.lookup input = some a) (hkey : bindings.lookup key = some tensor) :
    ∃ weight result, provider tensor = .ok weight ∧ Runtime.matmul a weight = .ok result ∧
      next.values = run.values.insert output result := by
  obtain ⟨inputs, result, hinputs, houtput, hnext⟩ := h.output (by simp [matmulOperation])
    (by simp [matmulOperation])
  obtain rfl : inputs = [.value input, .tensor tensor] :=
    Except.ok.inj (hinputs.symm.trans (mapM_lowerInput_pair hkey))
  simp only [operationOutput, matmulOperation, PortableOperationKind.lowered] at houtput
  rw [valueInput_of_lookup rfl ha, tensorInput_of_input rfl] at houtput
  change (provider tensor >>= fun weight => Runtime.matmul a weight) = _ at houtput
  obtain ⟨weight, hweight, hmatmul⟩ := bind_eq_ok_iff.1 houtput
  exact ⟨weight, result, hweight, hmatmul, hnext⟩

/-- The norm of the hidden state. -/
theorem Runs.norm {tensor : UInt32} {run next : GenericRun F} {a : GenericTensor F}
    (h : Runs math rotary provider selection program bindings normOperation run next)
    (ha : run.values.lookup 16 = some a)
    (hkey : bindings.lookup "block.post_attention_norm.weight" = some tensor) :
    ∃ weight result, provider tensor = .ok weight ∧
      rmsNorm math a weight normEpsilon = .ok result ∧
      next.values = run.values.insert 17 result := by
  obtain ⟨inputs, result, hinputs, houtput, hnext⟩ := h.output (by simp [normOperation])
    (by simp [normOperation])
  obtain rfl : inputs = [.value 16, .tensor tensor] :=
    Except.ok.inj (hinputs.symm.trans (mapM_lowerInput_pair hkey))
  simp only [operationOutput, normOperation, PortableOperationKind.lowered] at houtput
  rw [valueInput_of_lookup rfl ha, tensorInput_of_input rfl] at houtput
  change (provider tensor >>= fun weight => rmsNorm math a weight normEpsilon) = _ at houtput
  obtain ⟨weight, hweight, hnorm⟩ := bind_eq_ok_iff.1 houtput
  exact ⟨weight, result, hweight, hnorm, hnext⟩

/-- The dispatch of an expert. -/
theorem Runs.dispatch {expert output gateId upId downId : UInt32} {run next : GenericRun F}
    {a : GenericTensor F}
    (h : Runs math rotary provider selection program bindings
      (dispatchOperation expert output) run next)
    (ha : run.values.lookup 17 = some a)
    (hgate : bindings.lookup (expertKey expert "gate") = some gateId)
    (hup : bindings.lookup (expertKey expert "up") = some upId)
    (hdown : bindings.lookup (expertKey expert "down") = some downId) :
    ∃ gate up down result, provider gateId = .ok gate ∧ provider upId = .ok up ∧
      provider downId = .ok down ∧
      expertDispatch math a gate up down expert selection = .ok result ∧
      next.values = run.values.insert output result := by
  obtain ⟨inputs, result, hinputs, houtput, hnext⟩ := h.output (by simp [dispatchOperation])
    (by simp [dispatchOperation])
  have hlowered : [PortableInput.value 17, .tensor (expertKey expert "gate"),
      .tensor (expertKey expert "up"), .tensor (expertKey expert "down")].mapM
        (lowerInput bindings) = .ok [.value 17, .tensor gateId, .tensor upId, .tensor downId] := by
    refine mapM_eq_ok_iff.2 (.cons rfl (.cons ?_ (.cons ?_ (.cons ?_ .nil))))
    · rw [lowerInput, hgate]
    · rw [lowerInput, hup]
    · rw [lowerInput, hdown]
  obtain rfl : inputs = [.value 17, .tensor gateId, .tensor upId, .tensor downId] :=
    Except.ok.inj (hinputs.symm.trans hlowered)
  simp only [operationOutput, dispatchOperation, PortableOperationKind.lowered] at houtput
  rw [valueInput_of_lookup rfl ha, tensorInput_of_input rfl, tensorInput_of_input rfl,
    tensorInput_of_input rfl] at houtput
  change (provider gateId >>= fun gate => provider upId >>= fun up => provider downId >>=
    fun down => expertDispatch math a gate up down expert selection) = _ at houtput
  obtain ⟨gate, hgates, houtput⟩ := bind_eq_ok_iff.1 houtput
  obtain ⟨up, hups, houtput⟩ := bind_eq_ok_iff.1 houtput
  obtain ⟨down, hdowns, hdispatch⟩ := bind_eq_ok_iff.1 houtput
  exact ⟨gate, up, down, result, hgates, hups, hdowns, hdispatch, hnext⟩

end Runs

section Matmul

variable {F : Type} [Field F] [LinearOrder F]

omit [Field F] [LinearOrder F] in
/-- A checked tensor of three dimensions has no zero among them. -/
theorem length_of_elements {tensor : GenericTensor F} {tokens width : UInt64} {elements : Nat}
    (hshape : tensor.dimensions = [1, tokens, width]) (h : tensor.elements = .ok elements) :
    tensor.values.length = tokens.toNat * width.toNat ∧ 0 < tokens.toNat ∧ 0 < width.toNat := by
  rw [GenericTensor.elements, hshape] at h
  have hone : (1 : UInt64).toNat = 1 := rfl
  simp only [shapeProduct, hone] at h
  rw [if_neg (by decide), if_pos (by decide)] at h
  have hpos : ∀ dimension : UInt64, dimension ≠ 0 → 0 < dimension.toNat :=
    fun _ => toNat_pos_of_ne
  by_cases htokens : tokens = 0
  · rw [if_pos htokens] at h
    cases h
  rw [if_neg htokens] at h
  split at h
  · cases h
  · rename_i product hproduct
    split at hproduct
    · by_cases hwidth : width = 0
      · rw [if_pos hwidth] at hproduct
        cases hproduct
      rw [if_neg hwidth] at hproduct
      split at hproduct
      · cases hproduct
        split at h
        · cases h
        · rename_i hlength
          rw [not_not] at hlength
          refine ⟨?_, hpos _ htokens, hpos _ hwidth⟩
          rw [← hlength, Nat.one_mul]
      · cases hproduct
    · cases hproduct

omit [Field F] [LinearOrder F] in
theorem getD_map_range {count index : Nat} (f : Nat → F) (default : F) (h : index < count) :
    ((List.range count).map f).getD index default = f index := by
  rw [List.getD_eq_getElem?_getD, List.getElem?_map, List.getElem?_range h]
  rfl

omit [LinearOrder F] in
/-- The rows of a product, one number for each output column. -/
theorem matmul_rows {input weight result : GenericTensor F} {tokens width : UInt64}
    (hshape : input.dimensions = [1, tokens, width]) (h : matmul input weight = .ok result) :
    input.values.length = tokens.toNat * width.toNat ∧ 0 < tokens.toNat ∧ 0 < width.toNat ∧
      result.dimensions = [1, tokens, weight.dimensions.getD 0 0] ∧
      result.values.length = tokens.toNat * (weight.dimensions.getD 0 0).toNat ∧
      ∀ token < tokens.toNat, ∀ column < (weight.dimensions.getD 0 0).toNat,
        result.values.getD (token * (weight.dimensions.getD 0 0).toNat + column) 0 =
          ∑ i ∈ Finset.range width.toNat, input.values.getD (token * width.toNat + i) 0 *
            weight.values.getD (column * width.toNat + i) 0 := by
  simp only [matmul, checkedLastDimension, bind_eq_ok_iff, okOr_eq_ok_iff, rejectIf_eq_ok_iff]
    at h
  obtain ⟨last, hlast, _, -, elements, helements, _, -, _, -, heq⟩ := h
  rw [hshape] at hlast
  obtain rfl : width = last := Option.some.inj hlast
  obtain ⟨hlength, htokens, hwidth⟩ := length_of_elements hshape helements
  have hrows : input.values.length / width.toNat = tokens.toNat := by
    rw [hlength, Nat.mul_div_cancel _ hwidth]
  have hhead : weight.dimensions.headD 0 = weight.dimensions.getD 0 0 := by
    cases weight.dimensions <;> rfl
  rw [hrows, hhead, hshape] at heq
  cases heq
  refine ⟨hlength, htokens, hwidth, rfl, ?_, ?_⟩
  · show (List.map _ _).length = _
    rw [List.length_map, List.length_range]
  · intro token htoken column hcolumn
    obtain ⟨hdiv, hmod⟩ := div_mod_block hcolumn token
    show (List.map _ _).getD _ 0 = _
    rw [getD_map_range _ _ (block_lt htoken hcolumn), hdiv, hmod, rowDot_eq_sum]

omit [LinearOrder F] in
/-- Where two lists of one length end, so does their combination. -/
theorem getD_zipWith {f : F → F → F} (hf : f 0 0 = 0) {a b : List F} (h : a.length = b.length)
    (index : Nat) : (List.zipWith f a b).getD index 0 = f (a.getD index 0) (b.getD index 0) := by
  simp only [List.getD_eq_getElem?_getD, List.getElem?_zipWith]
  by_cases hindex : index < a.length
  · rw [List.getElem?_eq_getElem hindex, List.getElem?_eq_getElem (h ▸ hindex)]
    rfl
  · rw [List.getElem?_eq_none (Nat.le_of_not_lt hindex),
      List.getElem?_eq_none (h ▸ Nat.le_of_not_lt hindex)]
    exact hf.symm

omit [Field F] [LinearOrder F] in
theorem getD_map_of_lt {f : F → F} {values : List F} {index : Nat} {default : F}
    (h : index < values.length) : (values.map f).getD index default = f (values.getD index default) := by
  rw [List.getD_eq_getElem?_getD, List.getD_eq_getElem?_getD, List.getElem?_map,
    List.getElem?_eq_getElem h]
  rfl

end Matmul

end VBuf.Runtime
