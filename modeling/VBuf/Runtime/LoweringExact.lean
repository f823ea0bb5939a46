import Mathlib.Data.Set.Function
import VBuf.Runtime.GraphSafety

/-!
# What a lowering keeps

`lower_region` replaces the semantic keys by the tensors they are bound to and keeps
everything else.  The acquisition order of the graph is the order of first use.
-/

namespace VBuf.Runtime

open VBuf.Lib

/-! ### Acquisition order -/

/-- An input of the inner loop of `acquisition_order`. -/
def acquireInput (result : List UInt32) : InputRef → List UInt32
  | .tensor id => if result.contains id then result else result ++ [id]
  | .value _ => result

/-- `acquisition_order`. -/
def ExecutionGraph.acquisitionOrder {F : Type} (graph : ExecutionGraph F) : List UInt32 :=
  graph.operations.foldl (fun result operation => operation.inputs.foldl acquireInput result) []

/-- The tensor of an input. -/
def InputRef.tensor? : InputRef → Option UInt32
  | .tensor id => some id
  | .value _ => none

/-- The tensors that the operations read, in the order of the reads. -/
def ExecutionGraph.reads {F : Type} (graph : ExecutionGraph F) : List UInt32 :=
  graph.operations.flatMap fun operation => operation.inputs.filterMap InputRef.tensor?

/-- The first occurrences of the reads. -/
structure FirstUses (reads order : List UInt32) : Prop where
  nodup : order.Nodup
  mem_iff : ∀ tensor, tensor ∈ order ↔ tensor ∈ reads
  ordered : order.Pairwise fun a b => reads.idxOf a < reads.idxOf b

theorem FirstUses.step {reads order : List UInt32} (h : FirstUses reads order) (id : UInt32) :
    FirstUses (reads ++ [id]) (if order.contains id then order else order ++ [id]) := by
  have hindex : ∀ a ∈ order, (reads ++ [id]).idxOf a = reads.idxOf a := fun a ha =>
    List.idxOf_append_of_mem ((h.mem_iff a).1 ha)
  have hordered : order.Pairwise fun a b => (reads ++ [id]).idxOf a < (reads ++ [id]).idxOf b := by
    refine h.ordered.imp_of_mem fun ha hb hlt => ?_
    rw [hindex _ ha, hindex _ hb]
    exact hlt
  by_cases hmem : id ∈ order
  · rw [if_pos (List.contains_iff_mem.2 hmem)]
    refine ⟨h.nodup, fun tensor => ?_, hordered⟩
    rw [List.mem_append, List.mem_singleton, h.mem_iff]
    refine ⟨Or.inl, ?_⟩
    rintro (hold | rfl)
    · exact hold
    · exact (h.mem_iff _).1 hmem
  · rw [if_neg (fun hcontains => hmem (List.contains_iff_mem.1 hcontains))]
    refine ⟨?_, fun tensor => ?_, ?_⟩
    · exact List.nodup_append.2 ⟨h.nodup, List.nodup_singleton id, by
        rintro a ha b hb rfl
        exact hmem (List.mem_singleton.1 hb ▸ ha)⟩
    · rw [List.mem_append, List.mem_append, h.mem_iff]
    · refine List.pairwise_append.2 ⟨hordered, List.pairwise_singleton _ _, ?_⟩
      intro a ha b hb
      -- a new tensor comes behind all reads so far
      obtain rfl := List.mem_singleton.1 hb
      have hnew : b ∉ reads := fun hold => hmem ((h.mem_iff b).2 hold)
      rw [hindex a ha, List.idxOf_append_of_notMem hnew]
      exact Nat.lt_of_lt_of_le (List.idxOf_lt_length_of_mem ((h.mem_iff a).1 ha))
        (Nat.le_add_right _ _)

theorem FirstUses.inputs {reads order : List UInt32} (h : FirstUses reads order)
    (inputs : List InputRef) :
    FirstUses (reads ++ inputs.filterMap InputRef.tensor?) (inputs.foldl acquireInput order) := by
  induction inputs generalizing reads order with
  | nil =>
      rw [List.filterMap_nil, List.append_nil]
      exact h
  | cons input rest ih =>
      rw [List.foldl_cons]
      cases input with
      | tensor id =>
          have hstep := ih (h.step id)
          rw [← List.append_cons] at hstep
          exact hstep
      | value id => exact ih h

/-- The acquisition order lists the tensors that are read, each once, by first use. -/
theorem acquisitionOrder_firstUses {F : Type} (graph : ExecutionGraph F) :
    FirstUses graph.reads graph.acquisitionOrder := by
  have hloop : ∀ (operations : List (Operation F)) (reads order : List UInt32),
      FirstUses reads order →
      FirstUses (reads ++ operations.flatMap fun operation =>
          operation.inputs.filterMap InputRef.tensor?)
        (operations.foldl (fun result operation => operation.inputs.foldl acquireInput result)
          order) := by
    intro operations
    induction operations with
    | nil =>
        intro reads order h
        rw [List.flatMap_nil, List.append_nil]
        exact h
    | cons operation rest ih =>
        intro reads order h
        rw [List.foldl_cons, List.flatMap_cons, ← List.append_assoc]
        exact ih _ _ (h.inputs operation.inputs)
  exact hloop graph.operations [] []
    ⟨List.nodup_nil, fun _ => Iff.rfl, List.Pairwise.nil⟩

/-! ### Bindings -/

/-- The bindings are found exactly under their keys, which are distinct. -/
theorem bindTensors_eq_ok {list : List TensorBinding} {start bindings : AssocMap String UInt32}
    (h : bindTensors list start = .ok bindings) :
    (list.map TensorBinding.semantic).Nodup ∧
      (∀ binding ∈ list, start.lookup binding.semantic = none) ∧
      ∀ key tensor, bindings.lookup key = some tensor ↔
        start.lookup key = some tensor ∨ ⟨key, tensor⟩ ∈ list := by
  induction list generalizing start with
  | nil =>
      cases h
      refine ⟨List.nodup_nil, List.forall_mem_nil _, fun key tensor => ?_⟩
      exact (or_iff_left List.not_mem_nil).symm
  | cons binding rest ih =>
      rw [bindTensors] at h
      split at h
      · cases h
      next hnew =>
        have hnone : start.lookup binding.semantic = none := by
          rwa [Bool.not_eq_true, Option.isSome_eq_false_iff, Option.isNone_iff_eq_none] at hnew
        obtain ⟨hnodup, hfresh, hlookup⟩ := ih h
        have hrest : ∀ other ∈ rest, other.semantic ≠ binding.semantic ∧
            start.lookup other.semantic = none := by
          intro other hother
          have hfree := hfresh other hother
          rw [AssocMap.lookup_insert_eq] at hfree
          split at hfree
          · cases hfree
          next hne => exact ⟨hne, hfree⟩
        refine ⟨?_, List.forall_mem_cons.2 ⟨hnone, fun other hother => (hrest other hother).2⟩, ?_⟩
        · rw [List.map_cons, List.nodup_cons]
          refine ⟨fun hmem => ?_, hnodup⟩
          obtain ⟨other, hother, heq⟩ := List.mem_map.1 hmem
          exact (hrest other hother).1 heq
        · intro key tensor
          rw [hlookup, AssocMap.lookup_insert_eq, List.mem_cons]
          split
          next heq =>
              subst heq
              rw [hnone]
              constructor
              · rintro (hfirst | hold)
                · exact Or.inr (Or.inl (by rw [← Option.some.inj hfirst]))
                · exact Or.inr (Or.inr hold)
              · rintro (hstart | hfirst | hold)
                · cases hstart
                · exact Or.inl (by rw [← hfirst])
                · exact Or.inr hold
          next hne =>
              refine or_congr_right (or_iff_right ?_).symm
              rintro rfl
              exact hne rfl

/-- The binding of a key that is found is the only one of the key. -/
theorem bindTensors_unique {list : List TensorBinding} {bindings : AssocMap String UInt32}
    (h : bindTensors list ∅ = .ok bindings) {key : String} {tensor : UInt32}
    (hlookup : bindings.lookup key = some tensor) :
    ⟨key, tensor⟩ ∈ list ∧ ∀ binding ∈ list, binding.semantic = key → binding.tensor = tensor := by
  obtain ⟨-, -, hiff⟩ := bindTensors_eq_ok h
  refine ⟨((hiff key tensor).1 hlookup).resolve_left nofun, ?_⟩
  rintro ⟨_, other⟩ hmem rfl
  have hother := (hiff _ other).2 (Or.inr hmem)
  exact Option.some.inj (hother.symm.trans hlookup)

/-! ### Operations -/

section Operations

variable {F : Type} [Field F] [LinearOrder F] {math : ExactMath F}

/-- A value input is kept, and a semantic key stands for the tensor of its only binding. -/
inductive InputLowers (bindings : List TensorBinding) : PortableInput → InputRef → Prop
  | value (id : UInt32) : InputLowers bindings (.value id) (.value id)
  | tensor {key : String} {id : UInt32} (hmem : ⟨key, id⟩ ∈ bindings)
      (hunique : ∀ binding ∈ bindings, binding.semantic = key → binding = ⟨key, id⟩) :
      InputLowers bindings (.tensor key) (.tensor id)

/-- An operation and what it is lowered to. -/
structure Lowers (bindings : List TensorBinding) (source : PortableOperation F)
    (lowered : Operation F) : Prop where
  id : lowered.id = source.id
  kind : lowered.kind = source.kind.lowered
  inputs : List.Forall₂ (InputLowers bindings) source.inputs lowered.inputs
  output : lowered.output = source.output
  attributes : lowered.attributes = source.attributes

theorem inputLowers_of_lowerInput {list : List TensorBinding} {bindings : AssocMap String UInt32}
    (hbindings : bindTensors list ∅ = .ok bindings) {input : PortableInput} {ref : InputRef}
    (h : lowerInput bindings input = .ok ref) : InputLowers list input ref := by
  cases input with
  | value id =>
      cases h
      exact .value id
  | tensor key =>
      rw [lowerInput] at h
      cases hlookup : bindings.lookup key with
      | some tensor =>
          rw [hlookup] at h
          cases h
          obtain ⟨hmem, hunique⟩ := bindTensors_unique hbindings hlookup
          refine .tensor hmem ?_
          rintro ⟨_, other⟩ hother rfl
          rw [← hunique _ hother rfl]
      | none =>
          rw [hlookup] at h
          cases h

/-- The two steps of a lowered operation: its checks, and its inputs. -/
theorem lowerOperation_eq_ok_iff {program : PortableProgram} {bindings : AssocMap String UInt32}
    {source : PortableOperation F} {lowered : Operation F} :
    lowerOperation math program bindings source = .ok lowered ↔
      checkOperation math program source = .ok () ∧
        ∃ inputs, source.inputs.mapM (lowerInput bindings) = .ok inputs ∧
          ⟨source.id, source.kind.lowered, inputs, source.output, source.attributes⟩ = lowered := by
  unfold lowerOperation
  rw [bind_eq_ok_iff]
  constructor
  · rintro ⟨_, hchecks, h⟩
    obtain ⟨inputs, hinputs, h⟩ := bind_eq_ok_iff.1 h
    exact ⟨hchecks, inputs, hinputs, Except.ok.inj h⟩
  · rintro ⟨hchecks, inputs, hinputs, h⟩
    exact ⟨(), hchecks, bind_eq_ok_iff.2 ⟨inputs, hinputs, congrArg Except.ok h⟩⟩

/-- The parts of a lowered graph. -/
theorem lowerRegion_eq_ok_iff {program : PortableProgram} {region : PortableRegion F}
    {graph : ExecutionGraph F} :
    lowerRegion math program region = .ok graph ↔
      ∃ bindings, bindTensors program.tensorBindings ∅ = .ok bindings ∧
        ∃ operations, region.operations.mapM (lowerOperation math program bindings) =
            .ok operations ∧
          ⟨region.input, region.output,
            program.tensorBindings.map fun binding => ⟨binding.tensor, binding.semantic, 0, 0⟩,
            operations⟩ = graph := by
  unfold lowerRegion
  rw [bind_eq_ok_iff]
  refine exists_congr fun bindings => and_congr_right fun _ => ?_
  rw [bind_eq_ok_iff]
  exact exists_congr fun operations => and_congr_right fun _ => ⟨Except.ok.inj, congrArg Except.ok⟩

theorem lowers_of_lowerRegion {program : PortableProgram} {region : PortableRegion F}
    {graph : ExecutionGraph F} (h : lowerRegion math program region = .ok graph) :
    graph.input = region.input ∧ graph.output = region.output ∧
      List.Forall₂ (Lowers program.tensorBindings) region.operations graph.operations := by
  obtain ⟨bindings, hbindings, operations, hoperations, rfl⟩ := lowerRegion_eq_ok_iff.1 h
  refine ⟨rfl, rfl, (mapM_eq_ok_iff.1 hoperations).imp fun source lowered hlowered => ?_⟩
  obtain ⟨-, inputs, hinputs, rfl⟩ := lowerOperation_eq_ok_iff.1 hlowered
  refine ⟨rfl, rfl, (mapM_eq_ok_iff.1 hinputs).imp fun input ref hinput => ?_, rfl, rfl⟩
  exact inputLowers_of_lowerInput hbindings hinput

/-- The operations of two lists are lowered one list after the other. -/
theorem lowerRegion_append {program : PortableProgram} {region : PortableRegion F}
    {first second : List (PortableOperation F)} {graph : ExecutionGraph F} :
    lowerRegion math program { region with operations := first ++ second } = .ok graph ↔
      ∃ front back,
        lowerRegion math program { region with operations := first } = .ok front ∧
        lowerRegion math program { region with operations := second } = .ok back ∧
        graph = { front with operations := front.operations ++ back.operations } := by
  constructor
  · intro h
    obtain ⟨bindings, hbindings, operations, hoperations, rfl⟩ := lowerRegion_eq_ok_iff.1 h
    rw [List.mapM_append] at hoperations
    obtain ⟨front, hfront, hrest⟩ := bind_eq_ok_iff.1 hoperations
    obtain ⟨back, hback, hjoined⟩ := bind_eq_ok_iff.1 hrest
    refine ⟨_, _, lowerRegion_eq_ok_iff.2 ⟨bindings, hbindings, front, hfront, rfl⟩,
      lowerRegion_eq_ok_iff.2 ⟨bindings, hbindings, back, hback, rfl⟩, ?_⟩
    rw [← Except.ok.inj hjoined]
  · rintro ⟨front, back, hfirst, hsecond, rfl⟩
    obtain ⟨bindings, hbindings, front, hfront, rfl⟩ := lowerRegion_eq_ok_iff.1 hfirst
    obtain ⟨bindings', hbindings', back, hback, rfl⟩ := lowerRegion_eq_ok_iff.1 hsecond
    -- The bindings do not depend on the operations.
    obtain rfl : bindings = bindings' := Except.ok.inj (hbindings.symm.trans hbindings')
    refine lowerRegion_eq_ok_iff.2 ⟨bindings, hbindings, front ++ back, ?_, rfl⟩
    rw [List.mapM_append]
    exact bind_eq_ok_iff.2 ⟨front, hfront, bind_eq_ok_iff.2 ⟨back, hback, rfl⟩⟩

/-! ### Renaming -/

/-- Another name for a semantic key. -/
def PortableInput.rename (f : String → String) : PortableInput → PortableInput
  | .value id => .value id
  | .tensor key => .tensor (f key)

def PortableOperation.rename (f : String → String) (operation : PortableOperation F) :
    PortableOperation F :=
  { operation with inputs := operation.inputs.map (PortableInput.rename f) }

def PortableRegion.rename (f : String → String) (region : PortableRegion F) : PortableRegion F :=
  { region with operations := region.operations.map (PortableOperation.rename f) }

def PortableProgram.rename (f : String → String) (program : PortableProgram) : PortableProgram :=
  { program with tensorBindings := program.tensorBindings.map fun binding =>
      { binding with semantic := f binding.semantic } }

/-- The semantic keys of a program and a region. -/
def semanticKeys (program : PortableProgram) (region : PortableRegion F) : Set String :=
  { key | (∃ binding ∈ program.tensorBindings, binding.semantic = key) ∨
      ∃ operation ∈ region.operations, .tensor key ∈ operation.inputs }

/-- Distinct keys can be bound. -/
theorem exists_bindTensors {list : List TensorBinding} {start : AssocMap String UInt32}
    (hnodup : (list.map TensorBinding.semantic).Nodup)
    (hfresh : ∀ binding ∈ list, start.lookup binding.semantic = none) :
    ∃ bindings, bindTensors list start = .ok bindings := by
  induction list generalizing start with
  | nil => exact ⟨start, rfl⟩
  | cons binding rest ih =>
      rw [List.map_cons, List.nodup_cons] at hnodup
      rw [List.forall_mem_cons] at hfresh
      rw [bindTensors, hfresh.1, if_neg (by decide)]
      refine ih hnodup.2 fun other hother => ?_
      rw [AssocMap.lookup_insert_eq, if_neg, hfresh.2 other hother]
      intro heq
      exact hnodup.1 (List.mem_map.2 ⟨other, hother, heq⟩)

theorem checkOperation_rename (program : PortableProgram) (operation : PortableOperation F)
    (f : String → String) :
    checkOperation math (program.rename f) (operation.rename f) =
      checkOperation math program operation := by
  have hlength : (operation.rename f).inputs.length = operation.inputs.length := List.length_map ..
  unfold checkOperation checkRotary checkHeadReshape checkWeightedAdd checkAttentionAttributes
  rw [hlength]
  rfl

/-- The new names find the tensors of the old ones. -/
theorem lowerInput_rename {list : List TensorBinding} {bindings renamed : AssocMap String UInt32}
    {f : String → String} (hbindings : bindTensors list ∅ = .ok bindings)
    (hrenamed : bindTensors (list.map fun binding => { binding with semantic := f binding.semantic })
      ∅ = .ok renamed) {input : PortableInput} {ref : InputRef}
    (h : lowerInput bindings input = .ok ref) :
    lowerInput renamed (input.rename f) = .ok ref := by
  cases input with
  | value id => exact h
  | tensor key =>
      rw [lowerInput] at h
      cases hlookup : bindings.lookup key with
      | none =>
          rw [hlookup] at h
          cases h
      | some tensor =>
          have hmem := (bindTensors_unique hbindings hlookup).1
          -- Here nothing is asked of the renaming: the renamed keys were bound without a clash.
          have hfound : renamed.lookup (f key) = some tensor :=
            ((bindTensors_eq_ok hrenamed).2.2 _ _).2
              (Or.inr (List.mem_map.2 ⟨⟨key, tensor⟩, hmem, rfl⟩))
          rw [hlookup] at h
          rw [PortableInput.rename, lowerInput, hfound]
          exact h

theorem lowerOperation_rename {program : PortableProgram} {bindings renamed : AssocMap String UInt32}
    {f : String → String} (hbindings : bindTensors program.tensorBindings ∅ = .ok bindings)
    (hrenamed : bindTensors (program.rename f).tensorBindings ∅ = .ok renamed)
    {source : PortableOperation F} {lowered : Operation F}
    (h : lowerOperation math program bindings source = .ok lowered) :
    lowerOperation math (program.rename f) renamed (source.rename f) = .ok lowered := by
  obtain ⟨hchecks, inputs, hinputs, rfl⟩ := lowerOperation_eq_ok_iff.1 h
  refine lowerOperation_eq_ok_iff.2 ⟨?_, inputs, ?_, rfl⟩
  · rw [checkOperation_rename, hchecks]
  · rw [mapM_eq_ok_iff] at hinputs ⊢
    refine List.forall₂_map_left_iff.2 (hinputs.imp fun input ref hinput => ?_)
    exact lowerInput_rename hbindings hrenamed hinput

/-- Other names for the keys change the names of the tensors and nothing else. -/
theorem lowerRegion_rename {program : PortableProgram} {region : PortableRegion F}
    {graph : ExecutionGraph F} (h : lowerRegion math program region = .ok graph)
    {f : String → String} (hinj : Set.InjOn f (semanticKeys program region)) :
    lowerRegion math (program.rename f) (region.rename f) =
      .ok { graph with
        tensors := graph.tensors.map fun tensor => { tensor with name := f tensor.name } } := by
  obtain ⟨bindings, hbindings, operations, hoperations, rfl⟩ := lowerRegion_eq_ok_iff.1 h
  obtain ⟨hnodup, -, -⟩ := bindTensors_eq_ok hbindings
  -- Distinct keys stay distinct, as all of them are keys of the program.
  have hdistinct : ((program.rename f).tensorBindings.map TensorBinding.semantic).Nodup := by
    have hnames : (program.rename f).tensorBindings.map TensorBinding.semantic =
        (program.tensorBindings.map TensorBinding.semantic).map f := by
      rw [PortableProgram.rename, List.map_map, List.map_map]
      rfl
    rw [hnames]
    refine hnodup.map_on fun a ha b hb => ?_
    obtain ⟨first, hfirst, rfl⟩ := List.mem_map.1 ha
    obtain ⟨second, hsecond, rfl⟩ := List.mem_map.1 hb
    exact hinj (Or.inl ⟨first, hfirst, rfl⟩) (Or.inl ⟨second, hsecond, rfl⟩)
  obtain ⟨renamed, hrenamed⟩ := exists_bindTensors hdistinct fun _ _ => AList.lookup_empty _
  refine lowerRegion_eq_ok_iff.2 ⟨renamed, hrenamed, operations, ?_, ?_⟩
  · rw [mapM_eq_ok_iff] at hoperations ⊢
    refine List.forall₂_map_left_iff.2 (hoperations.imp fun source lowered hlowered => ?_)
    exact lowerOperation_rename hbindings hrenamed hlowered
  · have htensors : (program.rename f).tensorBindings.map (fun binding =>
          (⟨binding.tensor, binding.semantic, 0, 0⟩ : PersistentTensor)) =
        (program.tensorBindings.map fun binding =>
          (⟨binding.tensor, binding.semantic, 0, 0⟩ : PersistentTensor)).map fun tensor =>
            { tensor with name := f tensor.name } := by
      rw [PortableProgram.rename, List.map_map, List.map_map]
      rfl
    rw [htensors]
    rfl

end Operations

/-! ### The whole lowering -/

/-- A lowered graph has the operations of the region with every key replaced by the tensor
of its only binding; its acquisition order is that of first use; lists of operations are
lowered one after the other, and the names of the keys do not matter. -/
theorem lowerRegion_preserves {F : Type} [Field F] [LinearOrder F] {math : ExactMath F}
    {program : PortableProgram} {region : PortableRegion F} {graph : ExecutionGraph F}
    (h : lowerRegion math program region = .ok graph) :
    (graph.input = region.input ∧ graph.output = region.output ∧
      List.Forall₂ (Lowers program.tensorBindings) region.operations graph.operations) ∧
    FirstUses graph.reads graph.acquisitionOrder ∧
    (∀ first second whole,
      lowerRegion math program { region with operations := first ++ second } = .ok whole ↔
        ∃ front back,
          lowerRegion math program { region with operations := first } = .ok front ∧
          lowerRegion math program { region with operations := second } = .ok back ∧
          whole = { front with operations := front.operations ++ back.operations }) ∧
    ∀ f : String → String, Set.InjOn f (semanticKeys program region) →
      ∃ renamed, lowerRegion math (program.rename f) (region.rename f) = .ok renamed ∧
        renamed.operations = graph.operations ∧
        renamed.tensors.map PersistentTensor.id = graph.tensors.map PersistentTensor.id ∧
        renamed.acquisitionOrder = graph.acquisitionOrder := by
  refine ⟨lowers_of_lowerRegion h, acquisitionOrder_firstUses graph,
    fun _ _ _ => lowerRegion_append, fun f hinj => ?_⟩
  refine ⟨_, lowerRegion_rename h hinj, rfl, ?_, rfl⟩
  rw [List.map_map]
  rfl

section Bias

open Checked

theorem lowerRegion_preserves_bias :
    (biasGraph.input = biasRegion.input ∧ biasGraph.output = biasRegion.output ∧
      List.Forall₂ (Lowers biasProgram.tensorBindings) biasRegion.operations
        biasGraph.operations) ∧
      FirstUses biasGraph.reads biasGraph.acquisitionOrder :=
  (lowerRegion_preserves lowerRegion_bias).imp_right And.left

end Bias

end VBuf.Runtime
