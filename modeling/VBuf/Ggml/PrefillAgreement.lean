import VBuf.Ggml.BatchedMoe
import VBuf.Runtime.ChunkedAttention

/-!
# Batched prefill is sequential prefill

Both go through the same grid of cells, one for each row and layer: the sequential
prefill row by row, the batched prefill layer by layer.
-/

namespace VBuf.Ggml.Prefill

open VBuf.Lib VBuf.Runtime

variable {F : Type} [Field F] [LinearOrder F] (math : ExactMath F) (rope : RopeMath F)

/-- `run_sequence` for the rows in order, at consecutive positions. -/
def runSequenceRows (plans : List (LayerPlan F)) : Nat → List (Activation F) →
    List (LayerState F) → Except String (List (Activation F) × List (LayerState F))
  | _, [], states => .ok ([], states)
  | position, input :: rest, states =>
      match runSequence math rope plans input position states with
      | .error error => .error error
      | .ok (run, states) =>
          if run.ok = false then .error run.failureDetail
          else
            match runSequenceRows plans (position + 1) rest states with
            | .error error => .error error
            | .ok (outputs, states) => .ok (run.output :: outputs, states)

/-! ### The cells -/

/-- The attention of a row, and what the feed-forward takes of it. -/
def attendCell (plan : LayerPlan F) (position : Nat) (current : Activation F)
    (state : LayerState F) : Option (List F × LayerState F) :=
  let attended := computeToken math rope plan.attention current.values position state
  if attended.1 = [] then none
  else
    some (if plan.blockId = 0 then
        (List.range 2048).map fun i => attended.1.getD i 0 + current.values.getD i 0
      else attended.1, attended.2)

/-- The feed-forward of a row. -/
def feedForwardCell (plan : LayerPlan F) (values : List F) : Option (Activation F) :=
  if plan.blockId = 0 then some (denseRow plan values) else moeRow math plan values

/-- A row through a layer. -/
def layerCell (plan : LayerPlan F) (position : Nat) (current : Activation F)
    (state : LayerState F) : Option (Activation F × LayerState F) :=
  (attendCell math rope plan position current state).bind fun attended =>
    (feedForwardCell math plan attended.1).map fun output => (output, attended.2)

variable {math} {rope}

theorem computeToken_length (tensors : AttentionTensors F) (input : List F) (position : Nat)
    (state : LayerState F) : (computeToken math rope tensors input position state).1 = [] ∨
      (computeToken math rope tensors input position state).1.length = 2048 := by
  unfold computeToken
  simp only
  split
  · exact Or.inl rfl
  · split
    · exact Or.inl rfl
    · split
      · exact Or.inl rfl
      · exact Or.inr (tensors.output.length_apply _)

theorem attendCell_length {plan : LayerPlan F} {position : Nat} {current : Activation F}
    {state : LayerState F} {out : List F} {after : LayerState F}
    (h : attendCell math rope plan position current state = some (out, after)) :
    out.length = 2048 := by
  rw [attendCell] at h
  split at h
  next => cases h
  next hne =>
      have hlength := (computeToken_length plan.attention current.values position state).resolve_left
        hne
      have hout := congrArg Prod.fst (Option.some.inj h)
      simp only at hout
      rw [← hout]
      split
      · rw [List.length_map, List.length_range]
      · exact hlength

/-! ### The sequential prefill -/

/-- What `run_sequence` returns when it succeeds. -/
def succeeded (result : Except String (SequenceRun F × List (LayerState F))) :
    Option (Activation F × List (LayerState F)) :=
  result.toOption.bind fun result =>
    if result.1.ok = false then none else some (result.1.output, result.2)

theorem runDenseLayer_eq (hone : math.isFinite 1 = true) (plan : LayerPlan F) {values : List F}
    (hvalues : values.length = 2048) :
    runDenseLayer math plan (Activation.row values) =
      { finalOutput := (denseRow plan values).values } := by
  unfold runDenseLayer
  simp only [Activation.row, weightedMerge_ones hone (plan.dense.length_apply _) hvalues
    (by decide : 0 < 2048)]
  rfl

omit [Field F] [LinearOrder F] in
theorem succeeded_cons (result : Except String (SequenceRun F × List (LayerState F)))
    (state : LayerState F) :
    succeeded (match result with
      | .error error => .error error
      | .ok (run, states) => .ok (run, state :: states)) =
      (succeeded result).map fun later => (later.1, state :: later.2) := by
  cases result with
  | error error => rfl
  | ok result =>
      unfold succeeded
      simp only [Except.toOption, Option.bind_some]
      by_cases hok : result.1.ok = false
      · rw [if_pos hok, if_pos hok]
        rfl
      · rw [if_neg hok, if_neg hok]
        rfl

/-- A row goes through the layers cell by cell. -/
theorem runSequenceFrom_eq (hone : math.isFinite 1 = true) (position : Nat)
    (plans : List (LayerPlan F)) (actual : Activation F) (states : List (LayerState F))
    (run : SequenceRun F) (hrun : run.ok = true) :
    succeeded (runSequenceFrom math rope position plans actual states run) =
      throughLayers (layerCell math rope) position plans actual states := by
  induction plans generalizing actual states run with
  | nil =>
      rw [runSequenceFrom, throughLayers, succeeded]
      simp [Except.toOption, hrun]
  | cons plan plans ih =>
      cases states with
      | nil => rfl
      | cons state states =>
          rw [runSequenceFrom, throughLayers, layerCell, attendCell]
          simp only
          by_cases hempty : (computeToken math rope plan.attention actual.values position state).1 = []
          · rw [if_pos hempty, if_pos hempty]
            rfl
          · rw [if_neg hempty, if_neg hempty, Option.bind_some]
            simp only [feedForwardCell]
            by_cases hdense : plan.blockId = 0
            · rw [if_pos hdense, if_pos hdense, if_pos hdense, Option.map_some, Option.bind_some,
                runDenseLayer_eq hone plan (by rw [List.length_map, List.length_range])]
              refine (succeeded_cons _ _).trans ?_
              rw [ih _ states { run with completedBlocks := run.completedBlocks + 1 } hrun]
              rfl
            · rw [if_neg hdense, if_neg hdense, if_neg hdense, moeRow]
              cases runLayer math plan (Activation.row
                  (computeToken math rope plan.attention actual.values position state).1) with
              | error error => rfl
              | ok ffn =>
                  simp only [Except.toOption, Option.bind_some]
                  by_cases hok : ffn.ok = false
                  · rw [if_pos hok, if_pos hok]
                    rfl
                  · rw [if_neg hok, if_neg hok, Option.map_some, Option.bind_some]
                    refine (succeeded_cons _ _).trans ?_
                    rw [ih _ states { run with completedBlocks := run.completedBlocks + 1 } hrun]

/-- The rows go through the layers one after another. -/
theorem runSequenceRows_eq (hone : math.isFinite 1 = true) (plans : List (LayerPlan F))
    (position : Nat) (inputs : List (Activation F)) (states : List (LayerState F)) :
    (runSequenceRows math rope plans position inputs states).toOption =
      throughRows (fun position => throughLayers (layerCell math rope) position plans) position
        inputs states := by
  induction inputs generalizing position states with
  | nil => rfl
  | cons input rest ih =>
      have hfirst := @runSequenceFrom_eq F _ _ math rope hone position plans input states {} rfl
      rw [runSequenceRows, throughRows, ← hfirst]
      unfold runSequence succeeded
      cases runSequenceFrom math rope position plans input states {} with
      | error error => rfl
      | ok result =>
          simp only [Except.toOption, Option.bind_some]
          by_cases hok : result.1.ok = false
          · rw [if_pos hok, if_pos hok]
            rfl
          · rw [if_neg hok, if_neg hok, Option.bind_some, ← ih (position + 1) result.2]
            cases runSequenceRows math rope plans (position + 1) rest result.2 with
            | error error => rfl
            | ok later => rfl

/-! ### The batched prefill -/

/-- The attention of the rows of a layer. -/
theorem attentionRows_eq (plan : LayerPlan F) (layer position : Nat) (current : List (Activation F))
    (state : LayerState F) (hlayer : layer = 0 ↔ plan.blockId = 0) :
    (attentionRows math rope plan layer position current state).toOption =
      (throughRows (attendCell math rope plan) position current state).map fun attended =>
        (attended.1.map Activation.row, attended.2) := by
  induction current generalizing position state with
  | nil => rfl
  | cons row rest ih =>
      rw [attentionRows, throughRows, attendCell]
      simp only
      rcases @computeToken_length F _ _ math rope plan.attention row.values position
        state with hempty | hlength
      · rw [if_pos hempty, if_pos hempty]
        rfl
      · have hne : ¬ (computeToken math rope plan.attention row.values position state).1 = [] := by
          intro hnil
          rw [hnil] at hlength
          cases hlength
        rw [if_neg hne, if_neg hne, Option.bind_some, hlength, if_congr hlayer rfl rfl]
        have hrest := ih (position + 1)
          (computeToken math rope plan.attention row.values position state).2
        cases hafter : attentionRows math rope plan layer (position + 1) rest
            (computeToken math rope plan.attention row.values position state).2 with
        | error error =>
            rw [hafter] at hrest
            cases hthrough : throughRows (attendCell math rope plan) (position + 1) rest
                (computeToken math rope plan.attention row.values position state).2 with
            | none => rfl
            | some _ =>
                rw [hthrough] at hrest
                cases hrest
        | ok later =>
            rw [hafter] at hrest
            cases hthrough : throughRows (attendCell math rope plan) (position + 1) rest
                (computeToken math rope plan.attention row.values position state).2 with
            | none =>
                rw [hthrough] at hrest
                cases hrest
            | some attended =>
                rw [hthrough] at hrest
                have hsame := Option.some.inj hrest
                simp only [Except.toOption, hsame]
                rfl

/-- The feed-forward of the rows of a layer. -/
theorem feedForward_eq (hone : math.isFinite 1 = true) (plan : LayerPlan F) (layer : Nat)
    (hlayer : layer = 0 ↔ plan.blockId = 0) {rows : List (List F)}
    (hwidth : ∀ values ∈ rows, values.length = 2048) :
    (if layer = 0 then runDenseLayerBatch plan (rows.map Activation.row)
      else runMoeLayerBatch math plan (rows.map Activation.row)).toOption =
      rows.mapM (feedForwardCell math plan) := by
  rw [if_congr hlayer rfl rfl]
  by_cases hdense : plan.blockId = 0
  · have hcell : feedForwardCell math plan = fun values =>
        (Except.ok (denseRow plan values) : Except String (Activation F)).toOption := by
      funext values
      rw [feedForwardCell, if_pos hdense]
      rfl
    have hall : rows.mapM (fun values => (Except.ok (denseRow plan values) :
        Except String (Activation F))) = .ok (rows.map (denseRow plan)) :=
      mapM_eq_ok_map (fun _ _ => rfl)
    rw [if_pos hdense, runDenseLayerBatch_eq hwidth, hcell, ← toOption_mapM, hall]
  · have hcell : feedForwardCell math plan = moeRow math plan := by
      funext values
      rw [feedForwardCell, if_neg hdense]
    rw [if_neg hdense, runMoeLayerBatch_eq hone hwidth, hcell]

/-- The layers go through the rows one after another. -/
theorem runSequenceBatchedFrom_eq (hone : math.isFinite 1 = true) (layer : Nat)
    (plans : List (LayerPlan F)) (inputs : List (Activation F)) (states : List (LayerState F))
    (hblocks : plans.map (fun plan => plan.blockId.toNat) = List.range' layer plans.length) :
    (runSequenceBatchedFrom math rope layer plans inputs states).toOption =
      layersThroughRows (layerCell math rope) 0 plans inputs states := by
  induction plans generalizing layer inputs states with
  | nil => rfl
  | cons plan plans ih =>
      cases states with
      | nil => rfl
      | cons state states =>
          rw [List.map_cons, List.length_cons, List.range'_succ, List.cons.injEq] at hblocks
          have hlayer : layer = 0 ↔ plan.blockId = 0 := by
            rw [← hblocks.1, ← UInt32.toNat_inj]
            rfl
          have hattention := @attentionRows_eq F _ _ math rope plan layer 0 inputs state
            hlayer
          have hcells : throughRows (layerCell math rope plan) 0 inputs state =
              (throughRows (attendCell math rope plan) 0 inputs state).bind fun attended =>
                (attended.1.mapM (feedForwardCell math plan)).map fun outputs =>
                  (outputs, attended.2) :=
            throughRows_bind (attendCell math rope plan) (feedForwardCell math plan) 0 inputs state
          rw [runSequenceBatchedFrom, layersThroughRows, hcells, toOption_bind, hattention]
          cases hthrough : throughRows (attendCell math rope plan) 0 inputs state with
          | none => rfl
          | some attended =>
              have hwidth : ∀ values ∈ attended.1, values.length = 2048 :=
                throughRows_forall (fun _ _ _ _ _ h => attendCell_length h) hthrough
              simp only [Option.map_some, Option.bind_some]
              rw [toOption_bind, feedForward_eq hone plan layer hlayer hwidth]
              cases attended.1.mapM (feedForwardCell math plan) with
              | none => rfl
              | some current =>
                  simp only [Option.map_some, Option.bind_some]
                  rw [toOption_bind, ih (layer + 1) current states hblocks.2]
                  cases layersThroughRows (layerCell math rope) 0 plans current states with
                  | none => rfl
                  | some later => rfl

/-! ### Fresh states -/

/-- The states of a layer after some positions, with room for those up to a limit. -/
structure StateReady (limit position : Nat) (state : LayerState F) : Prop where
  k_width : state.k.width.toNat = 3072
  v_width : state.v.width.toNat = 2048
  k_length : state.k.values.length = position
  v_length : state.v.values.length = position
  k_room : limit ≤ state.k.maxPositions.toNat
  v_room : limit ≤ state.v.maxPositions.toNat

/-- A prefill of a prompt finds the states empty. -/
def FreshStates (rows : Nat) (states : List (LayerState F)) : Prop :=
  ∀ state ∈ states, StateReady rows 0 state

omit [LinearOrder F] in
theorem length_ropeNeox (input : List F) (position dimension : Nat) :
    (ropeNeox rope input position dimension).length = input.length := by
  unfold ropeNeox
  simp only
  generalize List.range (dimension / 2) = indices
  have hfold : ∀ out : List F, out.length = input.length → (indices.foldl (fun output (i : Nat) =>
      let frequency := rope.pow 10000 (-2 * (i : F) / (dimension : F))
      let angle := (position : F) * frequency
      let c := rope.cos angle
      let s := rope.sin angle
      let a := input.getD i 0
      let b := input.getD (i + dimension / 2) 0
      (output.set i (a * c - b * s)).set (i + dimension / 2) (a * s + b * c)) out).length =
        input.length := by
    induction indices with
    | nil => exact fun out hout => hout
    | cons i rest ih =>
        intro out hout
        rw [List.foldl_cons]
        apply ih
        rw [List.length_set, List.length_set, hout]
  exact hfold input rfl

omit [Field F] [LinearOrder F] in
/-- A state that is ready takes a value of its width. -/
theorem RuntimeStateSlot.append_eq {slot : RuntimeStateSlot F} {value : List F}
    (hwidth : value.length = slot.width.toNat)
    (hroom : slot.values.length < slot.maxPositions.toNat) :
    slot.append value = .ok { slot with values := slot.values ++ [value] } := by
  rw [RuntimeStateSlot.append, if_neg (not_not.2 hwidth), if_neg (Nat.not_le.2 hroom)]

omit [Field F] [LinearOrder F] in
theorem length_flatMap_range {f : Nat → List F} {width : Nat} (n : Nat)
    (hf : ∀ i, (f i).length = width) : ((List.range n).flatMap f).length = n * width := by
  rw [List.flatMap_def, @length_flatten_rows F _ width]
  · rw [List.length_map, List.length_range]
  · intro values hmem
    obtain ⟨i, _, rfl⟩ := List.mem_map.1 hmem
    exact hf i

theorem computeToken_ready (tensors : AttentionTensors F) (input : List F) {limit position : Nat}
    {state : LayerState F} (hposition : position < limit) (h : StateReady limit position state) :
    (computeToken math rope tensors input position state).1.length = 2048 ∧
      StateReady limit (position + 1) (computeToken math rope tensors input position state).2 := by
  have hrope : ∀ values : List F, (ropeNeox rope ((tensors.kvA.apply values).drop 512) position
      64).length = 64 := by
    intro values
    rw [length_ropeNeox, List.length_drop, tensors.kvA.length_apply]
  have hk := fun k : List F => fun hlength : k.length = 3072 =>
    @RuntimeStateSlot.append_eq F state.k k (hlength.trans h.k_width.symm)
      (by rw [h.k_length]; exact Nat.lt_of_lt_of_le hposition h.k_room)
  have hv := fun v : List F => fun hlength : v.length = 2048 =>
    @RuntimeStateSlot.append_eq F state.v v (hlength.trans h.v_width.symm)
      (by rw [h.v_length]; exact Nat.lt_of_lt_of_le hposition h.v_room)
  unfold computeToken
  simp only
  rw [if_neg (by rw [not_or, not_not, not_not]; exact ⟨h.k_length.symm, h.v_length.symm⟩),
    hk _ (@length_flatMap_range F _ 192 16 (fun head => by
      rw [List.length_append, List.length_map, List.length_range, hrope])),
    hv _ (@length_flatMap_range F _ 128 16 (fun head => by
      rw [List.length_map, List.length_range]))]
  refine ⟨tensors.output.length_apply _, ?_⟩
  constructor
  · exact h.k_width
  · exact h.v_width
  · show (state.k.values ++ [_]).length = _
    rw [List.length_append, h.k_length]
    rfl
  · show (state.v.values ++ [_]).length = _
    rw [List.length_append, h.v_length]
    rfl
  · exact h.k_room
  · exact h.v_room

/-- Values of one width merge, when their weights are finite. -/
theorem weightedMerge_isOk (hfinite : ∀ x, math.isFinite x = true) {values : List (List F)}
    {weights : List F} (hlength : values.length = weights.length) (hne : values ≠ [])
    (hwidth : ∀ value ∈ values, value.length = 2048) :
    ∃ output, weightedMerge math values weights = .ok output := by
  obtain ⟨first, rest, rfl⟩ := List.exists_cons_of_ne_nil hne
  have hfirst := hwidth first List.mem_cons_self
  have hfault : ((first :: rest).zip weights).findSome? (mergeFault math first.length) = none := by
    rw [List.findSome?_eq_none_iff]
    intro p hp
    have hp' := hwidth p.1 (List.of_mem_zip hp).1
    rw [mergeFault, if_neg (by rw [hp', hfirst, not_not]), if_neg (by rw [hfinite]; simp)]
  rw [weightedMerge, if_neg (not_not.2 hlength), if_neg (by omega)]
  simp only [hfault]
  exact ⟨_, rfl⟩

theorem deterministicTopK_isOk (hfinite : ∀ x, math.isFinite x = true) {scores : List F}
    (hlength : scores.length = 64) : ∃ selection, deterministicTopK math scores 64 6 = .ok selection := by
  rw [deterministicTopK, if_neg (by rw [hlength]; decide), if_neg (by decide),
    if_neg (by rw [Bool.not_eq_false, List.all_eq_true]; exact fun x _ => hfinite x)]
  exact ⟨_, rfl⟩

theorem feedForwardCell_isSome (hfinite : ∀ x, math.isFinite x = true) (plan : LayerPlan F)
    {values : List F} (hvalues : values.length = 2048) :
    ∃ output, feedForwardCell math plan values = some output := by
  unfold feedForwardCell
  split
  · exact ⟨_, rfl⟩
  · obtain ⟨selection, hselection⟩ := deterministicTopK_isOk hfinite
      (plan.router.length_apply (plan.ffnNorm.apply values))
    have hroute : routeOf math plan values = .ok ⟨selection, normalizedSelectedWeights math
        (plan.router.apply (plan.ffnNorm.apply values)) selection⟩ := by
      unfold routeOf
      simp only [hselection]
      rfl
    have hids : selection.ids ≠ [] := by
      intro hnil
      have hlength := (deterministicTopK_ids hselection).2.1
      rw [hnil] at hlength
      exact absurd hlength (by decide)
    obtain ⟨merged, hmerged⟩ := @weightedMerge_isOk F _ _ math hfinite
      (selection.ids.map fun id => (plan.expert id).apply (plan.ffnNorm.apply values))
      (normalizedSelectedWeights math (plan.router.apply (plan.ffnNorm.apply values)) selection)
      (by rw [List.length_map, normalizedSelectedWeights, List.length_map]) (by simpa using hids)
      (by
        intro value hmem
        obtain ⟨id, _, rfl⟩ := List.mem_map.1 hmem
        exact (plan.expert id).length_apply _)
    have hmerge : mergeOf math plan values ⟨selection, normalizedSelectedWeights math
        (plan.router.apply (plan.ffnNorm.apply values)) selection⟩ = .ok merged := hmerged
    rw [moeRow_eq (hfinite 1) hvalues, hroute]
    simp only [Except.toOption, Option.bind_some, hmerge, Option.map_some]
    exact ⟨_, rfl⟩

/-- A cell of a ready state gives its row. -/
theorem layerCell_isSome (hfinite : ∀ x, math.isFinite x = true) (plan : LayerPlan F)
    (current : Activation F) {limit position : Nat} (hposition : position < limit)
    {state : LayerState F} (h : StateReady limit position state) :
    ∃ output after, layerCell math rope plan position current state = some (output, after) ∧
      StateReady limit (position + 1) after := by
  obtain ⟨hlength, hready⟩ := @computeToken_ready F _ _ math rope plan.attention
    current.values limit position state hposition h
  have hne : ¬ (computeToken math rope plan.attention current.values position state).1 = [] := by
    intro hnil
    rw [hnil] at hlength
    cases hlength
  obtain ⟨attended, hattend⟩ : ∃ attended, attendCell math rope plan position current state =
      some (attended, (computeToken math rope plan.attention current.values position state).2) := by
    rw [attendCell, if_neg hne]
    exact ⟨_, rfl⟩
  obtain ⟨output, houtput⟩ := feedForwardCell_isSome hfinite plan (attendCell_length hattend)
  refine ⟨output, _, ?_, hready⟩
  rw [layerCell, hattend, Option.bind_some, houtput]
  rfl

/-! ### Agreement -/

/-- Batched prefill gives the outputs and the states of the rows in order, and it does
so when all numbers are finite and the states have room. -/
theorem batched_prefill_eq_sequential (hone : math.isFinite 1 = true) (plans : List (LayerPlan F))
    (hblocks : plans.map (fun plan => plan.blockId.toNat) = List.range plans.length)
    (inputs : List (Activation F)) (states : List (LayerState F))
    (hstates : states.length = plans.length) :
    (∀ outputs after, runSequenceBatched math rope plans inputs states = .ok (outputs, after) ↔
        runSequenceRows math rope plans 0 inputs states = .ok (outputs, after)) ∧
      ((∀ x, math.isFinite x = true) → FreshStates inputs.length states →
        ∃ outputs after, runSequenceBatched math rope plans inputs states = .ok (outputs, after)) := by
  have hrows := @runSequenceRows_eq F _ _ math rope hone plans 0 inputs states
  have hsame : (runSequenceBatched math rope plans inputs states).toOption =
      (runSequenceRows math rope plans 0 inputs states).toOption := by
    rw [hrows, throughRows_throughLayers _ _ _ _ _ hstates]
    exact runSequenceBatchedFrom_eq hone 0 plans inputs states
      (by rw [← List.range_eq_range']; exact hblocks)
  refine ⟨?_, ?_⟩
  · intro outputs after
    rw [← toOption_eq_some_iff, hsame, toOption_eq_some_iff]
  · intro hfinite hfresh
    -- All states have taken the rows before a position.
    obtain ⟨outputs, after, hthrough, _⟩ := throughRows_isSome
      (fun position states => states.length = plans.length ∧
        ∀ state ∈ states, StateReady inputs.length position state)
      (fun position row states hposition hready =>
        throughLayers_isSome (StateReady inputs.length position)
          (StateReady inputs.length (position + 1))
          (fun plan row state hstate => layerCell_isSome hfinite plan row hposition hstate)
          plans row states hready.1 hready.2)
      0 inputs states (Nat.le_of_eq (Nat.zero_add _)) ⟨hstates, hfresh⟩
    refine ⟨outputs, after, ?_⟩
    rw [← toOption_eq_some_iff, hsame, hrows]
    exact hthrough

/-- An operation that fits a row to its width. -/
def fitOp (width : Nat) : RowOp ℚ width where
  apply := fun row => row.take width ++ List.replicate (width - row.length) 1
  length_apply := by
    intro row
    rw [List.length_append, List.length_take, List.length_replicate]
    omega

def examplePlan (blockId : UInt32) : LayerPlan ℚ where
  blockId
  attention := ⟨fitOp 2048, fitOp 3072, fitOp 576, fitOp 512, fitOp 4096, fitOp 2048⟩
  ffnNorm := fitOp 2048
  dense := fitOp 2048
  router := fitOp 64
  expert := fun _ => fitOp 2048
  shared := fitOp 2048

def exampleRope : RopeMath ℚ := ⟨fun _ y => y, fun _ => 1, fun x => x⟩

/-- A dense block and a mixture of experts, over a prompt of three rows. -/
theorem batched_prefill_eq_sequential_two_layers :
    let inputs := [[1], [2, 3], []].map Activation.row
    let states := List.replicate 2 (⟨⟨3072, 128, []⟩, ⟨2048, 128, []⟩⟩ : LayerState ℚ)
    let plans := [examplePlan 0, examplePlan 1]
    ∃ outputs after,
      runSequenceBatched SequenceGeometry.exampleMath exampleRope plans inputs states =
        .ok (outputs, after) ∧
      runSequenceRows SequenceGeometry.exampleMath exampleRope plans 0 inputs states =
        .ok (outputs, after) := by
  intro inputs states plans
  obtain ⟨hsame, hok⟩ := @batched_prefill_eq_sequential ℚ _ _ SequenceGeometry.exampleMath
    exampleRope rfl plans rfl inputs states rfl
  have hfresh : FreshStates inputs.length states := by
    intro state hmem
    rw [List.eq_of_mem_replicate hmem]
    constructor
    all_goals decide
  obtain ⟨outputs, after, hbatched⟩ := hok (fun _ => rfl) hfresh
  exact ⟨outputs, after, hbatched, (hsame outputs after).1 hbatched⟩

end VBuf.Ggml.Prefill
