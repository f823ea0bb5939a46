import VBuf.Ggml.PrefillAgreement

/-!
# The residual stream

A block of a transformer gives `h + F(h)` with `h = x + A(x)`.  The dense block does;
a mixture of experts takes the output of its attention alone, so it gives
`A(x) + F(A(x))`.
-/

namespace VBuf.Ggml.Prefill

open VBuf.Lib VBuf.Runtime

variable {F : Type} [Field F] [LinearOrder F] (math : ExactMath F) (rope : RopeMath F)

/-! ### What a block should give -/

/-- The attention of a block, with its own norm. -/
def attentionOf (plan : LayerPlan F) (position : Nat) (x : List F) (state : LayerState F) : List F :=
  (computeToken math rope plan.attention x position state).1

/-- The feed-forward of a block, with its own norm and without its residual. -/
def feedForwardOf (plan : LayerPlan F) (h : List F) : Option (List F) :=
  if plan.blockId = 0 then some (plan.dense.apply (plan.ffnNorm.apply h))
  else
    (routeOf math plan h).toOption.bind fun route =>
      (mergeOf math plan h route).toOption.map fun merged =>
        List.zipWith (· + ·) merged (plan.shared.apply (plan.ffnNorm.apply h))

/-- A block gives `h + F(h)` with `h = x + A(x)`. -/
def KeepsResidual (plan : LayerPlan F) (position : Nat) (x : List F) (state : LayerState F)
    (y : List F) : Prop :=
  let h := List.zipWith (· + ·) (attentionOf math rope plan position x state) x
  ∃ out, feedForwardOf math plan h = some out ∧ y = List.zipWith (· + ·) out h

/-- The activation behind the first blocks of a row. -/
def ActivationAfter (plans : List (LayerPlan F)) (position : Nat) (input : Activation F)
    (states : List (LayerState F)) (blocks : Nat) (x : Activation F) : Prop :=
  ∃ run after, runSequence math rope (plans.take blocks) input position (states.take blocks) =
      .ok (run, after) ∧ run.ok = true ∧ run.output = x

/-- Every block that `run_sequence` completes keeps the residual stream. -/
def SequenceKeepsResidual (plans : List (LayerPlan F)) (position : Nat) (input : Activation F)
    (states : List (LayerState F)) : Prop :=
  ∀ block plan state x y, plans[block]? = some plan → states[block]? = some state →
    ActivationAfter math rope plans position input states block x →
    ActivationAfter math rope plans position input states (block + 1) y →
      KeepsResidual math rope plan position x.values state y.values

/-- The state of a block after some rows of a prompt. -/
def stateAfter (tensors : AttentionTensors F) :
    Nat → List (Activation F) → LayerState F → LayerState F
  | _, [], state => state
  | position, row :: rest, state =>
      stateAfter tensors (position + 1) rest
        (computeToken math rope tensors row.values position state).2

/-- The activations behind the first blocks of a prompt. -/
def ActivationsAfter (plans : List (LayerPlan F)) (inputs : List (Activation F))
    (states : List (LayerState F)) (blocks : Nat) (xs : List (Activation F)) : Prop :=
  ∃ after, runSequenceBatched math rope (plans.take blocks) inputs (states.take blocks) =
    .ok (xs, after)

/-- Every block that `run_sequence_batched` completes keeps the residual stream of every
row. -/
def BatchKeepsResidual (plans : List (LayerPlan F)) (inputs : List (Activation F))
    (states : List (LayerState F)) : Prop :=
  ∀ block plan state xs ys, plans[block]? = some plan → states[block]? = some state →
    ActivationsAfter math rope plans inputs states block xs →
    ActivationsAfter math rope plans inputs states (block + 1) ys →
      ∀ row x y, xs[row]? = some x → ys[row]? = some y →
        KeepsResidual math rope plan row x.values
          (stateAfter math rope plan.attention 0 (xs.take row) state) y.values

variable {math} {rope}

/-! ### Cells -/

theorem feedForwardOf_length {plan : LayerPlan F} {h out : List F}
    (hout : feedForwardOf math plan h = some out) : out.length = 2048 := by
  unfold feedForwardOf at hout
  split at hout
  · rw [← Option.some.inj hout]
    exact plan.dense.length_apply _
  · obtain ⟨route, -, hroute⟩ := Option.bind_eq_some_iff.1 hout
    obtain ⟨merged, hmerged, rfl⟩ := Option.map_eq_some_iff.1 hroute
    have hlength := weightedMerge_length
      (fun values hmem => @length_of_mem_expertValues F plan values h route hmem)
      (toOption_eq_some_iff.1 hmerged)
    rw [List.length_zipWith, hlength, plan.shared.length_apply, Nat.min_self]

/-- The feed-forward adds its input to its own output. -/
theorem feedForwardCell_eq (hone : math.isFinite 1 = true) (plan : LayerPlan F) {values : List F}
    (hvalues : values.length = 2048) :
    feedForwardCell math plan values =
      (feedForwardOf math plan values).map fun out =>
        Activation.row (List.zipWith (· + ·) out values) := by
  unfold feedForwardCell feedForwardOf
  split
  · rfl
  · rw [moeRow_eq hone hvalues]
    cases (routeOf math plan values).toOption with
    | none => rfl
    | some route =>
        simp only [Option.bind_some, Option.map_map]
        rfl

/-- What the feed-forward of a block takes: the residual is added in the dense block. -/
def feedForwardInput (plan : LayerPlan F) (attention x : List F) : List F :=
  if plan.blockId = 0 then List.zipWith (· + ·) attention x else attention

/-- A block gives `h + F(h)` of what its feed-forward takes. -/
theorem layerCell_eq_some (hone : math.isFinite 1 = true) {plan : LayerPlan F} {position : Nat}
    {x y : Activation F} {state after : LayerState F} (hx : x.values.length = 2048)
    (h : layerCell math rope plan position x state = some (y, after)) :
    let input := feedForwardInput plan (attentionOf math rope plan position x.values state) x.values
    (∃ out, feedForwardOf math plan input = some out ∧ y.values = List.zipWith (· + ·) out input) ∧
      (attentionOf math rope plan position x.values state).length = 2048 ∧
      y.values.length = 2048 ∧
      after = (computeToken math rope plan.attention x.values position state).2 := by
  intro input
  rw [layerCell, Option.bind_eq_some_iff] at h
  obtain ⟨attended, hattended, hcell⟩ := h
  obtain ⟨output, hffn, heq⟩ := Option.map_eq_some_iff.1 hcell
  cases heq
  have hlength := attendCell_length hattended
  rw [attendCell] at hattended
  split at hattended
  next => cases hattended
  next hne =>
      have hattention : (attentionOf math rope plan position x.values state).length = 2048 :=
        (computeToken_length plan.attention x.values position state).resolve_left hne
      have hfirst := congrArg Prod.fst (Option.some.inj hattended)
      have hinput : attended.1 = input := by
        simp only [input, feedForwardInput, ← map_add_eq_zipWith hattention hx]
        exact hfirst.symm
      rw [feedForwardCell_eq hone plan hlength, hinput] at hffn
      obtain ⟨out, hout, rfl⟩ := Option.map_eq_some_iff.1 hffn
      refine ⟨⟨out, hout, rfl⟩, hattention, ?_, ?_⟩
      · show (List.zipWith _ _ _).length = 2048
        rw [List.length_zipWith, feedForwardOf_length hout, ← hinput, hlength, Nat.min_self]
      · rw [← Option.some.inj hattended]

/-- A dense block keeps the residual stream. -/
theorem KeepsResidual.of_dense (hone : math.isFinite 1 = true) {plan : LayerPlan F}
    (hdense : plan.blockId = 0) {position : Nat} {x y : Activation F} {state after : LayerState F}
    (hx : x.values.length = 2048)
    (h : layerCell math rope plan position x state = some (y, after)) :
    KeepsResidual math rope plan position x.values state y.values := by
  obtain ⟨⟨out, hout, hy⟩, -⟩ := layerCell_eq_some hone hx h
  rw [feedForwardInput, if_pos hdense] at hout hy
  exact ⟨out, hout, hy⟩

/-! ### Blocks of a run -/

theorem activationAfter_iff (hone : math.isFinite 1 = true) {plans : List (LayerPlan F)}
    {position : Nat} {input : Activation F} {states : List (LayerState F)} {blocks : Nat}
    {x : Activation F} :
    ActivationAfter math rope plans position input states blocks x ↔
      ∃ after, throughLayers (layerCell math rope) position (plans.take blocks) input
        (states.take blocks) = some (x, after) := by
  simp only [← @runSequenceFrom_eq F _ _ math rope hone position (plans.take blocks) input
    (states.take blocks) {} rfl, ActivationAfter, runSequence, succeeded, Option.bind_eq_some_iff,
    toOption_eq_some_iff]
  constructor
  · rintro ⟨run, after, hrun, hok, rfl⟩
    refine ⟨after, (run, after), hrun, ?_⟩
    rw [if_neg (by rw [hok]; exact Bool.true_eq_false_eq_False)]
  · rintro ⟨after, result, hrun, hresult⟩
    split at hresult
    next => cases hresult
    next hok =>
        cases hresult
        exact ⟨result.1, result.2, hrun, Bool.eq_true_of_not_eq_false hok, rfl⟩

omit [Field F] [LinearOrder F] in
/-- The first blocks up to one, and that block. -/
theorem take_block {plans : List (LayerPlan F)} {states : List (LayerState F)} {block : Nat}
    {plan : LayerPlan F} {state : LayerState F} (hplan : plans[block]? = some plan)
    (hstate : states[block]? = some state) :
    plans.take (block + 1) = plans.take block ++ [plan] ∧
      states.take (block + 1) = states.take block ++ [state] ∧
      (states.take block).length = (plans.take block).length := by
  have hplans := (List.getElem?_eq_some_iff.1 hplan).1
  have hstates := (List.getElem?_eq_some_iff.1 hstate).1
  rw [List.take_add_one, List.take_add_one, hplan, hstate, List.length_take, List.length_take]
  exact ⟨rfl, rfl, by omega⟩

/-- Two activations in a row are those around a block. -/
theorem ActivationAfter.cell (hone : math.isFinite 1 = true) {plans : List (LayerPlan F)}
    {position : Nat} {input : Activation F} {states : List (LayerState F)} {block : Nat}
    {plan : LayerPlan F} {state : LayerState F} {x y : Activation F}
    (hplan : plans[block]? = some plan) (hstate : states[block]? = some state)
    (hx : ActivationAfter math rope plans position input states block x)
    (hy : ActivationAfter math rope plans position input states (block + 1) y) :
    ∃ after, layerCell math rope plan position x state = some (y, after) := by
  obtain ⟨before, hbefore⟩ := (activationAfter_iff hone).1 hx
  obtain ⟨after, hafter⟩ := (activationAfter_iff hone).1 hy
  obtain ⟨hplans, hstates, hlength⟩ := take_block hplan hstate
  rw [hplans, hstates, throughLayers_concat _ _ _ _ _ _ _ hlength, hbefore, Option.bind_some,
    Option.map_eq_some_iff] at hafter
  obtain ⟨last, hlast, heq⟩ := hafter
  cases heq
  exact ⟨last.2, hlast⟩

/-- Dense blocks keep the residual stream. -/
theorem sequenceKeepsResidual_of_dense (hone : math.isFinite 1 = true) {plans : List (LayerPlan F)}
    (hdense : ∀ plan ∈ plans, plan.blockId = 0) {position : Nat} {input : Activation F}
    (hinput : input.values.length = 2048) (states : List (LayerState F)) :
    SequenceKeepsResidual math rope plans position input states := by
  intro block plan state x y hplan hstate hx hy
  obtain ⟨after, hcell⟩ := hx.cell hone hplan hstate hy
  obtain ⟨_, hbefore⟩ := (activationAfter_iff hone).1 hx
  have hwidth : x.values.length = 2048 := by
    refine throughLayers_forall (P := fun x => x.values.length = 2048) ?_ hbefore hinput
    intro layer _ row s out s' hrow hout
    exact (layerCell_eq_some hone hrow hout).2.2.1
  exact KeepsResidual.of_dense hone (hdense plan (List.mem_of_getElem? hplan)) hwidth hcell

/-! ### Blocks that give zero -/

/-- An operation that gives zeros. -/
def zeroOp (F : Type) [Field F] (width : Nat) : RowOp F width :=
  ⟨fun _ => List.replicate width 0, fun _ => List.length_replicate⟩

/-- A block whose attention and feed-forward give zeros. -/
def zeroPlan (F : Type) [Field F] (blockId : UInt32) : LayerPlan F where
  blockId
  attention := ⟨zeroOp F 2048, zeroOp F 3072, zeroOp F 576, zeroOp F 512, zeroOp F 4096,
    zeroOp F 2048⟩
  ffnNorm := zeroOp F 2048
  dense := zeroOp F 2048
  router := zeroOp F 64
  expert := fun _ => zeroOp F 2048
  shared := zeroOp F 2048

theorem attentionOf_zeroPlan {blockId : UInt32} {position : Nat} {x : List F}
    {state : LayerState F}
    (h : (attentionOf math rope (zeroPlan F blockId) position x state).length = 2048) :
    attentionOf math rope (zeroPlan F blockId) position x state = List.replicate 2048 0 := by
  unfold attentionOf computeToken at h ⊢
  simp only at h ⊢
  split
  next hposition =>
      rw [if_pos hposition] at h
      cases h
  next hposition =>
      rw [if_neg hposition] at h
      split
      next hk =>
          rw [hk] at h
          cases h
      next hk =>
          rw [hk] at h
          simp only at h
          split
          next hv =>
              rw [hv] at h
              cases h
          next => rfl

omit [LinearOrder F] in
theorem zipWith_zeros {l : List F} {n : Nat} (h : l.length = n) :
    List.zipWith (· + ·) (List.replicate n 0) l = l := by
  subst h
  induction l with
  | nil => rfl
  | cons a rest ih => rw [List.length_cons, List.replicate_succ, List.zipWith_cons_cons, ih, zero_add]

/-- A dense block of zeros gives its input. -/
theorem layerCell_zeroPlan_dense (hone : math.isFinite 1 = true) {position : Nat}
    {x y : Activation F} {state after : LayerState F} (hx : x.values.length = 2048)
    (h : layerCell math rope (zeroPlan F 0) position x state = some (y, after)) :
    y.values = x.values := by
  have hdense : (zeroPlan F 0).blockId = 0 := rfl
  obtain ⟨⟨out, hout, hy⟩, hattention, -⟩ := layerCell_eq_some hone hx h
  rw [feedForwardInput, if_pos hdense, attentionOf_zeroPlan hattention, zipWith_zeros hx]
    at hout hy
  rw [feedForwardOf, if_pos hdense] at hout
  rw [hy, ← Option.some.inj hout]
  exact zipWith_zeros hx

/-- A mixture of experts does not keep the residual stream, when it gives zeros. -/
theorem not_keepsResidual_zeroPlan (hone : math.isFinite 1 = true) {blockId : UInt32}
    (hmoe : blockId ≠ 0) {position : Nat} {x y : Activation F} {state after : LayerState F}
    (hx : x.values = List.replicate 2048 1)
    (h : layerCell math rope (zeroPlan F blockId) position x state = some (y, after)) :
    ¬ KeepsResidual math rope (zeroPlan F blockId) position x.values state y.values := by
  rintro ⟨out', hout', hkept⟩
  have hlength : x.values.length = 2048 := by rw [hx, List.length_replicate]
  obtain ⟨⟨out, hout, hy⟩, hattention, -⟩ := layerCell_eq_some hone hlength h
  have hblock : ¬ (zeroPlan F blockId).blockId = 0 := hmoe
  rw [feedForwardInput, if_neg hblock, attentionOf_zeroPlan hattention] at hout hy
  rw [attentionOf_zeroPlan hattention, zipWith_zeros hlength] at hout' hkept
  -- the feed-forward of zeros gives the same for both inputs
  have hsame : out' = out := Option.some.inj (hout'.symm.trans hout)
  have hwidth := feedForwardOf_length hout
  rw [hy, hsame, hx] at hkept
  cases out with
  | nil => cases hwidth
  | cons o rest =>
      have hzeros : List.replicate 2048 (0 : F) = 0 :: List.replicate 2047 0 := rfl
      have hones : List.replicate 2048 (1 : F) = 1 :: List.replicate 2047 1 := rfl
      rw [hzeros, hones, List.zipWith_cons_cons, List.zipWith_cons_cons, List.cons.injEq,
        add_right_inj] at hkept
      exact zero_ne_one hkept.1

/-! ### Runs of zeros -/

/-- States with room for one position. -/
def oneRoom (F : Type) : LayerState F := ⟨⟨3072, 1, []⟩, ⟨2048, 1, []⟩⟩

/-- The row of ones. -/
def ones (F : Type) [Field F] : Activation F := Activation.row (List.replicate 2048 1)

omit [Field F] [LinearOrder F] in
theorem stateReady_oneRoom : StateReady 1 0 (oneRoom F) :=
  ⟨rfl, rfl, rfl, rfl, Nat.le_refl 1, Nat.le_refl 1⟩

variable (rope)

/-- Blocks of zeros are completed. -/
theorem activationAfter_isSome (hfinite : ∀ x, math.isFinite x = true) (ids : List UInt32)
    (blocks : Nat) :
    ∃ x, ActivationAfter math rope (ids.map (zeroPlan F)) 0 (ones F)
      (List.replicate ids.length (oneRoom F)) blocks x := by
  have hcell : ∀ (plan : LayerPlan F) row state, StateReady 1 0 state → ∃ out after,
      layerCell math rope plan 0 row state = some (out, after) ∧ StateReady 1 1 after :=
    fun plan row state hstate => layerCell_isSome hfinite plan row Nat.zero_lt_one hstate
  obtain ⟨x, after, hthrough, -⟩ := throughLayers_isSome (StateReady 1 0) (StateReady 1 1) hcell
    ((ids.map (zeroPlan F)).take blocks) (ones F)
    ((List.replicate ids.length (oneRoom F)).take blocks)
    (by rw [List.length_take, List.length_take, List.length_replicate, List.length_map])
    (by
      intro state hmem
      rw [List.eq_of_mem_replicate (List.mem_of_mem_take hmem)]
      exact stateReady_oneRoom)
  exact ⟨x, (activationAfter_iff (hfinite 1)).2 ⟨after, hthrough⟩⟩

/-- A mixture of experts behind dense blocks loses the residual stream. -/
theorem not_sequenceKeepsResidual (hfinite : ∀ x, math.isFinite x = true) {ids dense rest : List UInt32}
    {id : UInt32} (hids : ids = dense ++ id :: rest) (hdense : ∀ id ∈ dense, id = 0)
    (hmoe : id ≠ 0) :
    ¬ SequenceKeepsResidual math rope (ids.map (zeroPlan F)) 0 (ones F)
      (List.replicate ids.length (oneRoom F)) := by
  intro hkeeps
  have hlt : dense.length < ids.length := by
    rw [hids, List.length_append, List.length_cons]
    omega
  obtain ⟨x, hx⟩ := activationAfter_isSome rope hfinite ids dense.length
  obtain ⟨y, hy⟩ := activationAfter_isSome rope hfinite ids (dense.length + 1)
  have hplan : (ids.map (zeroPlan F))[dense.length]? = some (zeroPlan F id) := by
    rw [List.getElem?_map, hids, List.getElem?_append_right (Nat.le_refl _), Nat.sub_self]
    rfl
  have hstate : (List.replicate ids.length (oneRoom F))[dense.length]? = some (oneRoom F) := by
    rw [List.getElem?_replicate, if_pos hlt]
  obtain ⟨after, hcell⟩ := hx.cell (hfinite 1) hplan hstate hy
  obtain ⟨before, hbefore⟩ := (activationAfter_iff (hfinite 1)).1 hx
  have hones : x.values = List.replicate 2048 1 := by
    refine throughLayers_forall (P := fun x => x.values = List.replicate 2048 1) ?_ hbefore rfl
    intro plan hplan row s out s' hrow hout
    rw [hids, List.map_append, List.take_left' (List.length_map _), List.mem_map] at hplan
    obtain ⟨id', hid', rfl⟩ := hplan
    rw [hdense id' hid'] at hout
    rw [layerCell_zeroPlan_dense (hfinite 1) (by rw [hrow, List.length_replicate]) hout, hrow]
  exact not_keepsResidual_zeroPlan (hfinite 1) hmoe hones hcell
    (hkeeps dense.length _ _ x y hplan hstate hx hy)

variable {rope}

/-- The first block that is not dense. -/
theorem exists_first_moe {ids : List UInt32} (h : ¬ ∀ id ∈ ids, id = 0) :
    ∃ dense id rest, ids = dense ++ id :: rest ∧ (∀ id ∈ dense, id = 0) ∧ id ≠ 0 := by
  cases hfind : ids.find? (fun id => id != 0) with
  | none =>
      refine absurd ?_ h
      intro id hid
      simpa using List.find?_eq_none.1 hfind id hid
  | some id =>
      obtain ⟨hid, dense, rest, hids, hdense⟩ := List.find?_eq_some_iff_append.1 hfind
      refine ⟨dense, id, rest, hids, ?_, by simpa using hid⟩
      intro id' hid'
      simpa using hdense id' hid'

/-! ### A batch -/

theorem activationsAfter_iff (hone : math.isFinite 1 = true) {plans : List (LayerPlan F)}
    (hblocks : plans.map (fun plan => plan.blockId.toNat) = List.range plans.length)
    {inputs : List (Activation F)} {states : List (LayerState F)} {blocks : Nat}
    {xs : List (Activation F)} :
    ActivationsAfter math rope plans inputs states blocks xs ↔
      ∃ after, layersThroughRows (layerCell math rope) 0 (plans.take blocks) inputs
        (states.take blocks) = some (xs, after) := by
  have htake : (plans.take blocks).map (fun plan => plan.blockId.toNat) =
      List.range' 0 (plans.take blocks).length := by
    rw [List.map_take, hblocks, List.take_range, List.length_take, List.range_eq_range']
  unfold ActivationsAfter runSequenceBatched
  simp only [← runSequenceBatchedFrom_eq hone 0 (plans.take blocks) inputs (states.take blocks)
    htake, toOption_eq_some_iff]

/-- A row of a block is a cell at the state behind the rows before it. -/
theorem layerCell_of_throughRows {plan : LayerPlan F} {position : Nat} {xs ys : List (Activation F)}
    {state after : LayerState F}
    (h : throughRows (layerCell math rope plan) position xs state = some (ys, after)) {row : Nat}
    {x y : Activation F} (hx : xs[row]? = some x) (hy : ys[row]? = some y) :
    ∃ after, layerCell math rope plan (position + row) x
      (stateAfter math rope plan.attention position (xs.take row) state) = some (y, after) := by
  induction xs generalizing position state ys row with
  | nil => cases hx
  | cons first rest ih =>
      rw [throughRows, Option.bind_eq_some_iff] at h
      obtain ⟨cell, hcell, hrest⟩ := h
      obtain ⟨later, hlater, heq⟩ := Option.map_eq_some_iff.1 hrest
      cases heq
      cases row with
      | zero =>
          cases hx
          cases hy
          exact ⟨cell.2, hcell⟩
      | succ row =>
          have hstate : cell.2 =
              (computeToken math rope plan.attention first.values position state).2 := by
            rw [layerCell, Option.bind_eq_some_iff] at hcell
            obtain ⟨attended, hattended, hout⟩ := hcell
            obtain ⟨out, -, rfl⟩ := Option.map_eq_some_iff.1 hout
            rw [attendCell] at hattended
            split at hattended
            · cases hattended
            · rw [← Option.some.inj hattended]
          rw [List.take_succ_cons, stateAfter, ← hstate, Nat.add_comm row 1, ← Nat.add_assoc]
          exact ih hlater hx hy

/-- A batch of one row is a sequence. -/
theorem ActivationAfter.batch (hone : math.isFinite 1 = true) {plans : List (LayerPlan F)}
    (hblocks : plans.map (fun plan => plan.blockId.toNat) = List.range plans.length)
    {input : Activation F} {states : List (LayerState F)} (hstates : states.length = plans.length)
    {blocks : Nat} {x : Activation F}
    (h : ActivationAfter math rope plans 0 input states blocks x) :
    ActivationsAfter math rope plans [input] states blocks [x] := by
  obtain ⟨after, hthrough⟩ := (activationAfter_iff hone).1 h
  refine (activationsAfter_iff hone hblocks).2 ⟨after, ?_⟩
  rw [← throughRows_throughLayers _ _ _ _ _ (by rw [List.length_take, List.length_take, hstates]),
    throughRows, hthrough]
  rfl

theorem BatchKeepsResidual.sequence (hone : math.isFinite 1 = true) {plans : List (LayerPlan F)}
    (hblocks : plans.map (fun plan => plan.blockId.toNat) = List.range plans.length)
    {input : Activation F} {states : List (LayerState F)} (hstates : states.length = plans.length)
    (h : BatchKeepsResidual math rope plans [input] states) :
    SequenceKeepsResidual math rope plans 0 input states := by
  intro block plan state x y hplan hstate hx hy
  exact h block plan state [x] [y] hplan hstate (hx.batch hone hblocks hstates)
    (hy.batch hone hblocks hstates) 0 x y rfl rfl

/-! ### The residual stream of a model -/

/-- The blocks of a row, and of a prompt from block 0 on, keep the residual stream for
all attentions and feed-forwards exactly when all of them are dense. -/
theorem keepsResidual_iff (hfinite : ∀ x, math.isFinite x = true) (ids : List UInt32) :
    ((∀ plans position input states, plans.map LayerPlan.blockId = ids →
        input.values.length = 2048 → SequenceKeepsResidual math rope plans position input states) ↔
      ∀ id ∈ ids, id = 0) ∧
      (ids.map UInt32.toNat = List.range ids.length →
        ((∀ plans inputs states, plans.map LayerPlan.blockId = ids →
            (∀ input ∈ inputs, input.values.length = 2048) →
            BatchKeepsResidual math rope plans inputs states) ↔ ∀ id ∈ ids, id = 0)) := by
  have hzero : (ids.map (zeroPlan F)).map LayerPlan.blockId = ids := by
    rw [List.map_map]
    exact List.map_id ids
  have hones : (ones F).values.length = 2048 := List.length_replicate
  refine ⟨⟨?_, ?_⟩, fun hrange => ⟨?_, ?_⟩⟩
  · intro hkeeps
    by_contra hmoe
    obtain ⟨dense, id, rest, hids, hdense, hid⟩ := exists_first_moe hmoe
    exact not_sequenceKeepsResidual rope hfinite hids hdense hid (hkeeps _ 0 _ _ hzero hones)
  · rintro hdense plans position input states rfl hinput
    exact sequenceKeepsResidual_of_dense (hfinite 1)
      (fun plan hplan => hdense _ (List.mem_map_of_mem hplan)) hinput states
  · intro hkeeps
    by_contra hmoe
    obtain ⟨dense, id, rest, hids, hdense, hid⟩ := exists_first_moe hmoe
    -- a prompt of one row is a sequence
    refine not_sequenceKeepsResidual rope hfinite hids hdense hid ?_
    have hbatch := hkeeps (ids.map (zeroPlan F)) [ones F] (List.replicate ids.length (oneRoom F))
      hzero (by
        intro input hmem
        rw [List.mem_singleton.1 hmem]
        exact hones)
    refine hbatch.sequence (hfinite 1) ?_ ?_
    · rw [List.length_map, ← hrange, List.map_map]
      rfl
    · rw [List.length_replicate, List.length_map]
  · rintro hdense plans inputs states rfl hinputs
    have hblocks : plans.map (fun plan => plan.blockId.toNat) = List.range plans.length := by
      rw [List.map_map, List.length_map] at hrange
      exact hrange
    intro block plan state xs ys hplan hstate hxs hys row x y hx hy
    -- the only dense block is the first
    have hid := hdense plan.blockId (List.mem_map_of_mem (List.mem_of_getElem? hplan))
    have hblock : block = 0 := by
      have hget : (plans.map (fun plan => plan.blockId.toNat))[block]? = some plan.blockId.toNat := by
        rw [List.getElem?_map, hplan, Option.map_some]
      rw [hblocks, List.getElem?_range (List.getElem?_eq_some_iff.1 hplan).1, hid,
        Option.some.injEq] at hget
      exact hget
    subst hblock
    obtain ⟨before, hbefore⟩ := (activationsAfter_iff (hfinite 1) hblocks).1 hxs
    obtain ⟨after, hafter⟩ := (activationsAfter_iff (hfinite 1) hblocks).1 hys
    obtain ⟨hplans, hstates, hlength⟩ := take_block hplan hstate
    rw [hplans, hstates, layersThroughRows_concat _ _ _ _ _ _ _ hlength, hbefore, Option.bind_some,
      Option.map_eq_some_iff] at hafter
    obtain ⟨last, hlast, heq⟩ := hafter
    cases heq
    obtain ⟨_, hcell⟩ := layerCell_of_throughRows hlast hx hy
    rw [Nat.zero_add] at hcell
    cases hbefore
    exact KeepsResidual.of_dense (hfinite 1) hid (hinputs x (List.mem_of_getElem? hx)) hcell

/-- A dense block keeps the residual stream; a mixture of experts behind it does not. -/
theorem keepsResidual_first_block :
    (∀ plans position input states, plans.map LayerPlan.blockId = [0] →
      input.values.length = 2048 →
        SequenceKeepsResidual SequenceGeometry.exampleMath exampleRope plans position input states) ∧
      ¬ ∀ plans position input states, plans.map LayerPlan.blockId = [0, 1] →
        input.values.length = 2048 →
          SequenceKeepsResidual SequenceGeometry.exampleMath exampleRope plans position input
            states := by
  have hiff := fun ids => (@keepsResidual_iff ℚ _ _ SequenceGeometry.exampleMath exampleRope
    (fun _ => rfl) ids).1
  refine ⟨(hiff [0]).2 (by simp), ?_⟩
  rw [hiff]
  simp

/-- The attention residual of the first mixture of experts is dropped. -/
theorem residual_dropped :
    ¬ SequenceKeepsResidual SequenceGeometry.exampleMath exampleRope [zeroPlan ℚ 1] 0 (ones ℚ)
        [oneRoom ℚ] ∧
      ¬ BatchKeepsResidual SequenceGeometry.exampleMath exampleRope [zeroPlan ℚ 0, zeroPlan ℚ 1]
        [ones ℚ] [oneRoom ℚ, oneRoom ℚ] := by
  have hfinite : ∀ x, SequenceGeometry.exampleMath.isFinite x = true := fun _ => rfl
  have hmoe : (1 : UInt32) ≠ 0 := by decide
  constructor
  · exact @not_sequenceKeepsResidual ℚ _ _ _ exampleRope hfinite [1] [] [] 1 rfl (by simp) hmoe
  · intro h
    exact @not_sequenceKeepsResidual ℚ _ _ _ exampleRope hfinite [0, 1] [0] [] 1 rfl (by simp)
      hmoe (h.sequence rfl rfl rfl)

end VBuf.Ggml.Prefill
