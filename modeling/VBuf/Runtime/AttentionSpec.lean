import VBuf.Runtime.Generic

/-!
# What attention computes

The accepted operands, and the output of each batch, position, head and
component as a function of the keys and values it sees.
-/

namespace VBuf.Runtime

open VBuf.Lib

/-! ### Shapes -/

/-- The number of elements of a shape. -/
def elementCount (dimensions : List UInt64) : Nat :=
  (dimensions.map UInt64.toNat).prod

theorem elementCount_pos {dimensions : List UInt64} (h : ∀ d ∈ dimensions, d ≠ 0) :
    0 < elementCount dimensions := by
  induction dimensions with
  | nil => exact Nat.one_pos
  | cons dimension rest ih =>
      have hd : 0 < dimension.toNat := toNat_pos_of_ne (h dimension List.mem_cons_self)
      have hrest := ih (fun d hmem => h d (List.mem_cons_of_mem _ hmem))
      rw [elementCount, List.map_cons, List.prod_cons]
      exact Nat.mul_pos hd hrest

theorem shapeProduct_eq_ok_iff (zero overflow : String) (dimensions : List UInt64)
    {elements product : Nat} (hpos : 0 < elements) (hlt : elements < 2 ^ 64) :
    shapeProduct zero overflow dimensions elements = .ok product ↔
      (∀ d ∈ dimensions, d ≠ 0) ∧ elements * elementCount dimensions < 2 ^ 64 ∧
        product = elements * elementCount dimensions := by
  induction dimensions generalizing elements with
  | nil =>
      have hcount : elementCount [] = 1 := rfl
      rw [shapeProduct, hcount, Nat.mul_one, Except.ok.injEq]
      constructor
      · intro heq
        exact ⟨fun d hd => absurd hd List.not_mem_nil, hlt, heq.symm⟩
      · intro h
        exact h.2.2.symm
  | cons dimension rest ih =>
      have hcount : elements * elementCount (dimension :: rest) =
          elements * dimension.toNat * elementCount rest := by
        rw [elementCount, List.map_cons, List.prod_cons, Nat.mul_assoc]
        rfl
      rw [shapeProduct, hcount]
      by_cases hzero : dimension = 0
      · rw [if_pos hzero]
        refine iff_of_false (fun h => by cases h) ?_
        intro h
        exact h.1 dimension List.mem_cons_self hzero
      · rw [if_neg hzero]
        have hd : 0 < dimension.toNat := toNat_pos_of_ne hzero
        by_cases hfits : elements * dimension.toNat < 2 ^ 64
        · rw [if_pos hfits, ih (Nat.mul_pos hpos hd) hfits, List.forall_mem_cons]
          tauto
        · rw [if_neg hfits]
          refine iff_of_false (fun h => by cases h) ?_
          intro h
          have hrest := elementCount_pos (fun d hmem => h.1 d (List.mem_cons_of_mem _ hmem))
          exact hfits (Nat.lt_of_le_of_lt (Nat.le_mul_of_pos_right _ hrest) h.2.1)

/-- A tensor with the number of values that its shape has. -/
structure GenericTensor.WellFormed {F : Type} (tensor : GenericTensor F) : Prop where
  nonzero : ∀ d ∈ tensor.dimensions, d ≠ 0
  fits : elementCount tensor.dimensions < 2 ^ 64
  length : tensor.values.length = elementCount tensor.dimensions

theorem GenericTensor.elements_eq_ok_iff {F : Type} (tensor : GenericTensor F) (elements : Nat) :
    tensor.elements = .ok elements ↔ tensor.WellFormed ∧ elements = tensor.values.length := by
  unfold GenericTensor.elements
  have hshape := fun product => @shapeProduct_eq_ok_iff "generic tensor has a zero dimension"
    "generic tensor shape product overflows" tensor.dimensions 1 product Nat.one_pos (by decide)
  simp only [Nat.one_mul] at hshape
  cases hresult : shapeProduct "generic tensor has a zero dimension"
      "generic tensor shape product overflows" tensor.dimensions 1 with
  | error message =>
      refine iff_of_false (fun h => by cases h) ?_
      intro h
      have hok := (hshape _).2 ⟨h.1.nonzero, h.1.fits, rfl⟩
      rw [hresult] at hok
      cases hok
  | ok product =>
      obtain ⟨hnonzero, hfits, hproduct⟩ := (hshape product).1 hresult
      simp only
      split
      next hne =>
          refine iff_of_false (fun h => by cases h) ?_
          intro h
          exact hne (hproduct.trans h.1.length.symm)
      next heq =>
          have hlength : product = tensor.values.length := not_not.1 heq
          rw [Except.ok.injEq]
          constructor
          · intro h
            exact ⟨⟨hnonzero, hfits, hlength.symm.trans hproduct⟩, h.symm.trans hlength⟩
          · intro h
            exact hlength.trans h.2.symm

/-- The payload of an execution state fits its geometry. -/
structure GenericExecutionState.Valid {F : Type} (state : GenericExecutionState F) : Prop where
  bounded : state.length ≤ state.capacity
  empty : state.length = 0 → state.batchSize = 0 ∧ state.kvHeadCount = 0 ∧ state.headDim = 0 ∧
    state.key = [] ∧ state.value = []
  filled : state.length ≠ 0 →
    let shape := [state.batchSize, state.length, state.kvHeadCount, state.headDim]
    (∀ d ∈ shape, d ≠ 0) ∧ elementCount shape < 2 ^ 64 ∧ state.key.length = elementCount shape ∧
      state.value.length = elementCount shape

theorem GenericExecutionState.validatePayload_eq_ok_iff {F : Type}
    (state : GenericExecutionState F) (u : Unit) : state.validatePayload = .ok u ↔ state.Valid := by
  unfold GenericExecutionState.validatePayload
  by_cases hbounded : state.length > state.capacity
  · rw [if_pos hbounded]
    refine iff_of_false (fun h => by cases h) ?_
    intro h
    exact absurd h.bounded (UInt64.not_le.2 hbounded)
  · rw [if_neg hbounded]
    have hle : state.length ≤ state.capacity := UInt64.not_lt.1 hbounded
    by_cases hlength : state.length = 0
    · rw [if_pos hlength]
      split
      next hpayload =>
          refine iff_of_false (fun h => by cases h) ?_
          intro h
          obtain ⟨h1, h2, h3, h4, h5⟩ := h.empty hlength
          tauto
      next hpayload =>
          refine iff_of_true rfl ⟨hle, ?_, fun hne => absurd hlength hne⟩
          intro _
          simp only [not_or, not_not] at hpayload
          exact hpayload
    · rw [if_neg hlength]
      have hshape := fun product => @shapeProduct_eq_ok_iff
        "generic attention state geometry is empty" "generic attention state geometry overflows"
        [state.batchSize, state.length, state.kvHeadCount, state.headDim] 1 product Nat.one_pos
        (by decide)
      simp only [Nat.one_mul] at hshape
      split
      next hzero =>
          refine iff_of_false (fun h => by cases h) ?_
          intro h
          have hnonzero := (h.filled hlength).1
          rcases hzero with hz | hz | hz
          · exact hnonzero state.batchSize (by simp) hz
          · exact hnonzero state.kvHeadCount (by simp) hz
          · exact hnonzero state.headDim (by simp) hz
      next hzero =>
          cases hresult : shapeProduct "generic attention state geometry is empty"
              "generic attention state geometry overflows"
              [state.batchSize, state.length, state.kvHeadCount, state.headDim] 1 with
          | error message =>
              refine iff_of_false (fun h => by cases h) ?_
              intro h
              obtain ⟨hnonzero, hfits, -⟩ := h.filled hlength
              have hok := (hshape _).2 ⟨hnonzero, hfits, rfl⟩
              rw [hresult] at hok
              cases hok
          | ok product =>
              obtain ⟨hnonzero, hfits, hproduct⟩ := (hshape product).1 hresult
              simp only
              split
              next hne =>
                  refine iff_of_false (fun h => by cases h) ?_
                  intro h
                  obtain ⟨-, -, hkey, hvalue⟩ := h.filled hlength
                  rcases hne with hne | hne
                  · exact hne (hkey.trans hproduct.symm)
                  · exact hne (hvalue.trans hproduct.symm)
              next heq =>
                  refine iff_of_true rfl ⟨hle, fun hz => absurd hz hlength, ?_⟩
                  intro _
                  simp only [not_or, not_not] at heq
                  exact ⟨hnonzero, hfits, heq.1.trans hproduct, heq.2.trans hproduct⟩

/-! ### Accepted operands -/

section Accepted

variable {F : Type}

/-- The operands and the state that `attention` accepts. -/
structure Accepted (query key value : GenericTensor F) (attrs : AttentionAttributes F)
    (state : GenericExecutionState F) : Prop where
  valid : state.Valid
  queryShape : query.dimensions =
    [attrs.batchSize, attrs.queryLength, attrs.queryHeadCount, attrs.headDim]
  keyShape : key.dimensions = [attrs.batchSize, attrs.queryLength, attrs.kvHeadCount, attrs.headDim]
  valueShape : value.dimensions =
    [attrs.batchSize, attrs.queryLength, attrs.kvHeadCount, attrs.headDim]
  binding : state.bindingId = attrs.state
  visible : attrs.currentKvLength = state.length + attrs.queryLength
  room : attrs.queryLength.toNat ≤ state.capacity.toNat - state.length.toNat
  groups : attrs.queryHeadCount % attrs.kvHeadCount = 0
  queryPayload : query.WellFormed
  keyPayload : key.WellFormed
  valuePayload : value.WellFormed
  geometry : state.length ≠ 0 → state.batchSize = attrs.batchSize ∧
    state.kvHeadCount = attrs.kvHeadCount ∧ state.headDim = attrs.headDim

theorem attentionChecks_eq_ok_iff (query key value : GenericTensor F)
    (attrs : AttentionAttributes F) (state : GenericExecutionState F) :
    attentionChecks query key value attrs state = .ok () ↔
      Accepted query key value attrs state := by
  unfold attentionChecks
  simp only [bind_eq_ok_iff, rejectIf_eq_ok_iff, GenericTensor.elements_eq_ok_iff,
    GenericExecutionState.validatePayload_eq_ok_iff, not_or, not_and, not_not, not_lt, ne_eq]
  constructor
  · intro h
    obtain ⟨-, hvalid, -, hchecks, -, ⟨hquery, -⟩, -, ⟨hkey, -⟩, -, ⟨hvalue, -⟩, hgeometry⟩ := h
    obtain ⟨hqueryShape, hkeyShape, hvalueShape, hbinding, hvisible, hroom, hgroups⟩ := hchecks
    exact ⟨hvalid, hqueryShape, hkeyShape, hvalueShape, hbinding, hvisible, hroom, hgroups, hquery,
      hkey, hvalue, hgeometry⟩
  · intro h
    exact ⟨(), h.valid, (), ⟨h.queryShape, h.keyShape, h.valueShape, h.binding, h.visible, h.room,
      h.groups⟩, _, ⟨h.queryPayload, rfl⟩, _, ⟨h.keyPayload, rfl⟩, _, ⟨h.valuePayload, rfl⟩,
      h.geometry⟩

theorem elementCount_shape4 (a b c d : UInt64) :
    elementCount [a, b, c, d] = a.toNat * (b.toNat * (c.toNat * d.toNat)) := by
  simp [elementCount]

end Accepted

/-! ### The output -/

section Output

variable {F : Type} [Field F] [LinearOrder F]

/-- Attention of one query head over the positions up to `last`. -/
def attend (math : ExactMath F) (last dimension : Nat) (scale : F) (q : Nat → F)
    (k v : Nat → Nat → F) (component : Nat) : F :=
  weighted math (scores last dimension scale q k) (fun keyPosition => v keyPosition component)

omit [LinearOrder F] in
theorem length_scores (last dimension : Nat) (scale : F) (q : Nat → F) (k : Nat → Nat → F) :
    (scores last dimension scale q k).length = last + 1 := by
  rw [scores, List.length_map, List.length_range]

theorem foldl_congr_mem {α β : Type} {f f' : β → α → β} {l : List α}
    (h : ∀ b a, a ∈ l → f b a = f' b a) (init : β) : l.foldl f init = l.foldl f' init := by
  induction l generalizing init with
  | nil => rfl
  | cons a rest ih =>
      rw [List.foldl_cons, List.foldl_cons, h init a List.mem_cons_self]
      exact ih (fun b c hc => h b c (List.mem_cons_of_mem a hc)) _

/-- Attention depends on what is visible only. -/
theorem attend_congr (math : ExactMath F) {last dimension : Nat} (scale : F) {q q' : Nat → F}
    {k k' v v' : Nat → Nat → F} {component : Nat}
    (hq : ∀ c, c < dimension → q c = q' c)
    (hk : ∀ p c, p ≤ last → c < dimension → k p c = k' p c)
    (hv : ∀ p, p ≤ last → v p component = v' p component) :
    attend math last dimension scale q k v component =
      attend math last dimension scale q' k' v' component := by
  have hscores : scores last dimension scale q k = scores last dimension scale q' k' := by
    apply List.map_congr_left
    intro p hp
    have hle : p ≤ last := Nat.le_of_lt_succ (List.mem_range.1 hp)
    congr 1
    apply foldl_congr_mem
    intro dot c hc
    rw [hq c (List.mem_range.1 hc), hk p c hle (List.mem_range.1 hc)]
  unfold attend
  rw [hscores]
  unfold weighted
  apply foldl_congr_mem
  intro sum p hp
  have hlt := List.mem_range.1 hp
  rw [length_scores] at hlt
  show sum + _ * v p component = sum + _ * v' p component
  rw [hv p (Nat.le_of_lt_succ hlt)]

/-- The last position that a query position sees. -/
def lastVisible (attrs : AttentionAttributes F) (oldLength queryPosition : Nat) : Nat :=
  if attrs.mask = .causal then oldLength + queryPosition else attrs.currentKvLength.toNat - 1

/-- The loops of `attention` fill the output with what each head attends to. -/
theorem attentionOutput_eq (math : ExactMath F) {query key value : GenericTensor F}
    {attrs : AttentionAttributes F} {state : GenericExecutionState F}
    (h : Accepted query key value attrs state) :
    attentionOutput math query key value attrs state =
      flat4 attrs.batchSize.toNat attrs.queryLength.toNat attrs.queryHeadCount.toNat
        attrs.headDim.toNat (fun batch queryPosition queryHead component =>
          attend math (lastVisible attrs state.length.toNat queryPosition) attrs.headDim.toNat
            attrs.scale
            (fun c => query.values.getD (index4 attrs.queryLength.toNat attrs.queryHeadCount.toNat
              attrs.headDim.toNat batch queryPosition queryHead c) 0)
            (keyOrValue state.key key.values state.length.toNat attrs.queryLength.toNat
              attrs.kvHeadCount.toNat attrs.headDim.toNat batch
              (queryHead / (attrs.queryHeadCount.toNat / attrs.kvHeadCount.toNat)))
            (keyOrValue state.value value.values state.length.toNat attrs.queryLength.toNat
              attrs.kvHeadCount.toNat attrs.headDim.toNat batch
              (queryHead / (attrs.queryHeadCount.toNat / attrs.kvHeadCount.toNat)))
            component) := by
  have hlength : (List.replicate query.values.length (0 : F)).length =
      attrs.batchSize.toNat * (attrs.queryLength.toNat * (attrs.queryHeadCount.toNat *
        attrs.headDim.toNat)) := by
    rw [List.length_replicate, h.queryPayload.length, h.queryShape, elementCount_shape4]
  rw [← fill4 _ _ _ _ _ hlength]
  rfl

end Output

end VBuf.Runtime
