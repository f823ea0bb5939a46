import Mathlib
import VBuf.Runtime.GenericGraph

/-!
# Routing and expert dispatch

`top_k` and `expert_dispatch` of the generic executor over exact numbers.  An
index outside a vector, which ends the program, is an error here.  A cell of a
dispatch is the weighted sum of the expert over the ranks that chose it.
-/

namespace VBuf.Runtime

open VBuf.Lib

section Model

variable {F : Type} [Field F] [LinearOrder F]

/-- The order of the candidates: the higher corrected score, then the lower index. -/
def CandidateBefore (left right : F × Nat) : Prop :=
  right.1 < left.1 ∨ (right.1 = left.1 ∧ left.2 ≤ right.2)

instance : DecidableRel (CandidateBefore (F := F)) := fun left right =>
  inferInstanceAs (Decidable (right.1 < left.1 ∨ (right.1 = left.1 ∧ left.2 ≤ right.2)))

/-- The candidates of a token that are selected. -/
def selectCandidates (corrected : List F) (expertCount count token : Nat) : List (F × Nat) :=
  (((List.range expertCount).map fun index =>
    (corrected.getD (token * expertCount + index) 0, index)).insertionSort CandidateBefore).take count

/-- The weights of the selected candidates of a token. -/
def candidateWeights (scores : List F) (expertCount token : Nat) (selected : List (F × Nat)) :
    List F :=
  let denominator := (selected.map fun candidate =>
    scores.getD (token * expertCount + candidate.2) 0).sum
  selected.map fun candidate =>
    scores.getD (token * expertCount + candidate.2) 0 / (denominator + 1 / 10 ^ 20)

/-- `top_k`. -/
def topK (scores corrected : GenericTensor F) (count : UInt32) :
    Except String (GenericTopKSelection F) := do
  let last ← okOr scores.dimensions.getLast? "router score rank is invalid"
  let expertCount := last.toNat
  rejectIf (scores.dimensions ≠ corrected.dimensions ∨ expertCount = 0 ∨
    expertCount < count.toNat) "router score geometry is invalid"
  let tokenCount := scores.values.length / expertCount
  rejectIf (2 ^ 63 ≤ 4 * (tokenCount * count.toNat)) "capacity overflow"
  rejectIf (corrected.values.length < tokenCount * expertCount) "index out of bounds"
  let selected := selectCandidates corrected.values expertCount count.toNat
  pure
    { ids := (List.range tokenCount).flatMap fun token =>
        (selected token).map fun candidate => UInt32.ofNat candidate.2
      weights := (List.range tokenCount).flatMap fun token =>
        candidateWeights scores.values expertCount token (selected token)
      tokenCount := UInt64.ofNat tokenCount
      topK := count }

variable (math : ExactMath F)

/-- A channel of the activation of an expert at a row of the input. -/
def activatedChannel (input gate up : List F) (hidden row channel : Nat) : F :=
  rowDot input gate hidden row channel / (1 + math.exp (-rowDot input gate hidden row channel)) *
    rowDot input up hidden row channel

/-- A column of an expert at a row of the input. -/
def expertColumn (input gate up down : List F) (hidden intermediate row column : Nat) : F :=
  (List.range intermediate).foldl (fun sum channel =>
    sum + activatedChannel math input gate up hidden row channel *
      down.getD (column * intermediate + channel) 0) 0

/-- A cell of the output: the ranks that chose the expert add up. -/
def dispatchCell (input gate up down : List F) (hidden intermediate : Nat) (expertId : UInt32)
    (selection : GenericTopKSelection F) (token column : Nat) : F :=
  (List.range selection.topK.toNat).foldl (fun sum rank =>
    if selection.ids.getD (token * selection.topK.toNat + rank) 0 = expertId then
      sum + selection.weights.getD (token * selection.topK.toNat + rank) 0 *
        expertColumn math input gate up down hidden intermediate token column
    else sum) 0

/-- `expert_dispatch`. -/
def expertDispatch (input gate up down : GenericTensor F) (expertId : UInt32)
    (selection : GenericTopKSelection F) : Except String (GenericTensor F) := do
  rejectIf (input.dimensions.length ≠ 3 ∨ gate.dimensions.length ≠ 2 ∨
      up.dimensions ≠ gate.dimensions ∨ down.dimensions.length ≠ 2 ∨
      gate.dimensions.getD 1 0 ≠ input.dimensions.getD 2 0 ∨
      down.dimensions.getD 0 0 ≠ input.dimensions.getD 2 0 ∨
      down.dimensions.getD 1 0 ≠ gate.dimensions.getD 0 0)
    "generic expert dispatch geometry is invalid"
  rejectIf (2 ^ 64 ≤ (input.dimensions.getD 0 0).toNat * (input.dimensions.getD 1 0).toNat)
    "attempt to multiply with overflow"
  let tokenCount := (input.dimensions.getD 0 0).toNat * (input.dimensions.getD 1 0).toNat
  rejectIf (selection.tokenCount.toNat ≠ tokenCount)
    "generic expert selection token count is invalid"
  let hidden := (input.dimensions.getD 2 0).toNat
  let intermediate := (gate.dimensions.getD 0 0).toNat
  rejectIf (selection.ids.length < tokenCount * selection.topK.toNat) "index out of bounds"
  -- The vectors are read only for the ranks that chose the expert.
  rejectIf (∃ index ∈ List.range (tokenCount * selection.topK.toNat),
      selection.ids.getD index 0 = expertId ∧
        (selection.weights.length ≤ index ∨
          input.values.length < (index / selection.topK.toNat + 1) * hidden ∨
          gate.values.length < intermediate * hidden ∨ up.values.length < intermediate * hidden ∨
          down.values.length < hidden * intermediate))
    "index out of bounds"
  pure
    { dimensions := input.dimensions
      values := (List.range input.values.length).map fun index =>
        if index < tokenCount * hidden then
          dispatchCell math input.values gate.values up.values down.values hidden intermediate
            expertId selection (index / hidden) (index % hidden)
        else 0 }

/-- The executor with its routing and dispatch. -/
def exactKernels (rotary : GenericTensor F → RotaryAttributes F → Except String (GenericTensor F)) :
    GenericKernels F where
  rotary
  topK
  expertDispatch := expertDispatch math

end Model

section Sums

variable {F : Type} [Field F] [LinearOrder F] {math : ExactMath F}

omit [LinearOrder F] in
theorem foldl_add_eq_sum (f : Nat → F) (count : Nat) (start : F) :
    (List.range count).foldl (fun sum i => sum + f i) start =
      start + ∑ i ∈ Finset.range count, f i := by
  induction count with
  | zero => simp
  | succ count ih =>
      rw [List.range_succ, List.foldl_append, ih, List.foldl_cons, List.foldl_nil,
        Finset.sum_range_succ, add_assoc]

omit [LinearOrder F] in
/-- A row of the input against a row of the weight. -/
theorem rowDot_eq_sum (input weight : List F) (width row out : Nat) :
    rowDot input weight width row out = ∑ column ∈ Finset.range width,
      input.getD (row * width + column) 0 * weight.getD (out * width + column) 0 := by
  rw [rowDot, foldl_add_eq_sum, zero_add]

theorem expertColumn_eq_sum (input gate up down : List F) (hidden intermediate row column : Nat) :
    expertColumn math input gate up down hidden intermediate row column =
      ∑ channel ∈ Finset.range intermediate,
        activatedChannel math input gate up hidden row channel *
          down.getD (column * intermediate + channel) 0 := by
  rw [expertColumn, foldl_add_eq_sum, zero_add]

/-- A cell of a dispatch as a sum over the ranks. -/
theorem dispatchCell_eq_sum (input gate up down : List F) (hidden intermediate : Nat)
    (expertId : UInt32) (selection : GenericTopKSelection F) (token column : Nat) :
    dispatchCell math input gate up down hidden intermediate expertId selection token column =
      ∑ rank ∈ Finset.range selection.topK.toNat,
        if selection.ids.getD (token * selection.topK.toNat + rank) 0 = expertId then
          selection.weights.getD (token * selection.topK.toNat + rank) 0 *
            expertColumn math input gate up down hidden intermediate token column
        else 0 := by
  have hstep : ∀ (sum : F) (rank : Nat),
      (if selection.ids.getD (token * selection.topK.toNat + rank) 0 = expertId then
        sum + selection.weights.getD (token * selection.topK.toNat + rank) 0 *
          expertColumn math input gate up down hidden intermediate token column
      else sum) = sum + if selection.ids.getD (token * selection.topK.toNat + rank) 0 = expertId then
        selection.weights.getD (token * selection.topK.toNat + rank) 0 *
          expertColumn math input gate up down hidden intermediate token column
      else 0 := by
    intro sum rank
    split
    · rfl
    · rw [add_zero]
  simp only [dispatchCell, hstep]
  rw [foldl_add_eq_sum, zero_add]

end Sums

section Selection

variable {F : Type} [Field F] [LinearOrder F]

theorem length_flatMap_const {α β : Type} {size : Nat} {f : α → List β} (items : List α)
    (h : ∀ item ∈ items, (f item).length = size) :
    (items.flatMap f).length = items.length * size := by
  induction items with
  | nil => rw [List.flatMap_nil, List.length_nil, List.length_nil, Nat.zero_mul]
  | cons item rest ih =>
      rw [List.forall_mem_cons] at h
      rw [List.flatMap_cons, List.length_append, h.1, ih h.2, List.length_cons, Nat.succ_mul,
        Nat.add_comm]

/-- A selection has as many ids as its tokens have ranks. -/
theorem topK_ids_length {scores corrected : GenericTensor F} {count : UInt32}
    {selection : GenericTopKSelection F} (h : topK scores corrected count = .ok selection) :
    selection.ids.length = selection.tokenCount.toNat * selection.topK.toNat := by
  simp only [topK, bind_eq_ok_iff, okOr_eq_ok_iff, rejectIf_eq_ok_iff, pure_eq_ok_iff, not_or,
    not_not, not_lt, not_le] at h
  obtain ⟨last, -, _, ⟨-, -, hcount⟩, _, hcapacity, _, -, rfl⟩ := h
  have hids : ((List.range (scores.values.length / last.toNat)).flatMap fun token =>
      (selectCandidates corrected.values last.toNat count.toNat token).map fun candidate =>
        UInt32.ofNat candidate.2).length = scores.values.length / last.toNat * count.toNat := by
    rw [length_flatMap_const, List.length_range]
    intro token _
    rw [List.length_map, selectCandidates, List.length_take, List.length_insertionSort,
      List.length_map, List.length_range]
    exact Nat.min_eq_left hcount
  refine hids.trans ?_
  show _ = (UInt64.ofNat (scores.values.length / last.toNat)).toNat * count.toNat
  -- Without ranks nothing bounds the token count, and both sides are zero.
  by_cases hzero : count.toNat = 0
  · rw [hzero, Nat.mul_zero, Nat.mul_zero]
  · have hle := Nat.le_mul_of_pos_right (scores.values.length / last.toNat)
      (Nat.pos_of_ne_zero hzero)
    have hsize : (UInt64.ofNat (scores.values.length / last.toNat)).toNat =
        scores.values.length / last.toNat := UInt64.toNat_ofNat_of_lt' (by
      show _ < 2 ^ 64
      omega)
    rw [hsize]

end Selection

end VBuf.Runtime
