import Mathlib.Data.Prod.Lex
import Mathlib.Algebra.Order.Group.Unbundled.Int
import VBuf.Lib.Ranking
import VBuf.Runtime.GenericGraph

/-!
# The two selections of experts

`top_k` of the generic executor and `deterministic_top_k` of the adapter, on the bit
patterns of scores.  The one compares by `f32::total_cmp`, where `-0` comes before
`+0`, and the other by `>` and `!=`, where they are one number.
-/

namespace VBuf.Ggml.TopK

open VBuf.Lib VBuf.Lib.Ranking
open VBuf.Runtime (GenericTensor GenericTopKSelection)

/-- The bit pattern of an `f32`. -/
structure F32 where
  bits : UInt32
  deriving DecidableEq, Repr

namespace F32

def positiveZero : F32 := ⟨0⟩
def negativeZero : F32 := ⟨0x80000000⟩

def negative (score : F32) : Prop := 2 ^ 31 ≤ score.bits.toNat

instance (score : F32) : Decidable score.negative := Nat.decLe _ _

/-- The exponent and the mantissa. -/
def magnitude (score : F32) : Nat := score.bits.toNat % 2 ^ 31

/-- `std::isfinite`. -/
def isFinite (score : F32) : Prop := score.magnitude < 0x7f800000

instance (score : F32) : Decidable score.isFinite := Nat.decLt _ _

/-- Finite numbers compare by `<` and `==` as these values do: sign and magnitude. -/
def value (score : F32) : Int :=
  if score.negative then -(score.magnitude : Int) else score.magnitude

/-- What `total_cmp` compares: the bits as a signed number, all but the sign flipped when
it is negative. -/
def totalOrder (score : F32) : Int :=
  if score.negative then -(score.magnitude : Int) - 1 else score.magnitude

variable {score other : F32}

theorem bits_eq : score.bits.toNat =
    if score.negative then 2 ^ 31 + score.magnitude else score.magnitude := by
  have hbits := score.bits.toNat_lt
  unfold magnitude
  split <;> rename_i hsign <;> unfold negative at hsign <;> omega

/-- The total order refines the numbers: it tells the two zeros apart and nothing else. -/
theorem totalOrder_lt_of_value_lt (h : score.value < other.value) :
    score.totalOrder < other.totalOrder := by
  unfold value at h
  unfold totalOrder
  split_ifs at h ⊢ <;> omega

theorem zeros_of_value_eq (hvalue : score.value = other.value)
    (htotal : score.totalOrder < other.totalOrder) :
    score = negativeZero ∧ other = positiveZero := by
  have hscore := @bits_eq score
  have hother := @bits_eq other
  unfold value at hvalue
  unfold totalOrder at htotal
  have hbits : score.bits.toNat = 2 ^ 31 ∧ other.bits.toNat = 0 := by
    split_ifs at hvalue htotal hscore hother <;> omega
  refine ⟨?_, ?_⟩
  · have : score.bits = 0x80000000 := UInt32.toNat_inj.1 hbits.1
    rw [negativeZero, ← this]
  · have : other.bits = 0 := UInt32.toNat_inj.1 hbits.2
    rw [positiveZero, ← this]

end F32

/-! ### The generic executor -/

/-- The arithmetic of `f32`; `zero` is what a sum starts from, `tiny` is `1e-20`. -/
structure Arithmetic where
  zero : F32
  tiny : F32
  add : F32 → F32 → F32
  div : F32 → F32 → F32

/-- `right.0.total_cmp(&left.0).then(left.1.cmp(&right.1))` is not `Greater`. -/
def CandidateBefore (left right : F32 × Nat) : Prop :=
  right.1.totalOrder < left.1.totalOrder ∨
    (right.1.totalOrder = left.1.totalOrder ∧ left.2 ≤ right.2)

instance : DecidableRel CandidateBefore := fun _ _ => instDecidableOr

/-- The candidates of a token that are selected. -/
def selectCandidates (corrected : List F32) (expertCount count token : Nat) : List (F32 × Nat) :=
  (((List.range expertCount).map fun index =>
    (corrected.getD (token * expertCount + index) F32.positiveZero, index)).insertionSort
      CandidateBefore).take count

/-- The weights of the selected candidates of a token. -/
def candidateWeights (arithmetic : Arithmetic) (scores : List F32) (expertCount token : Nat)
    (selected : List (F32 × Nat)) : List F32 :=
  let score (candidate : F32 × Nat) : F32 :=
    scores.getD (token * expertCount + candidate.2) F32.positiveZero
  let denominator := (selected.map score).foldl arithmetic.add arithmetic.zero
  selected.map fun candidate =>
    arithmetic.div (score candidate) (arithmetic.add denominator arithmetic.tiny)

/-- `top_k`, on a host with 64-bit sizes. -/
def topK (arithmetic : Arithmetic) (scores corrected : GenericTensor F32) (count : UInt32) :
    Except String (GenericTopKSelection F32) := do
  let last ← okOr scores.dimensions.getLast? "router score rank is invalid"
  let expertCount := last.toNat
  rejectIf (scores.dimensions ≠ corrected.dimensions ∨ expertCount = 0 ∨
    expertCount < count.toNat) "router score geometry is invalid"
  let tokenCount := scores.values.length / expertCount
  rejectIf (2 ^ 63 ≤ 4 * (tokenCount * count.toNat)) "capacity overflow"
  rejectIf (corrected.values.length < tokenCount * expertCount) "index out of bounds"
  let selected := selectCandidates corrected.values expertCount count.toNat
  pure
    { ids := (List.range tokenCount).flatMap fun token =>
        (selected token).map fun candidate => UInt32.ofNat candidate.2
      weights := (List.range tokenCount).flatMap fun token =>
        candidateWeights arithmetic scores.values expertCount token (selected token)
      tokenCount := UInt64.ofNat tokenCount
      topK := count }

/-! ### The adapter -/

/-- The score of an expert. -/
def scoreAt (scores : List F32) (id : Nat) : F32 := scores.getD id F32.positiveZero

structure TopKSelection where
  ids : List UInt32
  scores : List F32
  deriving DecidableEq, Repr

/-- The comparison of `std::stable_sort`. -/
def ScoreBefore (scores : List F32) (lhs rhs : Nat) : Prop :=
  if (scoreAt scores lhs).value ≠ (scoreAt scores rhs).value then
    (scoreAt scores rhs).value < (scoreAt scores lhs).value
  else lhs < rhs

instance (scores : List F32) : DecidableRel (ScoreBefore scores) := fun _ _ => instDecidableIte

/-- `deterministic_top_k`, into an output that is there. -/
def deterministicTopK (scores : List F32) (expertCount k : UInt32) :
    Except String TopKSelection := do
  rejectIf (scores.length ≠ expertCount.toNat) "score-count and expert-count mismatch"
  rejectIf (k = 0 ∨ expertCount < k) "top-k is outside the expert-count bounds"
  rejectIf (∃ score ∈ scores, ¬ score.isFinite) "non-finite router score"
  let order := (List.range expertCount.toNat).insertionSort fun lhs rhs =>
    ¬ ScoreBefore scores rhs lhs
  let ids := order.take k.toNat
  pure { ids := ids.map UInt32.ofNat, scores := ids.map (scoreAt scores) }

/-! ### The keys of the two orders -/

/-- By number, the higher first, then by index. -/
def valueKey (scores : List F32) (id : Nat) : Int ×ₗ Nat := toLex (-(scoreAt scores id).value, id)

/-- By the total order, the higher first, then by index. -/
def totalKey (scores : List F32) (id : Nat) : Int ×ₗ Nat :=
  toLex (-(scoreAt scores id).totalOrder, id)

section Keys

variable {scores : List F32} {i j : Nat}

theorem valueKey_lt_iff : valueKey scores i < valueKey scores j ↔
    (scoreAt scores j).value < (scoreAt scores i).value ∨
      ((scoreAt scores i).value = (scoreAt scores j).value ∧ i < j) := by
  rw [valueKey, valueKey, Prod.Lex.toLex_lt_toLex, neg_lt_neg_iff, neg_inj]

theorem totalKey_lt_iff : totalKey scores i < totalKey scores j ↔
    (scoreAt scores j).totalOrder < (scoreAt scores i).totalOrder ∨
      ((scoreAt scores i).totalOrder = (scoreAt scores j).totalOrder ∧ i < j) := by
  rw [totalKey, totalKey, Prod.Lex.toLex_lt_toLex, neg_lt_neg_iff, neg_inj]

theorem not_scoreBefore_iff :
    ¬ ScoreBefore scores j i ↔ valueKey scores i ≤ valueKey scores j := by
  rw [← not_lt, valueKey_lt_iff, not_iff_not, ScoreBefore]
  split_ifs <;> omega

theorem candidateBefore_iff :
    CandidateBefore (scoreAt scores i, i) (scoreAt scores j, j) ↔
      totalKey scores i ≤ totalKey scores j := by
  rw [← not_lt, totalKey_lt_iff, CandidateBefore]
  dsimp only
  omega

theorem nodup_valueKey {n : Nat} : ((List.range n).map (valueKey scores)).Nodup := by
  refine List.Nodup.map ?_ List.nodup_range
  intro i j h
  exact (Prod.ext_iff.1 (toLex.injective h)).2

theorem nodup_totalKey {n : Nat} : ((List.range n).map (totalKey scores)).Nodup := by
  refine List.Nodup.map ?_ List.nodup_range
  intro i j h
  exact (Prod.ext_iff.1 (toLex.injective h)).2

/-- The two orders disagree about a `-0` in front of a `+0`, and about nothing else. -/
theorem disagree_iff : valueKey scores i < valueKey scores j ∧ totalKey scores j < totalKey scores i ↔
    i < j ∧ scoreAt scores i = F32.negativeZero ∧ scoreAt scores j = F32.positiveZero := by
  rw [valueKey_lt_iff, totalKey_lt_iff]
  constructor
  · intro ⟨hvalue, htotal⟩
    rcases hvalue with hlt | ⟨heq, hij⟩
    · have := F32.totalOrder_lt_of_value_lt hlt
      omega
    · have hless : (scoreAt scores i).totalOrder < (scoreAt scores j).totalOrder := by omega
      exact ⟨hij, F32.zeros_of_value_eq heq hless⟩
  · intro ⟨hij, hi, hj⟩
    rw [hi, hj]
    exact ⟨.inr ⟨by decide, hij⟩, .inl (by decide)⟩

end Keys

/-! ### When they agree -/

/-- How many experts have a positive score, or a zero at an earlier index. -/
def ahead (scores : List F32) (index : Nat) : Nat :=
  (List.range scores.length).countP fun id =>
    0 < (scoreAt scores id).value ∨ ((scoreAt scores id).value = 0 ∧ id < index)

/-- A `-0` in front of a `+0` has the first `k` experts ahead of it. -/
def ZerosInOrder (scores : List F32) (k : Nat) : Prop :=
  ∀ i j, i < j → scores[i]? = some F32.negativeZero → scores[j]? = some F32.positiveZero →
    k ≤ ahead scores i

variable {arithmetic : Arithmetic} {scores corrected : List F32} {shape : List UInt64}
  {expertCount k : UInt32} {selected : GenericTopKSelection F32} {chosen : TopKSelection}

theorem deterministicTopK_ok (h : deterministicTopK corrected expertCount k = .ok chosen) :
    corrected.length = expertCount.toNat ∧
      chosen.ids = ((sortBy (valueKey corrected) (List.range corrected.length)).take
        k.toNat).map UInt32.ofNat := by
  simp only [deterministicTopK, bind_eq_ok_iff, rejectIf_eq_ok_iff] at h
  obtain ⟨-, hlength, -, -, -, -, h⟩ := h
  rw [not_not] at hlength
  have hsort : (List.range expertCount.toNat).insertionSort (fun lhs rhs =>
      ¬ ScoreBefore corrected rhs lhs) =
      sortBy (valueKey corrected) (List.range expertCount.toNat) :=
    insertionSort_eq_sortBy fun _ _ => not_scoreBefore_iff
  rw [← Except.ok.inj h, hlength, hsort]
  exact ⟨rfl, rfl⟩

/-- The candidates of a vector are its indices in the total order. -/
theorem selectCandidates_indices (count : Nat) :
    (selectCandidates corrected corrected.length count 0).map (fun c => UInt32.ofNat c.2) =
      ((sortBy (totalKey corrected) (List.range corrected.length)).take count).map
        UInt32.ofNat := by
  have hsort : ((List.range corrected.length).map fun index =>
      (corrected.getD (0 * corrected.length + index) F32.positiveZero, index)).insertionSort
        CandidateBefore =
      (sortBy (totalKey corrected) (List.range corrected.length)).map fun index =>
        (scoreAt corrected index, index) := by
    rw [sortBy, List.map_insertionSort (r := fun a b => totalKey corrected a ≤ totalKey corrected b)
      (s := CandidateBefore)]
    · simp only [Nat.zero_mul, Nat.zero_add, scoreAt]
    · intro i _ j _
      exact candidateBefore_iff.symm
  rw [selectCandidates, hsort, ← List.map_take, List.map_map]
  rfl

theorem topK_ok (hlength : scores.length = corrected.length)
    (hshape : shape.getLast? = some expertCount.toUInt64)
    (hcount : corrected.length = expertCount.toNat)
    (h : topK arithmetic ⟨shape, scores⟩ ⟨shape, corrected⟩ k = .ok selected) :
    selected.ids = ((sortBy (totalKey corrected) (List.range corrected.length)).take
      k.toNat).map UInt32.ofNat := by
  simp only [topK, bind_eq_ok_iff, rejectIf_eq_ok_iff, okOr_eq_ok_iff] at h
  obtain ⟨last, hlast, -, hgeometry, -, -, -, -, h⟩ := h
  have heq : last.toNat = corrected.length := by
    rw [hshape] at hlast
    rw [← Option.some.inj hlast, UInt32.toNat_toUInt64, hcount]
  have hpos : 0 < corrected.length := by omega
  rw [heq, hlength, Nat.div_self hpos] at h
  rw [← Except.ok.inj h, ← selectCandidates_indices]
  exact List.flatMap_singleton _ _

/-- An index has as many before it as are ahead of it, when its score is a zero. -/
theorem rank_valueKey {i : Nat} (h : (scoreAt scores i).value = 0) :
    rank (valueKey scores) (List.range scores.length) i = ahead scores i := by
  refine List.countP_congr ?_
  intro id _
  rw [decide_eq_true_eq, decide_eq_true_eq, valueKey_lt_iff, h]

theorem map_ofNat_inj {xs ys : List Nat} (hxs : ∀ x ∈ xs, x < 2 ^ 32) (hys : ∀ y ∈ ys, y < 2 ^ 32) :
    xs.map UInt32.ofNat = ys.map UInt32.ofNat ↔ xs = ys := by
  constructor
  · intro h
    have hback : ∀ zs : List Nat, (∀ z ∈ zs, z < 2 ^ 32) →
        (zs.map UInt32.ofNat).map UInt32.toNat = zs := by
      intro zs hzs
      rw [List.map_map]
      refine (List.map_congr_left ?_).trans (List.map_id _)
      intro z hz
      exact UInt32.toNat_ofNat_of_lt' (hzs z hz)
    rw [← hback xs hxs, h, hback ys hys]
  · rintro rfl
    rfl

theorem scoreAt_eq_iff {i : Nat} {score : F32} (hi : i < scores.length) :
    scoreAt scores i = score ↔ scores[i]? = some score := by
  rw [scoreAt, List.getD_eq_getElem?_getD, List.getElem?_eq_getElem hi, Option.getD_some,
    Option.some.injEq]

/-- The places of the first `k` agree exactly when the zeros in front of them are in order. -/
theorem take_sortBy_eq_iff {count : Nat} :
    (sortBy (totalKey scores) (List.range scores.length)).take count =
        (sortBy (valueKey scores) (List.range scores.length)).take count ↔
      ZerosInOrder scores count := by
  rw [eq_comm, take_eq_take_iff (sortBy_ascending nodup_valueKey) (sortBy_ascending nodup_totalKey)
    (sortBy_perm.trans sortBy_perm.symm)]
  simp only [mem_sortBy, List.mem_range]
  constructor
  · intro h i j hij hi hj
    have hilt := (List.getElem?_eq_some_iff.1 hi).1
    have hjlt := (List.getElem?_eq_some_iff.1 hj).1
    rw [← scoreAt_eq_iff hilt] at hi
    obtain ⟨hvalue, htotal⟩ := disagree_iff.2 ⟨hij, hi, (scoreAt_eq_iff hjlt).2 hj⟩
    have hrank := h i hilt j hjlt hvalue htotal
    rwa [rank_perm sortBy_perm, rank_valueKey (by rw [hi]; decide)] at hrank
  · intro h i hilt j hjlt hvalue htotal
    obtain ⟨hij, hi, hj⟩ := disagree_iff.1 ⟨hvalue, htotal⟩
    rw [rank_perm sortBy_perm, rank_valueKey (by rw [hi]; decide)]
    exact h i j hij ((scoreAt_eq_iff hilt).1 hi) ((scoreAt_eq_iff hjlt).1 hj)

/-- For a vector of scores that both accept, the two selections agree exactly when every
`-0` in front of a `+0` has the first `k` experts ahead of it. -/
theorem topK_agrees_iff (hlength : scores.length = corrected.length)
    (hshape : shape.getLast? = some expertCount.toUInt64)
    (hrust : topK arithmetic ⟨shape, scores⟩ ⟨shape, corrected⟩ k = .ok selected)
    (hadapter : deterministicTopK corrected expertCount k = .ok chosen) :
    selected.ids = chosen.ids ↔ ZerosInOrder corrected k.toNat := by
  obtain ⟨hcount, hchosen⟩ := deterministicTopK_ok hadapter
  rw [topK_ok hlength hshape hcount hrust, hchosen, map_ofNat_inj, take_sortBy_eq_iff]
  all_goals
    intro index hindex
    have hrange := List.mem_range.1 (mem_sortBy.1 (List.mem_of_mem_take hindex))
    have := expertCount.toNat_lt
    omega

/-- An arithmetic whose results nothing looks at. -/
def exampleArithmetic : Arithmetic where
  zero := F32.positiveZero
  tiny := F32.positiveZero
  add := fun left _ => left
  div := fun left _ => left

theorem topK_agrees_iff_example :
    ∃ selected chosen,
      topK exampleArithmetic ⟨[2], [F32.positiveZero, F32.negativeZero]⟩
        ⟨[2], [F32.positiveZero, F32.negativeZero]⟩ 1 = .ok selected ∧
      deterministicTopK [F32.positiveZero, F32.negativeZero] 2 1 = .ok chosen ∧
      (selected.ids = chosen.ids ↔
        ZerosInOrder [F32.positiveZero, F32.negativeZero] (1 : UInt32).toNat) :=
  ⟨_, _, rfl, rfl, @topK_agrees_iff _ _ _ _ 2 _ _ _ rfl rfl
    (rfl : topK exampleArithmetic ⟨[2], [F32.positiveZero, F32.negativeZero]⟩
      ⟨[2], [F32.positiveZero, F32.negativeZero]⟩ 1 = _) rfl⟩

/-- A `-0` in front of a `+0`: the one selects the second expert, the other the first. -/
theorem topK_signed_zero :
    ∃ selected chosen,
      topK exampleArithmetic ⟨[2], [F32.negativeZero, F32.positiveZero]⟩
        ⟨[2], [F32.negativeZero, F32.positiveZero]⟩ 1 = .ok selected ∧
      deterministicTopK [F32.negativeZero, F32.positiveZero] 2 1 = .ok chosen ∧
      selected.ids = [1] ∧ chosen.ids = [0] := by
  refine ⟨_, _, rfl, rfl, ?_⟩
  decide

end VBuf.Ggml.TopK
