import VBuf.Runtime.CheckedKernels

/-!
# When the kernels do not panic

For each operator the operands on which none of its checks fails.  Most of them need no
more than a payload that is as long as the shape; sizes that are multiplied or added
without a check have to stay below the limits of the machine.
-/

namespace VBuf.Runtime.Checked

open VBuf.Lib VBuf.Lib.Outcome

/-- The values fit a vector of four-byte numbers, as the values of every tensor do. -/
def IsVector {α : Type} (values : List α) : Prop := 4 * values.length < 2 ^ 63

section Kernels

variable {F : Type} [Field F] [LinearOrder F] {math : ExactMath F}

/-! ### Rows -/

/-- The product of a matrix fits a vector. -/
def MatmulFits (input weight : GenericTensor F) : Prop :=
  ∀ out width, input.dimensions.getLast? = some width → weight.dimensions = [out, width] →
    input.WellFormed → weight.WellFormed →
    4 * (input.values.length / width.toNat * out.toNat) < 2 ^ 63

/-- The last dimension is zero, and the weight fits it. -/
def EmptyRows (input weight : GenericTensor F) : Prop :=
  input.dimensions.getLast? = some 0 ∧ weight = ⟨[0], []⟩

omit [Field F] [LinearOrder F] in
theorem getLast?_of_checkedLastDimension {tensor : GenericTensor F} {width : UInt64}
    (h : checkedLastDimension tensor = .ok width) : tensor.dimensions.getLast? = some width :=
  okOr_eq_ok_iff.1 h

omit [LinearOrder F] in
theorem rowSum_safe {input weight : List F} {rows outs width row out : Nat} (hrow : row < rows)
    (hout : out < outs) (hinput : rows * width ≤ input.length) (hweight : outs * width ≤ weight.length)
    (hinputVector : IsVector input) (hweightVector : IsVector weight) :
    Safe (rowSum input weight width row out) fun _ => True := by
  unfold IsVector at hinputVector hweightVector
  refine Safe.foldlM_range trivial fun column hcolumn sum _ => ?_
  have hleft := block_lt hrow hcolumn
  have hright := block_lt hout hcolumn
  refine (Safe.mulAdd (by omega)).bind ?_
  rintro _ rfl
  refine (Safe.read (by omega)).bind fun x _ => (Safe.mulAdd (by omega)).bind ?_
  rintro _ rfl
  exact (Safe.read (by omega)).bind fun y _ => trivial

omit [LinearOrder F] in
theorem matmul_safe {input weight : GenericTensor F} (hfits : MatmulFits input weight)
    (hinput : IsVector input.values) (hweight : IsVector weight.values) :
    Safe (matmul input weight) fun output => IsVector output.values := by
  refine Safe.ofExcept.bind fun width hwidth => Safe.rejectIf.bind fun _ hgeometry => ?_
  rw [not_or, not_not, not_not] at hgeometry
  refine Safe.ofExcept.bind fun elements helements => Safe.ofExcept.bind fun others hothers => ?_
  obtain ⟨hinputFormed, -⟩ := (input.elements_eq_ok_iff elements).1 helements
  obtain ⟨hweightFormed, -⟩ := (weight.elements_eq_ok_iff others).1 hothers
  have hlast := getLast?_of_checkedLastDimension hwidth
  obtain ⟨out, hdimensions⟩ : ∃ out, weight.dimensions = [out, width] := by
    obtain ⟨out, other, hdims⟩ := List.length_eq_two.1 hgeometry.1
    rw [hdims] at hgeometry
    obtain rfl : other = width := Option.some.inj hgeometry.2
    exact ⟨out, hdims⟩
  have hpos := toNat_pos_of_ne (hinputFormed.nonzero width (List.mem_of_getLast? hlast))
  have hcount := hfits out width hlast hdimensions hinputFormed hweightFormed
  have hrows := Nat.div_mul_le_self input.values.length width.toNat
  have hweightLength : weight.values.length = out.toNat * width.toNat := by
    rw [hweightFormed.length, hdimensions]
    exact congrArg (out.toNat * ·) (Nat.mul_one _)
  have hhead : weight.dimensions.headD 0 = out := by rw [hdimensions]; rfl
  rw [hhead]
  refine (Safe.divide (Nat.ne_of_gt hpos)).bind ?_
  rintro _ rfl
  refine (Safe.checked (by omega)).bind ?_
  rintro _ rfl
  refine (Safe.allocate hcount).bind fun _ _ => ?_
  have hloop := @Safe.foldlM_range (List F) (input.values.length / width.toNat)
    (fun output row => (List.range out.toNat).foldlM (fun output column => do
      let sum ← rowSum input.values weight.values width.toNat row column
      let index ← mulAdd row out.toNat column
      write output index sum) output)
    (fun output => output.length = input.values.length / width.toNat * out.toNat)
    (List.replicate (input.values.length / width.toNat * out.toNat) 0) List.length_replicate ?_
  · refine hloop.bind fun values hvalues => ?_
    show 4 * values.length < 2 ^ 63
    rwa [hvalues]
  · intro row hrow output houtput
    refine Safe.foldlM_range houtput fun column hcolumn output houtput => ?_
    have hcell := block_lt hrow hcolumn
    refine (rowSum_safe hrow hcolumn hrows (Nat.le_of_eq hweightLength.symm) hinput hweight).bind
      fun sum _ => (Safe.mulAdd (by omega)).bind ?_
    rintro _ rfl
    exact (Safe.write (by omega)).mono fun ys hys => hys.trans houtput

theorem normRow_safe {input weight output : List F} {epsilon : F} {width rows row : Nat}
    (hrow : row < rows) (hinput : rows * width ≤ input.length) (hvector : IsVector input)
    (hweight : weight.length = width) (houtput : output.length = input.length) :
    Safe (normRow math input weight epsilon width output row) fun after =>
      after.length = input.length := by
  unfold IsVector at hvector
  have hend : row * width + width ≤ rows * width := by
    rw [← Nat.succ_mul]
    exact Nat.mul_le_mul_right width hrow
  refine (Safe.checked (by omega)).bind ?_
  rintro _ rfl
  refine (Safe.checked (by omega)).bind fun _ _ => (Safe.slice (by omega)).bind fun chunk _ => ?_
  refine Safe.foldlM_range houtput fun column hcolumn output houtput => ?_
  refine (Safe.checked (by omega)).bind ?_
  rintro _ rfl
  refine (Safe.read (by omega)).bind fun value _ => (Safe.read (by omega)).bind fun factor _ => ?_
  exact (Safe.write (by omega)).mono fun ys hys => hys.trans houtput

theorem rmsNorm_safe {input weight : GenericTensor F} {epsilon : F}
    (hrows : ¬ (EmptyRows input weight ∧ math.isFinite epsilon = true))
    (hinput : IsVector input.values) :
    Safe (rmsNorm math input weight epsilon) fun output => IsVector output.values := by
  refine Safe.ofExcept.bind fun width hwidth => Safe.rejectIf.bind fun _ hgeometry => ?_
  simp only [not_or, not_not, Bool.not_eq_false] at hgeometry
  obtain ⟨hdimensions, hlength, hfinite⟩ := hgeometry
  have hlast := getLast?_of_checkedLastDimension hwidth
  have hne : width ≠ 0 := by
    rintro rfl
    refine hrows ⟨⟨hlast, ?_⟩, hfinite⟩
    obtain ⟨dimensions, values⟩ := weight
    rw [GenericTensor.mk.injEq]
    exact ⟨hdimensions, List.length_eq_zero_iff.1 hlength⟩
  refine (Safe.divide (Nat.ne_of_gt (toNat_pos_of_ne hne))).bind ?_
  rintro _ rfl
  have hloop : Safe ((List.range (input.values.length / width.toNat)).foldlM
      (normRow math input.values weight.values epsilon width.toNat)
      (List.replicate input.values.length 0)) fun output => output.length = input.values.length :=
    Safe.foldlM_range List.length_replicate fun row hrow output houtput => normRow_safe hrow
      (Nat.div_mul_le_self input.values.length width.toNat) hinput hlength houtput
  refine hloop.bind fun values hvalues => ?_
  show 4 * values.length < 2 ^ 63
  rw [hvalues]
  exact hinput

omit [LinearOrder F] in
theorem biasAdd_safe {input bias : GenericTensor F} (hrows : ¬ EmptyRows input bias)
    (hinput : IsVector input.values) :
    Safe (biasAdd input bias) fun output => IsVector output.values := by
  refine Safe.ofExcept.bind fun width hwidth => Safe.rejectIf.bind fun _ hgeometry => ?_
  simp only [not_or, not_not] at hgeometry
  obtain ⟨hdimensions, hlength⟩ := hgeometry
  have hlast := getLast?_of_checkedLastDimension hwidth
  have hne : width ≠ 0 := by
    rintro rfl
    refine hrows ⟨hlast, ?_⟩
    obtain ⟨dimensions, values⟩ := bias
    rw [GenericTensor.mk.injEq]
    exact ⟨hdimensions, List.length_eq_zero_iff.1 hlength⟩
  refine (Safe.divide (Nat.ne_of_gt (toNat_pos_of_ne hne))).bind ?_
  rintro _ rfl
  have hwhole := Nat.div_mul_le_self input.values.length width.toNat
  refine @Safe.bind _ _ _ (fun output : List F => output.length = input.values.length) _ _
    (Safe.foldlM_range rfl fun row hrow output houtput => ?_) fun values hvalues => ?_
  · refine Safe.foldlM_range houtput fun column hcolumn output houtput => ?_
    have hcell := block_lt hrow hcolumn
    refine (Safe.read (by omega)).bind fun value _ => (Safe.read (by omega)).bind fun addend _ => ?_
    exact (Safe.write (by omega)).mono fun ys hys => hys.trans houtput
  · show 4 * values.length < 2 ^ 63
    rw [hvalues]
    exact hinput

/-! ### Rotary positions -/

/-- The last pair of the last head is in the payload, and the positions can be counted. -/
def RotaryFits (input : GenericTensor F) (attrs : RotaryAttributes F) : Prop :=
  ∀ batches sequence, input.dimensions = [batches, sequence, attrs.headCount, attrs.headDim] →
    batches ≠ 0 → sequence ≠ 0 →
    (batches.toNat * (sequence.toNat * attrs.headCount.toNat) - 1) * attrs.headDim.toNat +
        attrs.rotaryDim.toNat ≤ input.values.length ∧
      attrs.positionStart.toNat + sequence.toNat ≤ 2 ^ 64

omit [LinearOrder F] in
theorem rotatePair_safe {angle : RotaryAttributes F → Nat → Nat → F × F}
    {attrs : RotaryAttributes F} {input output : List F} {base position index : Nat}
    (hposition : attrs.positionStart.toNat + position < 2 ^ 64)
    (hbase : base + attrs.rotaryDim.toNat ≤ input.length) (hvector : IsVector input)
    (hindex : index < attrs.rotaryDim.toNat / 2) (houtput : output.length = input.length) :
    Safe (rotatePair angle attrs input base position output index) fun after =>
      after.length = input.length := by
  unfold IsVector at hvector
  refine (Safe.checked hposition).bind fun place _ => (Safe.checked (by omega)).bind ?_
  rintro _ rfl
  refine (Safe.read (by omega)).bind fun left _ => (Safe.checked (by omega)).bind ?_
  rintro _ rfl
  refine (Safe.checked (by omega)).bind ?_
  rintro _ rfl
  refine (Safe.read (by omega)).bind fun right _ => (Safe.write (by omega)).bind fun ys hys => ?_
  exact (Safe.write (by omega)).mono fun zs hzs => hzs.trans (hys.trans houtput)

theorem exists_of_length_four {α : Type} {xs : List α} (h : xs.length = 4) :
    ∃ a b c d, xs = [a, b, c, d] := by
  obtain ⟨a, rest, rfl⟩ := List.exists_cons_of_length_eq_add_one h
  obtain ⟨b, c, d, rfl⟩ := List.length_eq_three.1 (Nat.succ.inj h)
  exact ⟨a, b, c, d, rfl⟩

omit [LinearOrder F] in
theorem rotary_safe {angle : RotaryAttributes F → Nat → Nat → F × F} {input : GenericTensor F}
    {attrs : RotaryAttributes F} (hfits : RotaryFits input attrs) (hdim : attrs.headDim ≠ 0)
    (hinput : IsVector input.values) :
    Safe (rotary angle input attrs) fun output => IsVector output.values := by
  refine Safe.rejectIf.bind fun _ hgeometry => ?_
  simp only [not_or, not_not] at hgeometry
  obtain ⟨hrank, hheads, hdimension, -⟩ := hgeometry
  obtain ⟨batches, sequence, heads, dimension, hdimensions⟩ := exists_of_length_four hrank
  rw [hdimensions] at hheads hdimension
  obtain rfl : heads = attrs.headCount := hheads
  obtain rfl : dimension = attrs.headDim := hdimension
  have hpositive := toNat_pos_of_ne hdim
  have hvector := hinput
  unfold IsVector at hvector
  rw [hdimensions]
  refine @Safe.bind _ _ _ (fun output : List F => output.length = input.values.length) _ _ ?_
    fun values hvalues => ?_
  · refine Safe.foldlM_range rfl fun batch hbatch output houtput => ?_
    refine Safe.foldlM_range houtput fun position hposition output houtput => ?_
    refine Safe.foldlM_range houtput fun head hhead output houtput => ?_
    have hne : ∀ {n : UInt64} {m : Nat}, m < n.toNat → n ≠ 0 := by
      rintro n m hlt rfl
      exact Nat.not_lt_zero m hlt
    obtain ⟨hpayload, hpositions⟩ := hfits batches sequence hdimensions (hne hbatch) (hne hposition)
    change batch < batches.toNat at hbatch
    change position < sequence.toNat at hposition
    have hlast : batches.toNat * (sequence.toNat * attrs.headCount.toNat) - 1 ≤
        (batches.toNat * (sequence.toNat * attrs.headCount.toNat) - 1) * attrs.headDim.toNat :=
      Nat.le_mul_of_pos_right _ hpositive
    have hrow := @Safe.flatIndex batch batches.toNat
      [(sequence.toNat, position), (attrs.headCount.toNat, head)] hbatch
      (by
        simp only [List.forall_mem_cons]
        exact ⟨hposition, hhead, List.forall_mem_nil _⟩)
      (by
        simp only [List.map_cons, List.map_nil, List.prod_cons, List.prod_nil, Nat.mul_one]
        omega)
    simp only [List.map_cons, List.map_nil, List.prod_cons, List.prod_nil, Nat.mul_one] at hrow
    refine hrow.bind fun row hlt => ?_
    have hbase : row * attrs.headDim.toNat ≤
        (batches.toNat * (sequence.toNat * attrs.headCount.toNat) - 1) * attrs.headDim.toNat :=
      Nat.mul_le_mul_right _ (by omega)
    refine (Safe.checked (by omega)).bind ?_
    rintro _ rfl
    exact Safe.foldlM_range houtput fun index hindex output houtput =>
      rotatePair_safe (by omega) (by omega) hinput hindex houtput
  · show 4 * values.length < 2 ^ 63
    rw [hvalues]
    exact hinput

/-! ### Attention -/

/-- What the checks of attention establish. -/
structure AttentionAccepted (query key value : GenericTensor F) (attrs : AttentionAttributes F)
    (state : GenericExecutionState F) : Prop where
  valid : state.Valid
  query_dimensions : query.dimensions =
    [attrs.batchSize, attrs.queryLength, attrs.queryHeadCount, attrs.headDim]
  key_dimensions : key.dimensions =
    [attrs.batchSize, attrs.queryLength, attrs.kvHeadCount, attrs.headDim]
  value_dimensions : value.dimensions =
    [attrs.batchSize, attrs.queryLength, attrs.kvHeadCount, attrs.headDim]
  binding : state.bindingId = attrs.state
  total : attrs.currentKvLength.toNat = state.length.toNat + attrs.queryLength.toNat
  groups : attrs.queryHeadCount.toNat % attrs.kvHeadCount.toNat = 0
  query : query.WellFormed
  key : key.WellFormed
  value : value.WellFormed
  room : attrs.queryLength.toNat ≤ state.capacity.toNat - state.length.toNat
  geometry : state.length = 0 ∨ (state.batchSize = attrs.batchSize ∧
    state.kvHeadCount = attrs.kvHeadCount ∧ state.headDim = attrs.headDim)

/-- The positions can be counted, and a payload that every check accepts fits a vector with
what is there. -/
def AttentionFits (query key value : GenericTensor F) (attrs : AttentionAttributes F)
    (state : GenericExecutionState F) : Prop :=
  (state.Valid →
    query.dimensions = [attrs.batchSize, attrs.queryLength, attrs.queryHeadCount, attrs.headDim] →
    key.dimensions = [attrs.batchSize, attrs.queryLength, attrs.kvHeadCount, attrs.headDim] →
    value.dimensions = [attrs.batchSize, attrs.queryLength, attrs.kvHeadCount, attrs.headDim] →
    state.bindingId = attrs.state →
    state.length.toNat + attrs.queryLength.toNat < 2 ^ 64) ∧
  (AttentionAccepted query key value attrs state →
    IsVector (state.key ++ key.values) ∧ IsVector (state.value ++ value.values))

omit [Field F] [LinearOrder F] in
theorem attentionChecks_safe {query key value : GenericTensor F} {attrs : AttentionAttributes F}
    {state : GenericExecutionState F} (hfits : AttentionFits query key value attrs state)
    (hheads : attrs.kvHeadCount ≠ 0) :
    Safe (attentionChecks query key value attrs state) fun _ =>
      AttentionAccepted query key value attrs state := by
  refine Safe.ofExcept.bind fun u hvalid => Safe.rejectIf.bind fun _ hgeometry => ?_
  rw [GenericExecutionState.validatePayload_eq_ok_iff] at hvalid
  simp only [not_or, not_not] at hgeometry
  obtain ⟨hquery, hkey, hvalue, hbinding⟩ := hgeometry
  refine (Safe.checked (hfits.1 hvalid hquery hkey hvalue hbinding)).bind ?_
  rintro _ rfl
  refine Safe.rejectIf.bind fun _ htotal => ?_
  rw [not_or, not_not] at htotal
  refine (Safe.remainder (Nat.ne_of_gt (toNat_pos_of_ne hheads))).bind ?_
  rintro _ rfl
  refine Safe.rejectIf.bind fun _ hgroups => Safe.ofExcept.bind fun _ hq =>
    Safe.ofExcept.bind fun _ hk => Safe.ofExcept.bind fun _ hv => Safe.rejectIf.mono
      fun _ hchanged => ?_
  rw [not_not] at hgroups
  have hsame : state.length = 0 ∨ (state.batchSize = attrs.batchSize ∧
      state.kvHeadCount = attrs.kvHeadCount ∧ state.headDim = attrs.headDim) := by
    tauto
  exact ⟨hvalid, hquery, hkey, hvalue, hbinding, htotal.1, hgroups,
    ((query.elements_eq_ok_iff _).1 hq).1, ((key.elements_eq_ok_iff _).1 hk).1,
    ((value.elements_eq_ok_iff _).1 hv).1, Nat.not_lt.1 htotal.2, hsame⟩

namespace AttentionSizes

/-- The payloads of the loops are as long as the sizes. -/
structure Fits (sizes : AttentionSizes) (batches : Nat) (query key value : List F)
    (attrs : AttentionAttributes F) (storedKey storedValue : List F) : Prop where
  queryLength : 0 < sizes.queryLength
  group : 0 < sizes.group
  heads : sizes.queryHeads = sizes.group * sizes.kvHeads
  total : attrs.currentKvLength.toNat = sizes.oldLength + sizes.queryLength
  query_size : query.length = batches * (sizes.queryLength * (sizes.queryHeads * sizes.dimension))
  key_size : key.length = batches * (sizes.queryLength * (sizes.kvHeads * sizes.dimension))
  value_size : value.length = batches * (sizes.queryLength * (sizes.kvHeads * sizes.dimension))
  storedKey_size : storedKey.length = batches * (sizes.oldLength * (sizes.kvHeads * sizes.dimension))
  storedValue_size :
    storedValue.length = batches * (sizes.oldLength * (sizes.kvHeads * sizes.dimension))
  queryVector : IsVector query
  keyVector : IsVector (storedKey ++ key)
  valueVector : IsVector (storedValue ++ value)

section Component

variable {sizes : AttentionSizes} {batches batch : Nat} (hbatch : batch < batches)

include hbatch

/-- An index into an array of heads. -/
theorem index_safe {length heads position head component : Nat} (hposition : position < length)
    (hhead : head < heads) (hcomponent : component < sizes.dimension)
    (hcount : batches * (length * (heads * sizes.dimension)) ≤ 2 ^ 64) :
    Safe (flatIndex batch [(length, position), (heads, head), (sizes.dimension, component)])
      fun index => index < batches * (length * (heads * sizes.dimension)) := by
  have hindex := @Safe.flatIndex batch batches
    [(length, position), (heads, head), (sizes.dimension, component)] hbatch
    (by
      simp only [List.forall_mem_cons]
      exact ⟨hposition, hhead, hcomponent, List.forall_mem_nil _⟩)
  simp only [List.map_cons, List.map_nil, List.prod_cons, List.prod_nil, Nat.mul_one] at hindex
  exact hindex hcount

omit [Field F] [LinearOrder F] in
theorem component_safe {stored current : List F} {kvHead position component : Nat}
    (hcurrent : current.length =
      batches * (sizes.queryLength * (sizes.kvHeads * sizes.dimension)))
    (hstored : stored.length = batches * (sizes.oldLength * (sizes.kvHeads * sizes.dimension)))
    (hvector : IsVector (stored ++ current)) (hpositive : 0 < sizes.queryLength)
    (hhead : kvHead < sizes.kvHeads) (hposition : position < sizes.oldLength + sizes.queryLength)
    (hcomponent : component < sizes.dimension) :
    Safe (sizes.component stored current batch kvHead position component) fun _ => True := by
  unfold IsVector at hvector
  rw [List.length_append] at hvector
  refine (index_safe hbatch (by omega : position - sizes.oldLength < sizes.queryLength) hhead
    hcomponent (by omega)).bind fun currentIndex hcurrentIndex => ?_
  by_cases hold : position < sizes.oldLength
  · refine (index_safe hbatch hold hhead hcomponent (by omega)).bind
      fun stateIndex hstateIndex => ?_
    rw [if_pos hold]
    exact Safe.read (by omega)
  · -- the index into the state is computed behind its end, and not used
    have hcount : (batches * sizes.oldLength + sizes.queryLength) *
        (sizes.kvHeads * sizes.dimension) ≤ stored.length + current.length := by
      rw [Nat.add_mul, hstored, hcurrent, Nat.mul_assoc]
      exact Nat.add_le_add_left (Nat.le_mul_of_pos_left _ (Nat.zero_lt_of_lt hbatch)) _
    have hcell : 0 < sizes.kvHeads * sizes.dimension :=
      Nat.mul_pos (Nat.zero_lt_of_lt hhead) (Nat.zero_lt_of_lt hcomponent)
    have hrow : batch * sizes.oldLength + position <
        batches * sizes.oldLength + sizes.queryLength := by
      have hle : (batch + 1) * sizes.oldLength ≤ batches * sizes.oldLength :=
        Nat.mul_le_mul_right _ hbatch
      rw [Nat.succ_mul] at hle
      omega
    have hle := Nat.le_mul_of_pos_right (batches * sizes.oldLength + sizes.queryLength) hcell
    have hindex := @Safe.flatIndex (batch * sizes.oldLength + position)
      (batches * sizes.oldLength + sizes.queryLength)
      [(sizes.kvHeads, kvHead), (sizes.dimension, component)] hrow
      (by
        simp only [List.forall_mem_cons]
        exact ⟨hhead, hcomponent, List.forall_mem_nil _⟩)
      (by
        simp only [List.map_cons, List.map_nil, List.prod_cons, List.prod_nil, Nat.mul_one]
        omega)
    refine @Safe.bind _ _ _ (fun _ => True) _ _ ?_ fun stateIndex _ => ?_
    · rw [flatIndex]
      refine (Safe.mulAdd (by omega)).bind ?_
      rintro _ rfl
      exact hindex.mono fun _ _ => trivial
    · rw [if_neg hold]
      exact Safe.read (by omega)

end Component

section Heads

variable {sizes : AttentionSizes} {batches : Nat} {query key value storedKey storedValue : List F}
  {attrs : AttentionAttributes F}
  (h : sizes.Fits batches query key value attrs storedKey storedValue) {batch : Nat}
  (hbatch : batch < batches) {kvHead : Nat} (hkvHead : kvHead < sizes.kvHeads)

include h hbatch hkvHead

omit [LinearOrder F] in
theorem dot_safe {queryPosition queryHead position : Nat}
    (hqueryPosition : queryPosition < sizes.queryLength) (hqueryHead : queryHead < sizes.queryHeads)
    (hposition : position < sizes.oldLength + sizes.queryLength) :
    Safe (sizes.dot query storedKey key batch queryPosition queryHead kvHead position)
      fun _ => True := by
  have hquery := h.query_size
  have hvector := h.queryVector
  unfold IsVector at hvector
  refine Safe.foldlM_range trivial fun component hcomponent dot _ => ?_
  refine (index_safe hbatch hqueryPosition hqueryHead hcomponent (by omega)).bind
    fun index hindex => ?_
  refine (component_safe hbatch h.key_size h.storedKey_size h.keyVector h.queryLength hkvHead hposition
    hcomponent).bind fun k _ => ?_
  exact (Safe.read (by omega)).bind fun q _ => trivial

omit [LinearOrder F] in
theorem mix_safe {weights : List F} {total : F} {length component : Nat}
    (hlength : length ≤ sizes.oldLength + sizes.queryLength) (hweights : weights.length = length)
    (hcomponent : component < sizes.dimension) :
    Safe (sizes.mix storedValue value weights total batch kvHead length component)
      fun _ => True := by
  refine Safe.foldlM_range trivial fun position hposition sum _ => ?_
  refine (component_safe hbatch h.value_size h.storedValue_size h.valueVector h.queryLength hkvHead
    (by omega) hcomponent).bind fun v _ => ?_
  exact (Safe.read (by omega)).bind fun weight _ => trivial

end Heads

theorem head_safe {sizes : AttentionSizes} {batches : Nat}
    {query key value storedKey storedValue output : List F} {attrs : AttentionAttributes F}
    (h : sizes.Fits batches query key value attrs storedKey storedValue)
    {batch queryPosition queryHead : Nat} (hbatch : batch < batches)
    (hqueryPosition : queryPosition < sizes.queryLength) (hqueryHead : queryHead < sizes.queryHeads)
    (hpositive : 0 < sizes.dimension) (houtput : output.length = query.length) :
    Safe (sizes.head math query key value attrs storedKey storedValue batch queryPosition output
      queryHead) fun after => after.length = query.length := by
  have hquery := h.query_size
  have htotal := h.total
  have hvector := h.queryVector
  have hkeys := h.keyVector
  have hlengths := h.queryLength
  unfold IsVector at hvector hkeys
  rw [List.length_append, h.key_size, h.storedKey_size] at hkeys
  have hkvHead : queryHead / sizes.group < sizes.kvHeads := by
    rw [Nat.div_lt_iff_lt_mul h.group, Nat.mul_comm, ← h.heads]
    exact hqueryHead
  have hcell : 0 < sizes.kvHeads * sizes.dimension :=
    Nat.mul_pos (Nat.zero_lt_of_lt hkvHead) hpositive
  have hle : ∀ n, n ≤ batches * (n * (sizes.kvHeads * sizes.dimension)) := fun n =>
    Nat.le_trans (Nat.le_mul_of_pos_right n hcell)
      (Nat.le_mul_of_pos_left _ (Nat.zero_lt_of_lt hbatch))
  have hold := hle sizes.oldLength
  have hnew := hle sizes.queryLength
  refine (Safe.divide (Nat.ne_of_gt h.group)).bind ?_
  rintro _ rfl
  have hlast : Safe (sizes.last attrs queryPosition)
      fun last => last < sizes.oldLength + sizes.queryLength := by
    unfold AttentionSizes.last
    split
    · exact (Safe.checked (by omega)).mono fun last hlast => by omega
    · exact (Safe.subtract (by omega)).mono fun last hlast => by omega
  refine hlast.bind fun last hlast => (Safe.checked (by omega)).bind ?_
  rintro _ rfl
  refine (Safe.allocate (by omega)).bind fun _ _ => ?_
  refine @Safe.bind _ _ _ (fun scores : List F => scores.length = last + 1) _ _ ?_
    fun scores hscores => ?_
  · refine Safe.foldlM_range List.length_replicate fun position hposition scores hscores => ?_
    refine (dot_safe h hbatch hkvHead hqueryPosition hqueryHead (by omega)).bind fun dot _ => ?_
    exact (Safe.write (by omega)).mono fun ys hys => hys.trans hscores
  · refine Safe.foldlM_range houtput fun component hcomponent output houtput => ?_
    refine (mix_safe h hbatch hkvHead (by omega) (by rw [List.length_map, hscores])
      hcomponent).bind fun sum _ => ?_
    refine (index_safe hbatch hqueryPosition hqueryHead hcomponent (by omega)).bind
      fun index hindex => ?_
    exact (Safe.write (by omega)).mono fun ys hys => hys.trans houtput

end AttentionSizes

omit [Field F] [LinearOrder F] in
/-- The sizes of an accepted attention fit its payloads. -/
theorem AttentionAccepted.sizesFit {query key value : GenericTensor F}
    {attrs : AttentionAttributes F} {state : GenericExecutionState F}
    (h : AttentionAccepted query key value attrs state) (hquery : IsVector query.values)
    (hkeys : IsVector (state.key ++ key.values))
    (hvalues : IsVector (state.value ++ value.values)) :
    AttentionSizes.Fits
      ⟨state.length.toNat, attrs.queryLength.toNat, attrs.queryHeadCount.toNat,
        attrs.kvHeadCount.toNat, attrs.headDim.toNat,
        attrs.queryHeadCount.toNat / attrs.kvHeadCount.toNat⟩
      attrs.batchSize.toNat query.values key.values value.values attrs state.key state.value := by
  have hcount : ∀ a b c d : UInt64, elementCount [a, b, c, d] =
      a.toNat * (b.toNat * (c.toNat * d.toNat)) := by
    intro a b c d
    simp only [elementCount, List.map_cons, List.map_nil, List.prod_cons, List.prod_nil,
      Nat.mul_one]
  have hpositive : ∀ {n : UInt64}, n ∈ query.dimensions → 0 < n.toNat := fun hmem =>
    toNat_pos_of_ne (h.query.nonzero _ hmem)
  have hkvHeads : 0 < attrs.kvHeadCount.toNat := by
    refine toNat_pos_of_ne (h.key.nonzero _ ?_)
    rw [h.key_dimensions]
    simp
  have hdvd := Nat.dvd_of_mod_eq_zero h.groups
  have hqueryHeads : 0 < attrs.queryHeadCount.toNat := hpositive (by
    rw [h.query_dimensions]
    simp)
  have hstored : state.key.length = attrs.batchSize.toNat * (state.length.toNat *
      (attrs.kvHeadCount.toNat * attrs.headDim.toNat)) ∧
      state.value.length = attrs.batchSize.toNat * (state.length.toNat *
        (attrs.kvHeadCount.toNat * attrs.headDim.toNat)) := by
    by_cases hzero : state.length = 0
    · obtain ⟨-, -, -, hkey, hvalue⟩ := h.valid.empty hzero
      rw [hkey, hvalue, hzero, UInt64.toNat_zero, Nat.zero_mul, Nat.mul_zero]
      exact ⟨rfl, rfl⟩
    · obtain ⟨hbatch, hheads, hdim⟩ := h.geometry.resolve_left hzero
      obtain ⟨-, -, hkey, hvalue⟩ := h.valid.filled hzero
      rw [hcount, hbatch, hheads, hdim] at hkey hvalue
      exact ⟨hkey, hvalue⟩
  have hkey := h.key.length
  have hvalue := h.value.length
  have hqueryLength := h.query.length
  rw [h.key_dimensions, hcount] at hkey
  rw [h.value_dimensions, hcount] at hvalue
  rw [h.query_dimensions, hcount] at hqueryLength
  exact
    { queryLength := hpositive (by rw [h.query_dimensions]; simp)
      group := Nat.div_pos (Nat.le_of_dvd hqueryHeads hdvd) hkvHeads
      heads := (Nat.div_mul_cancel hdvd).symm
      total := h.total
      query_size := hqueryLength
      key_size := hkey
      value_size := hvalue
      storedKey_size := hstored.1
      storedValue_size := hstored.2
      queryVector := hquery
      keyVector := hkeys
      valueVector := hvalues }

theorem attention_safe {query key value : GenericTensor F} {attrs : AttentionAttributes F}
    {state : GenericExecutionState F} (hfits : AttentionFits query key value attrs state)
    (hheads : attrs.kvHeadCount ≠ 0) (hdim : attrs.headDim ≠ 0) (hquery : IsVector query.values) :
    Safe (attention math query key value attrs state) fun after => IsVector after.1.values := by
  refine (attentionChecks_safe hfits hheads).bind fun _ haccepted => ?_
  have hpositions := hfits.1 haccepted.valid haccepted.query_dimensions haccepted.key_dimensions
    haccepted.value_dimensions haccepted.binding
  obtain ⟨hkeys, hvalues⟩ := hfits.2 haccepted
  have hsizes := haccepted.sizesFit hquery hkeys hvalues
  unfold IsVector at hkeys hvalues
  rw [List.length_append] at hkeys hvalues
  refine (Safe.allocate hkeys).bind fun _ _ => (Safe.allocate hvalues).bind fun _ _ =>
    (Safe.divide (Nat.ne_of_gt (toNat_pos_of_ne hheads))).bind ?_
  rintro _ rfl
  refine @Safe.bind _ _ _ (fun output : List F => output.length = query.values.length) _ _ ?_
    fun values hlength => (Safe.checked hpositions).bind fun length _ => ?_
  · refine Safe.foldlM_range List.length_replicate fun batch hbatch output houtput => ?_
    refine Safe.foldlM_range houtput fun queryPosition hqueryPosition output houtput => ?_
    exact Safe.foldlM_range houtput fun queryHead hqueryHead output houtput =>
      AttentionSizes.head_safe hsizes hbatch hqueryPosition hqueryHead (toNat_pos_of_ne hdim) houtput
  · show 4 * values.length < 2 ^ 63
    rw [hlength]
    exact hquery

/-! ### Routing -/

/-- The corrected scores are as many as the whole rows of scores, and the candidates of a row
fit a vector. -/
def RouterFits (scores corrected : GenericTensor F) (count : UInt32) : Prop :=
  ∀ last, scores.dimensions.getLast? = some last → scores.dimensions = corrected.dimensions →
    last ≠ 0 → count.toNat ≤ last.toNat →
    scores.values.length / last.toNat * last.toNat ≤ corrected.values.length ∧
      (scores.values.length / last.toNat ≠ 0 → 16 * last.toNat < 2 ^ 63)

theorem selectToken_safe {scores corrected : List F} {tokens expertCount count token : Nat}
    (htoken : token < tokens) (hscores : tokens * expertCount ≤ scores.length)
    (hcorrected : tokens * expertCount ≤ corrected.length) (hcount : count ≤ expertCount)
    (hrow : 16 * expertCount < 2 ^ 63) (hvector : IsVector scores) :
    Safe (selectToken scores corrected expertCount count token) fun _ => True := by
  unfold IsVector at hvector
  have hcell : ∀ {index : Nat}, index < expertCount →
      token * expertCount + index < tokens * expertCount := block_lt htoken
  have hstart : token * expertCount < 2 ^ 64 := by
    have hle := Nat.mul_le_mul_right expertCount (Nat.le_of_lt htoken)
    omega
  refine (Safe.checked hstart).bind ?_
  rintro _ rfl
  refine (Safe.allocate (by omega)).bind fun _ _ => ?_
  have hcandidates : Safe ((List.range expertCount).mapM fun index => do
      let place ← checked (token * expertCount + index)
      let score ← read corrected place
      .ok (score, index)) fun candidates =>
        List.Forall₂ (fun index (candidate : F × Nat) => candidate.2 = index)
          (List.range expertCount) candidates := by
    refine Safe.mapM fun index hindex => ?_
    have hlt := hcell (List.mem_range.1 hindex)
    refine (Safe.checked (by omega)).bind ?_
    rintro _ rfl
    exact (Safe.read (by omega)).bind fun score _ => rfl
  refine hcandidates.bind fun candidates hall => ?_
  have hlength : candidates.length = expertCount := by
    rw [← hall.length_eq, List.length_range]
  refine (Safe.slice (by rw [List.length_insertionSort]; omega)).bind ?_
  rintro _ rfl
  refine @Safe.bind _ _ _ (fun _ => True) _ _ ?_ fun chosen _ => trivial
  refine (@Safe.mapM _ _ _ _ (fun _ _ => True) fun candidate hcandidate => ?_).mono
    fun _ _ => trivial
  have hmem : candidate ∈ candidates := by
    have hsorted := List.mem_of_mem_drop (List.mem_of_mem_take hcandidate)
    exact (List.perm_insertionSort _ _).mem_iff.1 hsorted
  obtain ⟨index, hindex, hplace⟩ := exists_of_mem_right hall hmem
  have hlt := hcell (List.mem_range.1 hindex)
  rw [hplace]
  refine (Safe.checked (by omega)).bind ?_
  rintro _ rfl
  exact Safe.read (by omega)

theorem topK_safe {scores corrected : GenericTensor F} {count : UInt32}
    (hfits : RouterFits scores corrected count) (hscores : IsVector scores.values) :
    Safe (topK scores corrected count) fun _ => True := by
  refine Safe.ofExcept.bind fun last hlast => Safe.rejectIf.bind fun _ hgeometry => ?_
  simp only [not_or, not_not, Nat.not_lt] at hgeometry
  obtain ⟨hdimensions, hexperts, hcount⟩ := hgeometry
  have hlastDimension : scores.dimensions.getLast? = some last := okOr_eq_ok_iff.1 hlast
  have hne : last ≠ 0 := by
    rintro rfl
    exact hexperts rfl
  obtain ⟨hcorrected, hrow⟩ := hfits last hlastDimension hdimensions hne hcount
  have hwhole := Nat.div_mul_le_self scores.values.length last.toNat
  have hcapacity : scores.values.length / last.toNat * count.toNat ≤ scores.values.length :=
    Nat.le_trans (Nat.mul_le_mul_left _ hcount) hwhole
  have hvector := hscores
  unfold IsVector at hvector
  refine (Safe.divide hexperts).bind ?_
  rintro _ rfl
  refine (Safe.checked (by omega)).bind ?_
  rintro _ rfl
  refine (Safe.allocate (by omega)).bind fun _ _ => ?_
  refine @Safe.bind _ _ _ (fun _ => True) _ _ ?_ fun tokens _ => trivial
  refine (@Safe.mapM _ _ _ _ (fun _ _ => True) fun token htoken => ?_).mono fun _ _ => trivial
  have hlt := List.mem_range.1 htoken
  exact selectToken_safe hlt hwhole hcorrected hcount (hrow (Nat.ne_zero_of_lt hlt)) hscores

/-! ### Experts -/

/-- The ranks are all there, and where a rank chose the expert, so are the payloads. -/
def DispatchFits (input gate up down : GenericTensor F) (expertId : UInt32)
    (selection : GenericTopKSelection F) : Prop :=
  ∀ batches sequence hidden intermediate, input.dimensions = [batches, sequence, hidden] →
    gate.dimensions = [intermediate, hidden] → up.dimensions = [intermediate, hidden] →
    down.dimensions = [hidden, intermediate] →
    batches.toNat * sequence.toNat < 2 ^ 64 ∧
      (selection.tokenCount.toNat = batches.toNat * sequence.toNat →
        selection.tokenCount.toNat * selection.topK.toNat ≤ selection.ids.length ∧
        ∀ token < selection.tokenCount.toNat, ∀ rank < selection.topK.toNat,
          selection.ids[token * selection.topK.toNat + rank]? = some expertId →
          token * selection.topK.toNat + rank < selection.weights.length ∧
          (token + 1) * hidden.toNat ≤ input.values.length ∧
          intermediate.toNat * hidden.toNat ≤ gate.values.length ∧
          intermediate.toNat * hidden.toNat ≤ up.values.length ∧
          hidden.toNat * intermediate.toNat ≤ down.values.length ∧
          4 * intermediate.toNat < 2 ^ 63)

omit [LinearOrder F] in
theorem channelSums_safe {input gate up : List F} {inputOffset hidden intermediate channel : Nat}
    (hchannel : channel < intermediate) (hinput : inputOffset + hidden ≤ input.length)
    (hgate : intermediate * hidden ≤ gate.length) (hup : intermediate * hidden ≤ up.length)
    (hinputVector : IsVector input) (hgateVector : IsVector gate) :
    Safe (channelSums input gate up inputOffset hidden channel) fun _ => True := by
  unfold IsVector at hinputVector hgateVector
  refine Safe.foldlM_range trivial fun column hcolumn sums _ => ?_
  have hcell := block_lt hchannel hcolumn
  refine (Safe.checked (by omega)).bind ?_
  rintro _ rfl
  refine (Safe.read (by omega)).bind fun x _ => (Safe.mulAdd (by omega)).bind ?_
  rintro _ rfl
  exact (Safe.read (by omega)).bind fun g _ => (Safe.read (by omega)).bind fun u _ => trivial

theorem dispatchRank_safe {input gate up down weights output : List F}
    {hidden intermediate token selectionIndex : Nat} (hweight : selectionIndex < weights.length)
    (hinput : (token + 1) * hidden ≤ input.length) (hgate : intermediate * hidden ≤ gate.length)
    (hup : intermediate * hidden ≤ up.length) (hdown : hidden * intermediate ≤ down.length)
    (hintermediate : 4 * intermediate < 2 ^ 63) (hinputVector : IsVector input)
    (hgateVector : IsVector gate) (hdownVector : IsVector down)
    (houtput : output.length = input.length) :
    Safe (dispatchRank math input gate up down weights hidden intermediate token selectionIndex
      output) fun after => after.length = input.length := by
  have hvector := hinputVector
  have hvector' := hdownVector
  unfold IsVector at hvector hvector'
  rw [Nat.succ_mul] at hinput
  refine (Safe.checked (by omega)).bind ?_
  rintro _ rfl
  refine (Safe.allocate hintermediate).bind fun _ _ => ?_
  refine @Safe.bind _ _ _ (fun activated : List F => activated.length = intermediate) _ _ ?_
    fun activated hactivated => (Safe.read hweight).bind fun weight _ => ?_
  · refine Safe.foldlM_range List.length_replicate fun channel hchannel activated hactivated => ?_
    refine (channelSums_safe hchannel hinput hgate hup hinputVector hgateVector).bind
      fun sums _ => ?_
    exact (Safe.write (by omega)).mono fun ys hys => hys.trans hactivated
  · refine Safe.foldlM_range houtput fun column hcolumn output houtput => ?_
    refine @Safe.bind _ _ _ (fun _ => True) _ _ ?_ fun sum _ => ?_
    · refine Safe.foldlM_range trivial fun channel hchannel sum _ => ?_
      have hcell := block_lt hcolumn hchannel
      refine (Safe.read (by omega)).bind fun a _ => (Safe.mulAdd (by omega)).bind ?_
      rintro _ rfl
      exact (Safe.read (by omega)).bind fun d _ => trivial
    · refine (Safe.checked (by omega)).bind ?_
      rintro _ rfl
      refine (Safe.read (by omega)).bind fun value _ => ?_
      exact (Safe.write (by omega)).mono fun ys hys => hys.trans houtput

theorem expertDispatch_safe {input gate up down : GenericTensor F} {expertId : UInt32}
    {selection : GenericTopKSelection F} (hfits : DispatchFits input gate up down expertId selection)
    (hinput : IsVector input.values) (hgate : IsVector gate.values) (hdown : IsVector down.values)
    (hids : IsVector selection.ids) :
    Safe (expertDispatch math input gate up down expertId selection) fun output =>
      IsVector output.values := by
  refine Safe.rejectIf.bind fun _ hgeometry => ?_
  simp only [not_or, not_not] at hgeometry
  obtain ⟨hinputRank, hgateRank, hsame, hdownRank, hwidth, hdownHeight, hdownWidth⟩ := hgeometry
  obtain ⟨batches, sequence, hidden, hdimensions⟩ := List.length_eq_three.1 hinputRank
  obtain ⟨intermediate, width, hgateDimensions⟩ := List.length_eq_two.1 hgateRank
  obtain ⟨height, width', hdownDimensions⟩ := List.length_eq_two.1 hdownRank
  rw [hdimensions, hgateDimensions] at hwidth
  rw [hdimensions, hdownDimensions] at hdownHeight
  rw [hdownDimensions, hgateDimensions] at hdownWidth
  obtain rfl : width = hidden := hwidth
  obtain rfl : height = width := hdownHeight
  obtain rfl : width' = intermediate := hdownWidth
  obtain ⟨hproduct, hselected⟩ := hfits _ _ _ _ hdimensions hgateDimensions
    (hsame.trans hgateDimensions) hdownDimensions
  rw [hdimensions, hgateDimensions]
  refine (Safe.checked hproduct).bind ?_
  rintro _ rfl
  refine Safe.rejectIf.bind fun _ hcount => ?_
  rw [not_not] at hcount
  obtain ⟨hranks, hpayloads⟩ := hselected hcount
  have hvector := hids
  unfold IsVector at hvector
  refine @Safe.bind _ _ _ (fun output : List F => output.length = input.values.length) _ _ ?_
    fun values hvalues => ?_
  · refine Safe.foldlM_range List.length_replicate fun token htoken output houtput => ?_
    refine Safe.foldlM_range houtput fun rank hrank output houtput => ?_
    have htoken' : token < selection.tokenCount.toNat := by
      rw [hcount]
      exact htoken
    have hcell := block_lt htoken' hrank
    refine (Safe.mulAdd (by omega)).bind ?_
    rintro _ rfl
    have hlt : token * selection.topK.toNat + rank < selection.ids.length := by omega
    have hread : read selection.ids (token * selection.topK.toNat + rank) =
        .ok (selection.ids[token * selection.topK.toNat + rank]) := by
      rw [Outcome.read, List.getElem?_eq_getElem hlt]
    rw [hread]
    show Safe (if _ then _ else _) _
    split
    next => exact houtput
    next hchosen =>
        rw [not_not] at hchosen
        obtain ⟨hweight, hrow, hgatePayload, hupPayload, hdownPayload, hintermediate⟩ :=
          hpayloads token htoken' rank hrank (by rw [List.getElem?_eq_getElem hlt, hchosen])
        exact dispatchRank_safe hweight hrow hgatePayload hupPayload hdownPayload hintermediate
          hinput hgate hdown houtput
  · show 4 * values.length < 2 ^ 63
    rw [hvalues]
    exact hinput

end Kernels

end VBuf.Runtime.Checked
