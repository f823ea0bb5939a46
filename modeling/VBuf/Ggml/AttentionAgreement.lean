import VBuf.Ggml.PortableAttention
import VBuf.Runtime.ChunkedAttention

/-!
# The two attention operators

Where both accept, the loops of `run_attention` write what `attention` writes,
and both append the same keys and values.
-/

namespace VBuf.Ggml

open VBuf.Lib VBuf.Runtime

section Loops

variable {ε α β : Type}

/-- A loop that ends without an error is the loop without its checks. -/
theorem eq_foldl_of_foldlM {f : β → α → Except ε β} {g : β → α → β} {l : List α} {init result : β}
    (h : ∀ b a, a ∈ l → ∀ r, f b a = .ok r → r = g b a)
    (hloop : l.foldlM f init = .ok result) : result = l.foldl g init := by
  induction l generalizing init with
  | nil => exact (Except.ok.inj hloop).symm
  | cons a rest ih =>
      rw [List.foldlM_cons, bind_eq_ok_iff] at hloop
      obtain ⟨next, hnext, hrest⟩ := hloop
      rw [List.foldl_cons, ← h init a List.mem_cons_self next hnext]
      exact ih (fun b c hc => h b c (List.mem_cons_of_mem a hc)) hrest

theorem eq_map_of_mapM {f : α → Except ε β} {g : α → β} {l : List α} {result : List β}
    (h : ∀ a r, f a = .ok r → r = g a) (hmap : l.mapM f = .ok result) : result = l.map g := by
  have hforall := mapM_eq_ok_iff.1 hmap
  induction hforall with
  | nil => rfl
  | cons hhead _ ih =>
      rw [List.map_cons, h _ _ hhead, ih (mapM_eq_ok_iff.2 (by assumption))]

end Loops

section Agreement

variable {F : Type}

/-- The operand of the adapter. -/
def portableActivation (tensor : GenericTensor F) : PortableActivation F :=
  ⟨tensor.values, tensor.dimensions⟩

/-- The state of the adapter, with the same binding, capacity and stored values. -/
def portableState (state : GenericExecutionState F) : VbufPortableExecutionState F :=
  ⟨state.bindingId, state.capacity, state.length, state.batchSize, state.kvHeadCount, state.headDim,
    state.key, state.value⟩

theorem attributes_eq {desc : VbufAttentionDesc F} {attrs : AttentionAttributes F}
    (h : desc.attributes = some attrs) :
    attrs = ⟨desc.batchSize, desc.queryHeadCount, desc.kvHeadCount, desc.headDim, desc.queryLength,
        desc.currentKvLength, desc.scale, attrs.mask, desc.stateId⟩ ∧
      (attrs.mask = .causal ↔ desc.maskKind = 1) := by
  unfold VbufAttentionDesc.attributes at h
  simp only at h
  split at h
  next hmask =>
      split at h
      · cases h
        refine ⟨rfl, iff_of_false AttentionMaskKind.noConfusion ?_⟩
        rw [hmask]
        exact UInt8.zero_ne_one
      · cases h
  next =>
      split at h
      next hmask =>
          split at h
          · cases h
            exact ⟨rfl, iff_of_true rfl hmask⟩
          · cases h
      next => cases h

variable [Field F] [LinearOrder F] {math : ExactMath F}

theorem eq_of_finiteDot {dimension : Nat} {q k : Nat → F} {result : F}
    (h : finiteDot math dimension q k = .ok result) :
    result = (List.range dimension).foldl (fun dot component => dot + q component * k component) 0 := by
  refine eq_foldl_of_foldlM ?_ h
  intro dot component _ r hr
  split at hr
  · cases hr
  · exact (Except.ok.inj hr).symm

/-- The probabilities of a head are its weights over their sum. -/
theorem eq_of_probabilities {last dimension : Nat} {scale : F} {q : Nat → F} {k : Nat → Nat → F}
    {result : List F} (h : probabilities math last dimension scale q k = .ok result) :
    let weights := (scores last dimension scale q k).map
      (fun score => math.exp (score - maximum (scores last dimension scale q k)))
    result = weights.map (· / weights.foldl (· + ·) 0) := by
  unfold probabilities at h
  rw [bind_eq_ok_iff] at h
  obtain ⟨found, hfound, h⟩ := h
  have hscores : found = scores last dimension scale q k := by
    refine eq_map_of_mapM ?_ hfound
    intro keyPosition r hr
    rw [bind_eq_ok_iff] at hr
    obtain ⟨dot, hdot, hr⟩ := hr
    rw [← eq_of_finiteDot hdot]
    exact (Except.ok.inj hr).symm
  subst hscores
  simp only [bind_eq_ok_iff] at h
  obtain ⟨-, -, h⟩ := h
  exact (Except.ok.inj h).symm

/-- Accumulating with the probabilities weighs the values. -/
theorem eq_of_accumulate {last dimension : Nat} {scale : F} {q : Nat → F} {k : Nat → Nat → F}
    {found : List F} (hfound : probabilities math last dimension scale q k = .ok found)
    {v : Nat → F} {result : F} (h : accumulate math found v = .ok result) :
    result = weighted math (scores last dimension scale q k) v := by
  have hprobabilities := eq_of_probabilities hfound
  simp only at hprobabilities
  subst hprobabilities
  have hloop := @eq_foldl_of_foldlM String Nat F _ (fun accumulated keyPosition =>
    accumulated + (((scores last dimension scale q k).map (fun score => math.exp
      (score - maximum (scores last dimension scale q k)))).map (· / ((scores last dimension scale q
        k).map (fun score => math.exp (score - maximum (scores last dimension scale q k)))).foldl
          (· + ·) 0)).getD keyPosition 0 * v keyPosition) _ 0 result ?_ h
  · rw [hloop, List.length_map, List.length_map]
    unfold weighted
    apply foldl_congr_mem
    intro sum keyPosition hmem
    have hlt : keyPosition < (scores last dimension scale q k).length := List.mem_range.1 hmem
    simp only [List.getD_eq_getElem?_getD, List.getElem?_map, List.getElem?_eq_getElem hlt,
      Option.map_some, Option.getD_some]
  · intro accumulated keyPosition _ r hr
    split at hr
    · cases hr
    · exact (Except.ok.inj hr).symm

omit [LinearOrder F] in
/-- Stored keys and values are read alike where the geometry is the same. -/
theorem storedOrCurrent_eq (stored current : List F) {state : GenericExecutionState F}
    {kvHeads dimension : UInt64} (hgeometry : state.length ≠ 0 →
      state.kvHeadCount = kvHeads ∧ state.headDim = dimension)
    (queryLength batch kvHead position component : Nat) :
    storedOrCurrent stored current (portableState state) queryLength kvHeads.toNat dimension.toNat
        batch kvHead position component =
      keyOrValue stored current state.length.toNat queryLength kvHeads.toNat dimension.toNat batch
        kvHead position component := by
  unfold storedOrCurrent keyOrValue
  split
  next hlt =>
      have hne : state.length ≠ 0 := by
        intro hzero
        have htoNat : (portableState state).length.toNat = 0 := congrArg UInt64.toNat hzero
        omega
      obtain ⟨hheads, hdim⟩ := hgeometry hne
      have hlt' : position < state.length.toNat := hlt
      rw [if_pos hlt', ← hheads, ← hdim]
      rfl
  next hge =>
      have hge' : ¬ position < state.length.toNat := hge
      rw [if_neg hge']
      rfl

/-- The loops of the adapter write the output of the generic executor. -/
theorem eq_of_attentionLoops {desc : VbufAttentionDesc F} {attrs : AttentionAttributes F}
    (hattrs : desc.attributes = some attrs) {query key value : GenericTensor F}
    {state : GenericExecutionState F} (haccepted : Accepted query key value attrs state)
    {result : List F}
    (h : attentionLoops math desc (portableActivation query) (portableActivation key)
      (portableActivation value) (portableState state) = .ok result) :
    result = attentionOutput math query key value attrs state := by
  obtain ⟨heq, hmask⟩ := attributes_eq hattrs
  have hgeometry : state.length ≠ 0 →
      state.kvHeadCount = desc.kvHeadCount ∧ state.headDim = desc.headDim := by
    intro hne
    obtain ⟨-, hheads, hdim⟩ := haccepted.geometry hne
    rw [heq] at hheads hdim
    exact ⟨hheads, hdim⟩
  rw [heq]
  unfold attentionLoops at h
  unfold attentionOutput
  refine eq_foldl_of_foldlM ?_ h
  intro output batch _ r hr
  refine eq_foldl_of_foldlM ?_ hr
  intro output queryPosition _ r hr
  refine eq_foldl_of_foldlM ?_ hr
  intro output queryHead _ r hr
  rw [bind_eq_ok_iff] at hr
  obtain ⟨found, hfound, hr⟩ := hr
  have hlast : (if desc.maskKind = 1 then (portableState state).length.toNat + queryPosition
      else desc.currentKvLength.toNat - 1) =
      if attrs.mask = .causal then state.length.toNat + queryPosition
      else desc.currentKvLength.toNat - 1 := if_congr hmask.symm rfl rfl
  rw [hlast] at hfound
  have hkeys : storedOrCurrent (portableState state).key (portableActivation key).values
      (portableState state) desc.queryLength.toNat desc.kvHeadCount.toNat desc.headDim.toNat batch
      (queryHead / (desc.queryHeadCount.toNat / desc.kvHeadCount.toNat)) =
      keyOrValue state.key key.values state.length.toNat desc.queryLength.toNat
        desc.kvHeadCount.toNat desc.headDim.toNat batch
        (queryHead / (desc.queryHeadCount.toNat / desc.kvHeadCount.toNat)) := by
    funext position component
    exact storedOrCurrent_eq state.key key.values hgeometry _ _ _ _ _
  rw [hkeys] at hfound
  refine eq_foldl_of_foldlM ?_ hr
  intro output component _ r hr
  rw [bind_eq_ok_iff] at hr
  obtain ⟨accumulated, haccumulated, hr⟩ := hr
  have hvalues : (fun keyPosition => storedOrCurrent (portableState state).value
      (portableActivation value).values (portableState state) desc.queryLength.toNat
      desc.kvHeadCount.toNat desc.headDim.toNat batch
      (queryHead / (desc.queryHeadCount.toNat / desc.kvHeadCount.toNat)) keyPosition component) =
      fun keyPosition => keyOrValue state.value value.values state.length.toNat
        desc.queryLength.toNat desc.kvHeadCount.toNat desc.headDim.toNat batch
        (queryHead / (desc.queryHeadCount.toNat / desc.kvHeadCount.toNat)) keyPosition component := by
    funext position
    exact storedOrCurrent_eq state.value value.values hgeometry _ _ _ _ _
  rw [hvalues] at haccumulated
  have hweighted := eq_of_accumulate hfound haccumulated
  rw [← Except.ok.inj hr, hweighted]
  rfl

/-- Where both operators accept a descriptor, operands and a state, they give the
same output and the same new state; and a rejection leaves the state. -/
theorem attention_operators_agree (math : ExactMath F) (desc : VbufAttentionDesc F) :
    (∀ (attrs : AttentionAttributes F) (query key value : GenericTensor F)
      (state : GenericExecutionState F) (output : GenericTensor F)
      (after : GenericExecutionState F) (output' : PortableActivation F)
      (after' : Option (VbufPortableExecutionState F)),
      desc.attributes = some attrs →
      attention math query key value attrs state = (.ok output, after) →
      runAttention math desc
        [portableActivation query, portableActivation key, portableActivation value]
        (some (portableState state)) = (.ok output', after') →
      output' = portableActivation output ∧ after' = some (portableState after)) ∧
    (∀ (query key value : GenericTensor F) (attrs : AttentionAttributes F)
      (state : GenericExecutionState F) (error : String),
      (attention math query key value attrs state).1 = .error error →
      (attention math query key value attrs state).2 = state) ∧
    (∀ (inputs : List (PortableActivation F)) (state : Option (VbufPortableExecutionState F))
      (error : String), (runAttention math desc inputs state).1 = .error error →
      (runAttention math desc inputs state).2 = state) := by
  refine ⟨?_, ?_, ?_⟩
  · intro attrs query key value state output after output' after' hattrs hgeneric hportable
    unfold attention at hgeneric
    cases hchecks : attentionChecks query key value attrs state with
    | error error =>
        rw [hchecks] at hgeneric
        cases hgeneric
    | ok u =>
        have haccepted := (attentionChecks_eq_ok_iff query key value attrs state).1 hchecks
        obtain ⟨heq, -⟩ := attributes_eq hattrs
        rw [hchecks] at hgeneric
        simp only [Prod.mk.injEq, Except.ok.injEq] at hgeneric
        obtain ⟨houtput, hafter⟩ := hgeneric
        unfold runAttention at hportable
        simp only at hportable
        split at hportable
        next => cases hportable
        next result committedState hresult =>
            simp only [Prod.mk.injEq, Except.ok.injEq] at hportable
            obtain ⟨houtput', hafter'⟩ := hportable
            simp only [attentionResult, bind_eq_ok_iff] at hresult
            obtain ⟨-, -, -, -, values, hvalues, hresult⟩ := hresult
            simp only [Except.ok.injEq, Prod.mk.injEq] at hresult
            obtain ⟨hvalues', hcommitted⟩ := hresult
            have hloops := eq_of_attentionLoops hattrs haccepted hvalues
            constructor
            · rw [← houtput', ← hvalues', ← houtput, hloops]
              rw [portableActivation, portableActivation, haccepted.queryShape]
            · rw [← hafter', ← hcommitted, ← hafter]
              rw [heq]
              -- An empty state has no payload, so clearing it changes nothing.
              by_cases hzero : state.length = 0
              · obtain ⟨-, -, -, hkey, hvalue⟩ := haccepted.valid.empty hzero
                simp only [committed, portableState, portableActivation, hkey, hvalue, ite_self]
              · simp only [committed, portableState, portableActivation, hzero, if_false]
  · intro query key value attrs state error herror
    unfold attention at herror ⊢
    split at herror
    next => rfl
    next => cases herror
  · intro inputs state error herror
    unfold runAttention at herror ⊢
    split at herror
    next => rfl
    next =>
        split at herror
        next => rfl
        next => cases herror

end Agreement

/-- Two query heads over one key head, after one stored position. -/
theorem attention_operators_agree_grouped_heads :
    let desc : VbufAttentionDesc ℚ := ⟨1, 2, 1, 1, 1, 2, 1, 1, 1, 5⟩
    let state : GenericExecutionState ℚ := ⟨5, 4, 1, 1, 1, 1, [3], [4]⟩
    (runAttention SequenceGeometry.exampleMath desc
      [⟨[1, 2], [1, 1, 2, 1]⟩, ⟨[5], [1, 1, 1, 1]⟩, ⟨[6], [1, 1, 1, 1]⟩]
      (some (portableState state))) =
    (.ok ⟨[5, 5], [1, 1, 2, 1]⟩, some ⟨5, 4, 2, 1, 1, 1, [3, 5], [4, 6]⟩) := by
  intro desc state
  have hportable : (runAttention SequenceGeometry.exampleMath desc
      [⟨[1, 2], [1, 1, 2, 1]⟩, ⟨[5], [1, 1, 1, 1]⟩, ⟨[6], [1, 1, 1, 1]⟩]
      (some (portableState state))).1 = .ok ⟨[5, 5], [1, 1, 2, 1]⟩ := by
    decide +kernel
  obtain ⟨-, hafter⟩ := (attention_operators_agree SequenceGeometry.exampleMath desc).1
    ⟨1, 2, 1, 1, 1, 2, 1, .causal, 5⟩ ⟨[1, 1, 2, 1], [1, 2]⟩ ⟨[1, 1, 1, 1], [5]⟩
    ⟨[1, 1, 1, 1], [6]⟩ state ⟨[1, 1, 2, 1], [5, 5]⟩ ⟨5, 4, 2, 1, 1, 1, [3, 5], [4, 6]⟩
    ⟨[5, 5], [1, 1, 2, 1]⟩ _ (by decide +kernel) (by decide +kernel)
    (Prod.ext hportable rfl)
  exact Prod.ext hportable hafter

end VBuf.Ggml
