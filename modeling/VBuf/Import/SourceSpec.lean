import VBuf.Import.Source

/-!
# What accepted shard headers say

The tensors of the headers have distinct names, lie one after the other in
their shard, and a supported one has exactly the bytes of its shape.
-/

namespace VBuf.Import

open VBuf.Lib VBuf.V06 VBuf.Ml

theorem importAdd_eq_ok_iff {a b r : Nat} {label : String} :
    importAdd a b label = .ok r ↔ a + b < u64Bound ∧ r = a + b := by
  unfold importAdd
  by_cases h : a + b < u64Bound <;> simp [h, eq_comm]

theorem importMul_eq_ok_iff {a b r : Nat} {label : String} :
    importMul a b label = .ok r ↔ a * b < u64Bound ∧ r = a * b := by
  unfold importMul
  by_cases h : a * b < u64Bound <;> simp [h, eq_comm]

/-- The range, data type and shape of a tensor agree. -/
structure SourceTensor.Checked (tensor : SourceTensor) : Prop where
  begin_le : tensor.sourceBegin ≤ tensor.sourceEnd
  end_lt : tensor.sourceEnd < u64Bound
  shape_lt : ∀ dimension ∈ tensor.shape, dimension < u64Bound
  representation_eq : tensor.representation = (dtypeLayout tensor.dtype).1
  length_eq : tensor.representation.isSome = true → ∃ elements,
    elementCount tensor.shape = .ok elements ∧
      tensor.sourceEnd - tensor.sourceBegin = elements * (dtypeLayout tensor.dtype).2

theorem parseSourceTensor_checked {shard name : String} {fileSize dataStart : Nat} {value : Json}
    {tensor : SourceTensor}
    (h : parseSourceTensor shard fileSize dataStart name value = .ok tensor) :
    tensor.Checked ∧ tensor.name = name ∧ tensor.shard = shard := by
  simp only [parseSourceTensor, parseDtype, bind_eq_ok_iff, rejectIf_eq_ok_iff, okOr_eq_ok_iff,
    importAdd_eq_ok_iff, importMul_eq_ok_iff, pure_eq_ok_iff, mapM_eq_ok_iff, exists_const,
    Prod.exists, Prod.mk.injEq, not_and, not_not] at h
  obtain ⟨_, -, dtype, -, dimensions, -, shape, hshape, _, -, -, first, -, last, -, hle, _,
    ⟨-, rfl⟩, _, ⟨hend, rfl⟩, -, _, _, ⟨elements, helements, _, ⟨-, rfl⟩, rfl, rfl⟩, hlength, rfl⟩ := h
  refine ⟨⟨by simp only; omega, hend, ?_, rfl, ?_⟩, rfl, rfl⟩
  · intro dimension hmem
    obtain ⟨json, -, hjson⟩ := exists_of_mem_right hshape hmem
    exact Json.asU64_lt hjson
  · intro hsome
    refine ⟨elements, helements, ?_⟩
    have hbytes := hlength hsome
    simp only
    omega


theorem parseSourceTensors_checked {shard : String} {fileSize dataStart : Nat}
    {names : List String} {object : List (String × Json)} {tensors : List SourceTensor}
    (h : parseSourceTensors shard fileSize dataStart names object = .ok tensors) :
    ∀ tensor ∈ tensors, tensor.Checked ∧ tensor.shard = shard := by
  induction object generalizing names tensors with
  | nil =>
      cases h
      intro tensor hmem
      cases hmem
  | cons pair rest ih =>
      obtain ⟨name, value⟩ := pair
      unfold parseSourceTensors at h
      split at h
      · exact ih h
      · simp only [bind_eq_ok_iff, rejectIf_eq_ok_iff, pure_eq_ok_iff] at h
        obtain ⟨_, -, tensor, htensor, tail, htail, rfl⟩ := h
        intro other hmem
        rcases List.mem_cons.1 hmem with rfl | hmem
        · obtain ⟨hchecked, -, hshard⟩ := parseSourceTensor_checked htensor
          exact ⟨hchecked, hshard⟩
        · exact ih htail other hmem

/-- The overlap loop lets through only ranges that stand one after the other. -/
theorem rejectOverlap_pairwise {previousEnd : Nat} {tensors : List SourceTensor}
    (hchecked : ∀ tensor ∈ tensors, tensor.Checked)
    (h : rejectOverlap previousEnd tensors = .ok ()) :
    (∀ tensor ∈ tensors, previousEnd ≤ tensor.sourceBegin) ∧
      tensors.Pairwise (fun a b => a.sourceEnd ≤ b.sourceBegin) := by
  induction tensors generalizing previousEnd with
  | nil =>
      refine ⟨?_, List.Pairwise.nil⟩
      intro tensor hmem
      cases hmem
  | cons tensor rest ih =>
      simp only [rejectOverlap, bind_eq_ok_iff, rejectIf_eq_ok_iff, not_lt, exists_const] at h
      obtain ⟨hfirst, hrest⟩ := h
      have hbegin := (hchecked tensor List.mem_cons_self).begin_le
      obtain ⟨hafter, hpairwise⟩ :=
        ih (fun t ht => hchecked t (List.mem_cons_of_mem _ ht)) hrest
      refine ⟨?_, List.pairwise_cons.2 ⟨hafter, hpairwise⟩⟩
      intro other hmem
      rcases List.mem_cons.1 hmem with rfl | hmem
      · exact hfirst
      · have hle := hafter other hmem
        omega

theorem parseSafetensorsHeader_checked {fromSlice : List UInt8 → Except String Json}
    {shard : String} {fileSize : Nat} {firstEight header : List UInt8}
    {tensors : List SourceTensor}
    (h : parseSafetensorsHeader fromSlice shard fileSize firstEight header = .ok tensors) :
    (∀ tensor ∈ tensors, tensor.Checked ∧ tensor.shard = shard) ∧
      tensors.Pairwise (fun a b => a.sourceEnd ≤ b.sourceBegin) := by
  simp only [parseSafetensorsHeader, bind_eq_ok_iff, rejectIf_eq_ok_iff, okOr_eq_ok_iff,
    mapErr_eq_ok_iff, pure_eq_ok_iff, exists_const] at h
  obtain ⟨-, -, -, -, value, -, object, -, dataStart, -, -, parsed, hparsed, _, hoverlap, rfl⟩ := h
  have hchecked : ∀ tensor ∈ parsed.insertionSort SourceTensor.SortsBefore,
      tensor.Checked ∧ tensor.shard = shard := by
    intro tensor hmem
    exact parseSourceTensors_checked hparsed tensor ((List.mem_insertionSort _).1 hmem)
  exact ⟨hchecked, (rejectOverlap_pairwise (fun t ht => (hchecked t ht).1) hoverlap).2⟩

end VBuf.Import
