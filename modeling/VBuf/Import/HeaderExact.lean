import VBuf.Import.SourceSpec
import VBuf.Ml.StorageSize

/-!
# What an accepted safetensors header describes

The tensors of an accepted header are exactly its entries.  Their absolute ranges lie
between the header and the end of the file, one after the other, and a supported tensor
has the bytes of its shape.
-/

namespace VBuf.Import

open VBuf.Lib VBuf.V06 VBuf.Ml

/-- The bytes of one element of a supported data type. -/
def dtypeSize (dtype : String) : Option Nat :=
  if dtype = "F32" then some 4
  else if dtype = "BF16" then some 2
  else if dtype = "F8_E4M3" then some 1
  else none

/-- `parse_dtype` supports exactly the data types that have a size. -/
theorem dtypeLayout_of_dtypeSize {dtype : String} {size : Nat} (h : dtypeSize dtype = some size) :
    (dtypeLayout dtype).1.isSome = true ∧ (dtypeLayout dtype).2 = size := by
  unfold dtypeSize at h
  unfold dtypeLayout
  split_ifs at h ⊢
  all_goals
    cases h
    exact ⟨rfl, rfl⟩

/-- The tensor carries what the header says under its name, the offsets counted from
`dataStart`. -/
structure SourceTensor.Declared (dataStart : Nat) (tensor : SourceTensor) (value : Json) : Prop where
  dtype_eq : (value.get "dtype").bind Json.asStr = some tensor.dtype
  shape_eq : ∃ dimensions, (value.get "shape").bind Json.asArray = some dimensions ∧
    dimensions.map Json.asU64 = tensor.shape.map some
  offsets_eq : ∃ offsets first last, (value.get "data_offsets").bind Json.asArray = some offsets ∧
    offsets.map Json.asU64 = [some first, some last] ∧ first ≤ last ∧
    tensor.sourceBegin = dataStart + first ∧ tensor.sourceEnd = dataStart + last

/-- The tensor lies between the header and the end of the file, no product of its
dimensions and no offset leaves 64 bits, and a supported one has the bytes of its shape. -/
structure SourceTensor.Consistent (dataStart fileSize : Nat) (tensor : SourceTensor) : Prop where
  after_header : dataStart ≤ tensor.sourceBegin
  begin_le : tensor.sourceBegin ≤ tensor.sourceEnd
  within_file : tensor.sourceEnd ≤ fileSize
  end_lt : tensor.sourceEnd < u64Bound
  shape_lt : ∀ count, (tensor.shape.take count).prod < u64Bound
  length_eq : ∀ size, dtypeSize tensor.dtype = some size →
    tensor.sourceEnd - tensor.sourceBegin = size * tensor.shape.prod

/-- The entries of the header object that are tensors. -/
def tensorEntries (object : List (String × Json)) : List (String × Json) :=
  object.filter (fun entry => entry.1 ≠ "__metadata__")

theorem map_asU64_of_forall₂ {dimensions : List Json} {shape : List Nat}
    (h : List.Forall₂ (fun dimension n => Json.asU64 dimension = some n) dimensions shape) :
    dimensions.map Json.asU64 = shape.map some := by
  induction h with
  | nil => rfl
  | cons hhead _ ih => rw [List.map_cons, List.map_cons, hhead, ih]

theorem prod_take_lt_of_product {dimensions : List Nat} {product : Nat}
    (h : checkedProduct dimensions = some product) (count : Nat) :
    (dimensions.take count).prod < u64Bound := by
  rw [checkedProduct, ← List.take_append_drop count dimensions, List.foldlM_append,
    Option.bind_eq_bind, Option.bind_eq_some_iff] at h
  -- The product of a prefix is one of those that the source computes on its way.
  obtain ⟨partialProduct, hpartial, -⟩ := h
  rw [← checkedProduct_eq hpartial]
  exact foldlM_checkedMul_lt (by decide) hpartial

theorem elementCount_eq {shape : List Nat} {elements : Nat} (h : elementCount shape = .ok elements) :
    elements = shape.prod ∧ ∀ count, (shape.take count).prod < u64Bound := by
  unfold elementCount at h
  split at h
  next hnil =>
    cases h
    subst hnil
    refine ⟨rfl, ?_⟩
    intro count
    rw [List.take_nil]
    decide
  next =>
    have hproduct := logicalElements_eq_ok_iff.1 (mapErr_eq_ok_iff.1 h)
    exact ⟨checkedProduct_eq hproduct, prod_take_lt_of_product hproduct⟩

/-- What `parse_safetensors_header` computes for one entry. -/
theorem parseSourceTensor_consistent {shard name : String} {fileSize dataStart : Nat} {value : Json}
    {tensor : SourceTensor}
    (h : parseSourceTensor shard fileSize dataStart name value = .ok tensor) :
    tensor.Consistent dataStart fileSize ∧ tensor.Declared dataStart value ∧ tensor.name = name := by
  obtain ⟨hchecked, hname, -⟩ := parseSourceTensor_checked h
  simp only [parseSourceTensor, parseDtype, bind_eq_ok_iff, rejectIf_eq_ok_iff, okOr_eq_ok_iff,
    importAdd_eq_ok_iff, importMul_eq_ok_iff, pure_eq_ok_iff, mapM_eq_ok_iff, exists_const,
    Prod.exists, Prod.mk.injEq, not_and, not_not] at h
  obtain ⟨object, hobject, dtype, hdtype, dimensions, hdimensions, shape, hshape, offsets, hoffsets,
    hlength, first, hfirst, last, hlast, hle, _, ⟨-, rfl⟩, _, ⟨-, rfl⟩, hfile, _, _,
    ⟨elements, helements, _, ⟨-, rfl⟩, rfl, rfl⟩, hbytes, rfl⟩ := h
  obtain ⟨hproduct, hprefix⟩ := elementCount_eq helements
  have hget : ∀ key, value.get key = Json.field object key := by
    intro key
    rw [Json.get, hobject, Option.bind_some]
  refine ⟨⟨Nat.le_add_right _ _, hchecked.begin_le, not_lt.1 hfile, hchecked.end_lt, hprefix, ?_⟩,
    ⟨?_, ?_, ?_⟩, hname⟩
  · intro size hsize
    -- Only a supported type is compared with the bytes of its range.
    obtain ⟨hsome, hlayout⟩ := dtypeLayout_of_dtypeSize hsize
    have hexpected := hbytes hsome
    rw [hlayout, hproduct] at hexpected
    simp only
    rw [Nat.mul_comm size, hexpected]
    omega
  · rw [hget]
    exact hdtype
  · rw [hget]
    exact ⟨dimensions, hdimensions, map_asU64_of_forall₂ hshape⟩
  · rw [hget]
    refine ⟨offsets, first, last, hoffsets, ?_, not_lt.1 hle, rfl, rfl⟩
    obtain ⟨a, b, rfl⟩ := List.length_eq_two.1 hlength
    rw [List.map_cons, List.map_cons, List.map_nil]
    exact congrArg₂ (fun x y => [x, y]) hfirst hlast

/-- The loop yields one tensor for each entry, in their order. -/
theorem parseSourceTensors_forall₂ {shard : String} {fileSize dataStart : Nat}
    {names : List String} {object : List (String × Json)} {tensors : List SourceTensor}
    (h : parseSourceTensors shard fileSize dataStart names object = .ok tensors) :
    List.Forall₂ (fun entry tensor => tensor.Consistent dataStart fileSize ∧
      tensor.Declared dataStart entry.2 ∧ tensor.name = entry.1) (tensorEntries object) tensors := by
  induction object generalizing names tensors with
  | nil =>
      cases h
      exact List.Forall₂.nil
  | cons pair rest ih =>
      obtain ⟨name, value⟩ := pair
      unfold parseSourceTensors at h
      unfold tensorEntries
      split at h
      next hmetadata =>
        rw [List.filter_cons_of_neg (by simpa using hmetadata)]
        exact ih h
      next htensor =>
        simp only [bind_eq_ok_iff, rejectIf_eq_ok_iff, pure_eq_ok_iff] at h
        obtain ⟨_, -, tensor, hparsed, tail, htail, rfl⟩ := h
        rw [List.filter_cons_of_pos (by simpa using htensor)]
        exact List.Forall₂.cons (parseSourceTensor_consistent hparsed) (ih htail)

/-- The tensors of an accepted header are its entries, in the order of their ranges; they
lie between the header and the end of the file without a common byte, and each supported
one has the bytes of its shape. -/
theorem parseSafetensorsHeader_consistent {fromSlice : List UInt8 → Except String Json}
    {shard : String} {fileSize : Nat} {firstEight header : List UInt8}
    {tensors : List SourceTensor}
    (h : parseSafetensorsHeader fromSlice shard fileSize firstEight header = .ok tensors) :
    8 + header.length ≤ fileSize ∧ 8 + header.length < u64Bound ∧
      (∃ object parsed, fromSlice header = .ok (.object object) ∧
        List.Forall₂ (fun entry tensor => tensor.Declared (8 + header.length) entry.2 ∧
          tensor.name = entry.1) (tensorEntries object) parsed ∧ tensors.Perm parsed) ∧
      (∀ tensor ∈ tensors, tensor.Consistent (8 + header.length) fileSize) ∧
      tensors.Pairwise (fun a b => a.sourceEnd ≤ b.sourceBegin) := by
  have hpairwise := (parseSafetensorsHeader_checked h).2
  simp only [parseSafetensorsHeader, bind_eq_ok_iff, rejectIf_eq_ok_iff, okOr_eq_ok_iff,
    mapErr_eq_ok_iff, pure_eq_ok_iff, importAdd_eq_ok_iff, exists_const, not_not, not_lt] at h
  obtain ⟨-, -, hlength, -, value, hvalue, object, hobject, _, ⟨hstart, rfl⟩, hfile, parsed, hparsed,
    _, -, rfl⟩ := h
  rw [hlength] at hstart hfile hparsed
  have hentries := parseSourceTensors_forall₂ hparsed
  -- What is read in the order of the entries is sorted by its ranges.
  have hperm := List.perm_insertionSort SourceTensor.SortsBefore parsed
  refine ⟨hfile, hstart, ⟨object, parsed, ?_, ?_, hperm⟩, ?_, hpairwise⟩
  · cases value with
    | object fields =>
        cases hobject
        exact hvalue
    | _ => cases hobject
  · exact hentries.imp fun entry tensor hentry => hentry.2
  · intro tensor hmem
    obtain ⟨entry, -, hconsistent, -⟩ := exists_of_mem_right hentries (hperm.mem_iff.1 hmem)
    exact hconsistent

/-- A header of two tensors, the one with the later range first. -/
def twoTensorHeader : List UInt8 :=
  utf8 ("\x7b\"b\":\x7b\"dtype\":\"BF16\",\"shape\":[2,1],\"data_offsets\":[4,8]\x7d," ++
    "\"w\":\x7b\"dtype\":\"F32\",\"shape\":[],\"data_offsets\":[0,4]\x7d\x7d")

/-- The document of `twoTensorHeader`. -/
def twoTensorJson : Json :=
  let whole := fun value : UInt64 => Json.number (some value) none
  .object
    [("b", .object [("data_offsets", .array [whole 4, whole 8]), ("dtype", .string "BF16"),
        ("shape", .array [whole 2, whole 1])]),
      ("w", .object [("data_offsets", .array [whole 0, whole 4]), ("dtype", .string "F32"),
        ("shape", .array [])])]

/-- A JSON parser on `twoTensorHeader`. -/
def twoTensorFromSlice (bytes : List UInt8) : Except String Json :=
  if bytes = twoTensorHeader then .ok twoTensorJson else .error "not the header of two tensors"

/-- What `parse_safetensors_header` reads from it. -/
def twoTensors : List SourceTensor :=
  [{ name := "w", shard := "model.safetensors", sourceBegin := 117, sourceEnd := 121, dtype := "F32",
      shape := [], representation := some .canonicalPrimitive },
    { name := "b", shard := "model.safetensors", sourceBegin := 121, sourceEnd := 125,
      dtype := "BF16", shape := [2, 1], representation := some .bf16 }]

theorem parseSafetensorsHeader_twoTensors :
    parseSafetensorsHeader twoTensorFromSlice "model.safetensors" 125
      (leBytes 8 twoTensorHeader.length) twoTensorHeader = .ok twoTensors := by
  decide

theorem parseSafetensorsHeader_consistent_twoTensors :
    (∀ tensor ∈ twoTensors, tensor.Consistent (8 + twoTensorHeader.length) 125) ∧
      twoTensors.Pairwise (fun a b => a.sourceEnd ≤ b.sourceBegin) :=
  (parseSafetensorsHeader_consistent parseSafetensorsHeader_twoTensors).2.2.2

end VBuf.Import
