import VBuf.Ml.DirectoryCodec
import VBuf.V06.Ranges
import VBuf.V06.RoundTrip

/-!
# The two paths to a payload

A tensor of the artifact itself has its payload twice: as the range of its block
and as the range of its source binding.  The directory parser compares the
lengths only, so the two are one range exactly when the binding that is found
starts at the block's payload.
-/

namespace VBuf.Ml

open VBuf.Lib VBuf.Layout VBuf.V06

/-- What the directory parser has checked of a listed tensor. -/
structure TensorDescriptor.Bound (validated : Validated) (sources : SourceRegistry)
    (external : List (UInt16 × UInt16 × TensorRef)) (tensor : TensorDescriptor) (target : Block) :
    Prop where
  index_eq : nthOccurrence validated.blocks tensor.keyId tensor.occurrence = some tensor.blockIndex
  block_eq : validated.blocks[tensor.blockIndex]? = some target
  payload_eq : TensorDirectory.bindPayload sources external tensor.entry.raw target =
    .ok tensor.payload
  geometry : TensorDirectory.checkGeometry tensor.entry.raw target tensor.payload = .ok ()
  length_eq : tensor.payload.sourceId = .self → tensor.payload.length = target.payloadLen
  range_eq : TensorDirectory.selfRange validated tensor.blockIndex tensor.payload = .ok tensor.range
  dimensions_pos : 0 ∉ tensor.dimensions

namespace TensorDirectory

variable {validated : Validated} {bootstrap : Bootstrap} {sources : SourceRegistry}
  {external : List (UInt16 × UInt16 × TensorRef)} {directory : TensorDirectory}

theorem bound_of_resolveEntry {raw : RawEntry} {tensor : TensorDescriptor}
    (hraw : 0 ∉ raw.dimensions) (h : resolveEntry validated sources external raw = .ok tensor) :
    ∃ target, tensor.Bound validated sources external target := by
  have hentry := (entry_of_resolveEntry h).1
  simp only [resolveEntry, bind_eq_ok_iff, okOr_eq_ok_iff, rejectIf_eq_ok_iff, pure_eq_ok_iff,
    not_and, not_not] at h
  obtain ⟨name, -, index, hindex, target, htarget, _, -, payload, hpayload, _, hgeometry, _,
    hlength, _, -, range, hrange, rfl⟩ := h
  exact ⟨target, hindex, htarget, hentry ▸ hpayload, hentry ▸ hgeometry, hlength, hrange, hraw⟩

/-- Every listed tensor has passed the checks. -/
theorem bound_of_parseWithSources
    (h : parseWithSources validated bootstrap sources external = .ok directory)
    {tensor : TensorDescriptor} (hmem : tensor ∈ directory.tensors) :
    ∃ target, tensor.Bound validated sources external target := by
  obtain ⟨_, -, hlisting⟩ := listing_of_parseWithSources h
  exact bound_of_resolveEntry (hlisting.readable hmem).2.2 (hlisting.resolved tensor hmem)

/-- The binding that the parser finds for a tensor. -/
def boundPayload (external : List (UInt16 × UInt16 × TensorRef)) (keyId occurrence : UInt16) :
    Option TensorRef :=
  (external.find? (fun binding => binding.1 = keyId ∧ binding.2.1 = occurrence)).map
    fun binding => binding.2.2

/-- The block that a key and an occurrence name. -/
def namedBlock (validated : Validated) (keyId occurrence : UInt16) : Option Block :=
  (nthOccurrence validated.blocks keyId occurrence).bind fun index => validated.blocks[index]?

/-- The binding found for a tensor starts where its block's payload does; a tensor
without a binding is bound to its block. -/
def BoundAtBlock (validated : Validated) (external : List (UInt16 × UInt16 × TensorRef))
    (keyId occurrence : UInt16) : Prop :=
  ∀ payload ∈ boundPayload external keyId occurrence,
    ∀ block ∈ namedBlock validated keyId occurrence, payload.offset = block.payloadStart

/-- `BorrowedModel::tensor_payload`: the range of the block. -/
def blockRange (tensor : TensorDescriptor) : Option ByteRange := tensor.range.map CheckedRange.range

/-- `ConsumerModel::tensor_payload`: the recorded range of the source. -/
def recordedRange (tensor : TensorDescriptor) : ByteRange := tensor.payload.range

/-- Both accessors reach one range of the artifact. -/
def PathsAgree (tensor : TensorDescriptor) : Prop :=
  blockRange tensor = some (recordedRange tensor)

theorem Bound.namedBlock_eq {tensor : TensorDescriptor} {target : Block}
    (h : tensor.Bound validated sources external target) :
    namedBlock validated tensor.keyId tensor.occurrence = some target := by
  rw [namedBlock, h.index_eq, Option.bind_some, h.block_eq]

/-- The block range of a tensor of the artifact is its block's payload. -/
theorem Bound.blockRange_eq {tensor : TensorDescriptor} {target : Block}
    (h : tensor.Bound validated sources external target)
    (hself : tensor.payload.sourceId = .self) :
    ∃ range, blockRange tensor = some range ∧ range.offset = target.payloadStart ∧
      range.stop = target.payloadEnd := by
  have hrange := h.range_eq
  rw [selfRange, if_pos hself, ofV06] at hrange
  cases hpayload : validated.payloadRange tensor.blockIndex with
  | error error =>
      rw [hpayload] at hrange
      cases hrange
  | ok checked =>
      rw [hpayload] at hrange
      obtain ⟨block, hblock, -, hoffset, hstop⟩ := Validated.payloadRange_eq_ok_iff.1 hpayload
      rw [h.block_eq] at hblock
      cases hblock
      refine ⟨checked.range, ?_, hoffset, hstop⟩
      rw [blockRange, ← Except.ok.inj hrange]
      rfl

/-- Where the recorded range starts: at the binding, or at the block. -/
theorem Bound.offset_eq {tensor : TensorDescriptor} {target : Block}
    (h : tensor.Bound validated sources external target) :
    boundPayload external tensor.keyId tensor.occurrence = some tensor.payload ∨
      boundPayload external tensor.keyId tensor.occurrence = none ∧
        tensor.payload.offset = target.payloadStart := by
  have hpayload := h.payload_eq
  unfold bindPayload at hpayload
  unfold boundPayload
  cases hfound : external.find?
      (fun binding => binding.1 = tensor.keyId ∧ binding.2.1 = tensor.occurrence) with
  | some binding =>
      left
      have hsame : external.find? (fun binding => binding.1 = tensor.entry.raw.keyId ∧
          binding.2.1 = tensor.entry.raw.occurrence) = some binding := hfound
      rw [hsame] at hpayload
      exact congrArg some (Except.ok.inj hpayload)
  | none =>
      right
      have hsame : external.find? (fun binding => binding.1 = tensor.entry.raw.keyId ∧
          binding.2.1 = tensor.entry.raw.occurrence) = none := hfound
      rw [hsame] at hpayload
      simp only [bind_eq_ok_iff, okOr_eq_ok_iff, mapErr_eq_ok_iff, SourceDescriptor.tensorRef,
        rejectIf_eq_ok_iff, pure_eq_ok_iff, ByteRange.new_eq_ok_iff] at hpayload
      obtain ⟨source, -, range, ⟨hoffset, -⟩, _, -, _, -, heq⟩ := hpayload
      refine ⟨rfl, ?_⟩
      rw [← heq]
      exact hoffset

/-- The two paths to the payload of a tensor of the artifact agree exactly when
the binding found for it, if any, starts at its block's payload. -/
theorem payloadPaths_agree_iff {bytes : List UInt8} (hparse : parseV06 bytes = .ok validated)
    (h : parseWithSources validated bootstrap sources external = .ok directory)
    {tensor : TensorDescriptor} (hmem : tensor ∈ directory.tensors)
    (hself : tensor.payload.sourceId = .self) :
    PathsAgree tensor ↔ BoundAtBlock validated external tensor.keyId tensor.occurrence := by
  obtain ⟨target, hbound⟩ := bound_of_parseWithSources h hmem
  obtain ⟨range, hrange, hoffset, hstop⟩ := Bound.blockRange_eq hbound hself
  have hwell := (parseV06_eq_ok_iff.1 hparse).2
  have hblock := hwell.blockAt (List.mem_of_getElem? hbound.block_eq)
  have hend := hblock.payloadEnd_eq
  have hlength := hbound.length_eq hself
  have hnamed := Bound.namedBlock_eq hbound
  -- Both ranges have the block's length, so only their starts can differ.
  have hagree : PathsAgree tensor ↔ tensor.payload.offset = target.payloadStart := by
    rw [PathsAgree, hrange, Option.some.injEq]
    constructor
    · intro heq
      rw [← hoffset, heq]
      rfl
    · intro heq
      have hsum : range.offset + range.length = range.stop := rfl
      refine ByteRange.ext (hoffset.trans heq.symm) ?_
      show range.length = tensor.payload.length
      omega
  rw [hagree]
  constructor
  · intro heq payload hpayload block hmem'
    rw [hnamed, Option.mem_some_iff] at hmem'
    subst hmem'
    rcases Bound.offset_eq hbound with hfound | ⟨hnone, -⟩
    · rw [hfound, Option.mem_some_iff] at hpayload
      rw [← hpayload]
      exact heq
    · rw [hnone] at hpayload
      cases hpayload
  · intro hbinding
    rcases Bound.offset_eq hbound with hfound | ⟨-, heq⟩
    · exact hbinding tensor.payload hfound target hnamed
    · exact heq

/-- Each binding was made through the registry. -/
def Registered (sources : SourceRegistry) (external : List (UInt16 × UInt16 × TensorRef)) : Prop :=
  ∀ binding ∈ external, ∃ source, sources.get binding.2.2.sourceId = some source ∧
    source.tensorRef binding.2.2.offset binding.2.2.length = .ok binding.2.2

instance (tensor : TensorDescriptor) : Decidable (PathsAgree tensor) :=
  inferInstanceAs (Decidable (_ = _))

/-- A call that writes one array. -/
def arrayCall (keyId : UInt16) (semantic : Semantic) (bitWidth count : Nat)
    (payload : List UInt8) : BlockWrite where
  options := { keyId, physical := .array, continuation := false, payloadShift := 0 }
  semantic
  bitWidth
  count
  payload

/-- A bootstrap of a tensor directory and a metadata region. -/
def exampleBootstrap : List UInt8 :=
  Bootstrap.magic ++ leBytes 2 1 ++ leBytes 2 0 ++ leBytes 2 2 ++ leBytes 2 0 ++
    Bootstrap.entryBytes ⟨1, true, 2, 0⟩ ++ Bootstrap.entryBytes ⟨2, true, 1, 0⟩

/-- A directory of one tensor with one element. -/
def exampleDirectory : List UInt8 :=
  magic ++ leBytes 2 version ++ leBytes 2 0 ++ leBytes 4 1 ++ leBytes 4 0 ++
    entryBytes ⟨"t", [1], .canonicalPrimitive, 7, 0⟩

/-- An artifact whose only tensor is the number one as a 32-bit float. -/
def exampleArtifact : List UInt8 :=
  encodeStream 3 .knownSize
    [arrayCall 0xF000 .opaqueBytes 8 exampleBootstrap.length exampleBootstrap,
     arrayCall 1 .opaqueBytes 8 0 [],
     arrayCall 2 .opaqueBytes 8 exampleDirectory.length exampleDirectory,
     arrayCall 7 .float 32 1 [0, 0, 128, 63]]

/-- A binding of that tensor to the first four bytes of the artifact. -/
def shiftedBinding : List (UInt16 × UInt16 × TensorRef) :=
  [(7, 0, ⟨.self, ⟨0, 4, by decide⟩⟩)]

/-- The parsed example artifact. -/
def exampleView : Validated := (parseV06 exampleArtifact).toOption.get (by decide +kernel)

/-- Its bootstrap. -/
def exampleRegions : Bootstrap := (Bootstrap.discover exampleView).toOption.get (by decide +kernel)

/-- Its directory, with or without the shifted binding. -/
def exampleTensors (external : List (UInt16 × UInt16 × TensorRef)) : Except MlError TensorDirectory :=
  parseWithSources exampleView exampleRegions (.ofSelf exampleArtifact.length) external

/-- The directory without bindings. -/
def plainTensors : TensorDirectory := (exampleTensors []).toOption.get (by decide +kernel)

/-- The directory under the shifted binding. -/
def shiftedTensors : TensorDirectory :=
  (exampleTensors shiftedBinding).toOption.get (by decide +kernel)

/-- The tensor of the directory without bindings. -/
def exampleTensor : TensorDescriptor := plainTensors.tensors.head (by decide +kernel)

theorem exampleView_eq : parseV06 exampleArtifact = .ok exampleView := eq_ok_get _

theorem exampleRegions_eq : Bootstrap.discover exampleView = .ok exampleRegions := eq_ok_get _

theorem plainTensors_eq : exampleTensors [] = .ok plainTensors := eq_ok_get _

theorem shiftedTensors_eq : exampleTensors shiftedBinding = .ok shiftedTensors := eq_ok_get _

theorem registered_shiftedBinding :
    Registered (.ofSelf exampleArtifact.length) shiftedBinding := by
  intro binding hmem
  obtain rfl := List.mem_singleton.1 hmem
  exact ⟨_, rfl, by decide +kernel⟩

theorem shiftedTensors_disagree :
    ¬ ∀ tensor ∈ shiftedTensors.tensors, tensor.payload.sourceId = .self → PathsAgree tensor := by
  decide +kernel

/-- A binding to the artifact itself, with the right length at another offset, is
accepted, and the two paths end up at different bytes. -/
theorem shiftedBinding_splits_paths :
    ¬ ∀ bytes validated bootstrap sources external directory, parseV06 bytes = .ok validated →
      Bootstrap.discover validated = .ok bootstrap → Registered sources external →
      parseWithSources validated bootstrap sources external = .ok directory →
      ∀ tensor ∈ directory.tensors, tensor.payload.sourceId = .self → PathsAgree tensor :=
  fun h => shiftedTensors_disagree
    (h _ _ _ _ _ _ exampleView_eq exampleRegions_eq registered_shiftedBinding shiftedTensors_eq)

/-- A binding of the tensor to the four bytes of its block. -/
def placedBinding : List (UInt16 × UInt16 × TensorRef) :=
  [(7, 0, ⟨.self, ⟨exampleTensor.payload.offset, 4, by decide +kernel⟩⟩)]

/-- The directory under that binding. -/
def placedTensors : TensorDirectory :=
  (exampleTensors placedBinding).toOption.get (by decide +kernel)

theorem placedTensors_eq : exampleTensors placedBinding = .ok placedTensors := eq_ok_get _

/-- The tensor of that directory. -/
def placedTensor : TensorDescriptor := placedTensors.tensors.head (by decide +kernel)

/-- The paths agree on the tensor, which is bound to its block. -/
theorem payloadPaths_agree_iff_placed :
    placedBinding.length = 1 ∧ PathsAgree placedTensor ∧
      BoundAtBlock exampleView placedBinding placedTensor.keyId placedTensor.occurrence := by
  have hagree : PathsAgree placedTensor := by decide +kernel
  exact ⟨rfl, hagree, (payloadPaths_agree_iff exampleView_eq placedTensors_eq (List.head_mem _)
    (by decide +kernel)).1 hagree⟩

end TensorDirectory

end VBuf.Ml
