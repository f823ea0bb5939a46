import VBuf.Consumer.Adapter

/-!
# Binding tensors by name

`set_vbuf_direct_tensor_data` looks for the wanted name in the mapped artifact,
`set_vbuf_remote_tensor_data` in the one whose payloads are fetched.  For `output.weight`
the one looks through the whole table before it falls back to `token_embd.weight`, the
other takes the first of the two; the order of the directory makes these one choice.
-/

namespace VBuf.Consumer

open VBuf.Lib VBuf.Layout VBuf.V06 VBuf.Ml

/-! ### Sources -/

/-- A pointer to the payload of a directory entry: into the mapping of the artifact, or to
the bytes that were fetched for it. -/
inductive PayloadPointer
  | mapped (index : Nat)
  | fetched (index : Nat)
  deriving DecidableEq, Repr

/-- What `llama_model_source::tensor` returns of an index. -/
structure ModelTensor where
  name : List UInt8
  type : GgmlType
  dimensions : List Nat
  payload : PayloadPointer
  bytes : Nat
  deriving DecidableEq, Repr

/-- `VbufDirectSource::tensor`, over `vbuf_ml_consumer_tensor_views`. -/
def directTensor (directory : TensorDirectory) (index : Nat) : Option ModelTensor := do
  let tensor ← directory.tensorAt index
  let type ← ggmlTypeOf tensor.representation.code
  pure
    { name := utf8 tensor.name
      type
      dimensions := tensor.dimensions
      payload := .mapped index
      bytes := (tensor.range.map fun range => range.bytes.length).getD 0 }

/-- The loop of the constructor of `VbufRemoteSource` over the tensors. -/
def describeTensors (directory : TensorDirectory) : Nat → Nat → Except String (List AdapterTensor)
  | 0, _ => .ok []
  | remaining + 1, index => do
      let descriptor ← okOr (VbufMlAdapter.tensorMetadata directory index)
        "remote vBuf tensor binding is not SourceId 1"
      rejectIf (descriptor.sourceId ≠ 1) "remote vBuf tensor binding is not SourceId 1"
      let descriptors ← describeTensors directory remaining (index + 1)
      pure (descriptor :: descriptors)

/-- `VbufRemoteSource`, as far as tensors go: its table, and whether `materialize_tensor`
succeeds for an index. -/
structure VbufRemoteSource where
  tensors : List AdapterTensor
  materializeTensor : Nat → Bool

/-- The constructor; every described tensor has a representation. -/
def VbufRemoteSource.new (directory : TensorDirectory) (materializeTensor : Nat → Bool) :
    Except String VbufRemoteSource := do
  rejectIf (directory.tensors.length = 0) "remote vBuf bootstrap has no tensors"
  let tensors ← describeTensors directory directory.tensors.length 0
  pure { tensors, materializeTensor }

/-- `VbufRemoteSource::tensor`. -/
def VbufRemoteSource.tensor (source : VbufRemoteSource) (index : Nat) : Option ModelTensor := do
  let descriptor ← source.tensors[index]?
  if source.materializeTensor index = true then
    pure
      { name := descriptor.name
        type := descriptor.type
        dimensions := descriptor.dimensions
        payload := .fetched index
        bytes := descriptor.payloadBytes }
  else none

/-! ### Binding -/

/-- The tensor to bind: its name, its type, where a source has it, and `ggml_nbytes`. -/
structure WantedTensor where
  name : List UInt8
  type : Option GgmlType
  nbytes : Nat
  deriving DecidableEq, Repr

/-- A loop over the tensors of a source that may end at one of them. -/
def scanTensors {α : Type} (tensor : Nat → Option ModelTensor) (failed : String)
    (visit : Nat → ModelTensor → Option (Except String α)) (finish : Except String α) :
    Nat → Nat → Except String α
  | 0, _ => finish
  | remaining + 1, index =>
      match tensor index with
      | none => .error failed
      | some found =>
          match visit index found with
          | some result => result
          | none => scanTensors tensor failed visit finish remaining (index + 1)

/-- `output.weight`. -/
def outputWeight : List UInt8 := utf8 "output.weight"

/-- `token_embd.weight`. -/
def tokenEmbdWeight : List UInt8 := utf8 "token_embd.weight"

/-- The payload of a tensor of the wanted type and size. -/
def bindPayload (wanted : WantedTensor) (mismatch : String) (found : ModelTensor) :
    Except String PayloadPointer :=
  if some found.type ≠ wanted.type ∨ found.bytes ≠ wanted.nbytes then .error mismatch
  else .ok found.payload

/-- `set_vbuf_remote_tensor_data`: the pointer that the tensor is bound to. -/
def setVbufRemoteTensorData (source : VbufRemoteSource) (wanted : WantedTensor) :
    Except String PayloadPointer :=
  scanTensors source.tensor "remote tensor descriptor failed"
    (fun index found =>
      if found.name = wanted.name ∨
          wanted.name = outputWeight ∧ found.name = tokenEmbdWeight then
        if source.materializeTensor index = true then
          match source.tensor index with
          | none => some (.error "remote tensor metadata mismatch")
          | some ready => some (bindPayload wanted "remote tensor metadata mismatch" ready)
        else some (.error "remote tensor materialization failed")
      else none)
    (.error "remote tensor payload is missing") source.tensors.length 0

/-- The first loop of `set_vbuf_direct_tensor_data`. -/
def hasOutput (directory : TensorDirectory) : Except String Bool :=
  scanTensors (directTensor directory) "invalid direct tensor source descriptor"
    (fun _ found => if found.name = outputWeight then some (.ok true) else none)
    (.ok false) directory.tensors.length 0

/-- The name that `set_vbuf_direct_tensor_data` looks for. -/
def directName (directory : TensorDirectory) (wanted : WantedTensor) : Except String (List UInt8) :=
  if wanted.name = outputWeight then do
    let found ← hasOutput directory
    pure (if found = true then wanted.name else tokenEmbdWeight)
  else .ok wanted.name

/-- `set_vbuf_direct_tensor_data`: the pointer that the tensor is bound to. -/
def setVbufDirectTensorData (directory : TensorDirectory) (wanted : WantedTensor) :
    Except String PayloadPointer := do
  let name ← directName directory wanted
  scanTensors (directTensor directory) "invalid direct tensor source descriptor"
    (fun _ found =>
      if found.name = name then
        some (bindPayload wanted "direct tensor source metadata mismatch" found)
      else none)
    (.error "direct tensor source payload is missing") directory.tensors.length 0

/-! ### Loops over a table -/

section Scan

variable {α : Type} {tensor : Nat → Option ModelTensor} {failed : String}
  {visit : Nat → ModelTensor → Option (Except String α)} {finish : Except String α}
  {remaining index : Nat}

/-- A loop that visits no tensor of interest finishes. -/
theorem scanTensors_eq_finish (h : ∀ i, index ≤ i → i < index + remaining →
      ∃ found, tensor i = some found ∧ visit i found = none) :
    scanTensors tensor failed visit finish remaining index = finish := by
  induction remaining generalizing index with
  | zero => rfl
  | succ remaining ih =>
      obtain ⟨found, hfound, hvisit⟩ := h index (Nat.le_refl _) (by omega)
      rw [scanTensors, hfound]
      simp only [hvisit]
      exact ih fun i hle hlt => h i (by omega) (by omega)

/-- A loop ends at the first tensor of interest. -/
theorem scanTensors_eq_visit {i : Nat} {found : ModelTensor} {result : Except String α}
    (hi : index ≤ i) (hbound : i < index + remaining)
    (hbefore : ∀ j, index ≤ j → j < i → ∃ other, tensor j = some other ∧ visit j other = none)
    (hfound : tensor i = some found) (hvisit : visit i found = some result) :
    scanTensors tensor failed visit finish remaining index = result := by
  induction remaining generalizing index with
  | zero => omega
  | succ remaining ih =>
      rcases Nat.eq_or_lt_of_le hi with rfl | hlt
      · rw [scanTensors, hfound]
        simp only [hvisit]
      · obtain ⟨other, hother, hnone⟩ := hbefore index (Nat.le_refl _) hlt
        rw [scanTensors, hother]
        simp only [hnone]
        exact ih hlt (by omega) fun j hle hj => hbefore j (by omega) hj

end Scan

/-- Either no item has a property, or one is the first that has it. -/
theorem exists_first {α : Type} (P : α → Prop) (items : List α) :
    (∀ (i : Nat) item, items[i]? = some item → ¬ P item) ∨
      ∃ (i : Nat) (item : α), items[i]? = some item ∧ P item ∧
        ∀ j < i, ∀ other, items[j]? = some other → ¬ P other := by
  classical
  by_cases h : ∃ (i : Nat) (item : α), items[i]? = some item ∧ P item
  · obtain ⟨item, hitem, hP⟩ := Nat.find_spec h
    refine .inr ⟨Nat.find h, item, hitem, hP, ?_⟩
    intro j hj other hother hPother
    exact Nat.find_min h hj ⟨other, hother, hPother⟩
  · exact .inl fun i item hitem hP => h ⟨i, item, hitem, hP⟩

/-! ### What the two sources serve -/

/-- The source returns the listed tensors, each with the pointer of its index. -/
def Serves (tensor : Nat → Option ModelTensor) (pointer : Nat → PayloadPointer)
    (tensors : List TensorDescriptor) : Prop :=
  ∀ (i : Nat) descriptor, tensors[i]? = some descriptor → ∃ found, tensor i = some found ∧
    found.name = utf8 descriptor.name ∧
    ggmlTypeOf descriptor.representation.code = some found.type ∧
    found.bytes = descriptor.payload.length ∧ found.payload = pointer i

section Serving

variable {α : Type} {tensor : Nat → Option ModelTensor} {pointer : Nat → PayloadPointer}
  {tensors : List TensorDescriptor} {failed : String}
  {visit : Nat → ModelTensor → Option (Except String α)} {finish : Except String α}

/-- A loop over a served table that wants none of the entries finishes. -/
theorem Serves.scan_eq_finish (hserves : Serves tensor pointer tensors)
    (h : ∀ (i : Nat) descriptor found, tensors[i]? = some descriptor →
      found.name = utf8 descriptor.name → visit i found = none) :
    scanTensors tensor failed visit finish tensors.length 0 = finish := by
  refine scanTensors_eq_finish ?_
  intro i _ hi
  rw [Nat.zero_add] at hi
  have hdescriptor := List.getElem?_eq_getElem hi
  obtain ⟨found, hfound, hname, -⟩ := hserves i _ hdescriptor
  exact ⟨found, hfound, h i _ found hdescriptor hname⟩

/-- A loop over a served table ends at the first entry that it wants. -/
theorem Serves.scan_eq_visit (hserves : Serves tensor pointer tensors) {i : Nat}
    {descriptor : TensorDescriptor} {found : ModelTensor} {result : Except String α}
    (hdescriptor : tensors[i]? = some descriptor) (hfound : tensor i = some found)
    (hvisit : visit i found = some result)
    (hbefore : ∀ j < i, ∀ other earlier, tensors[j]? = some other →
      earlier.name = utf8 other.name → visit j earlier = none) :
    scanTensors tensor failed visit finish tensors.length 0 = result := by
  have hi := (List.getElem?_eq_some_iff.1 hdescriptor).1
  refine scanTensors_eq_visit (Nat.zero_le i) (by rwa [Nat.zero_add]) ?_ hfound hvisit
  intro j _ hj
  have hother := List.getElem?_eq_getElem (Nat.lt_trans hj hi)
  obtain ⟨earlier, hearlier, hname, -⟩ := hserves j _ hother
  exact ⟨earlier, hearlier, hbefore j hj _ earlier hother hname⟩

end Serving

/-- The two tables list the same names, representations and payload lengths. -/
def SameListing (a b : TensorDescriptor) : Prop :=
  a.name = b.name ∧ a.representation = b.representation ∧ a.payload.length = b.payload.length

theorem Serves.of_sameListing {tensor : Nat → Option ModelTensor}
    {pointer : Nat → PayloadPointer} {tensors others : List TensorDescriptor}
    (h : Serves tensor pointer others) (hsame : List.Forall₂ SameListing tensors others) :
    Serves tensor pointer tensors := by
  intro i descriptor hdescriptor
  obtain ⟨hi, rfl⟩ := List.getElem?_eq_some_iff.1 hdescriptor
  have hi' : i < others.length := hsame.length_eq ▸ hi
  obtain ⟨hname, hrepresentation, hlength⟩ := hsame.get hi hi'
  obtain ⟨found, hfound, hfoundName, htype, hbytes, hpointer⟩ :=
    h i others[i] (List.getElem?_eq_getElem hi')
  simp only [List.get_eq_getElem] at hname hrepresentation hlength
  exact ⟨found, hfound, by rw [hname, hfoundName], by rw [hrepresentation, htype],
    by rw [hlength, hbytes], hpointer⟩

/-- What the remote loop takes: the wanted name, or the embeddings for the output. -/
def Accepts (wanted : WantedTensor) (descriptor : TensorDescriptor) : Prop :=
  utf8 descriptor.name = wanted.name ∨
    wanted.name = outputWeight ∧ utf8 descriptor.name = tokenEmbdWeight

/-- The entry that a wanted tensor is bound to: the one of its name, or the embeddings for
the output of an artifact without one. -/
def Chosen (tensors : List TensorDescriptor) (wanted : WantedTensor)
    (descriptor : TensorDescriptor) : Prop :=
  utf8 descriptor.name = wanted.name ∨
    wanted.name = outputWeight ∧ utf8 descriptor.name = tokenEmbdWeight ∧
      ∀ other ∈ tensors, utf8 other.name ≠ outputWeight

/-- The entries stand in strict name order. -/
def NameSorted (tensors : List TensorDescriptor) : Prop :=
  tensors.Pairwise (fun a b => byteKey a.name < byteKey b.name)

/-- The output stands before the embeddings. -/
theorem output_before_tokenEmbd {tensors : List TensorDescriptor} (hsorted : NameSorted tensors)
    {i j : Nat} {output embeddings : TensorDescriptor} (houtput : tensors[i]? = some output)
    (hembeddings : tensors[j]? = some embeddings) (houtputName : utf8 output.name = outputWeight)
    (hembeddingsName : utf8 embeddings.name = tokenEmbdWeight) : i < j := by
  obtain ⟨hi, rfl⟩ := List.getElem?_eq_some_iff.1 houtput
  obtain ⟨hj, rfl⟩ := List.getElem?_eq_some_iff.1 hembeddings
  have hkeys : ¬ byteKey tensors[j].name < byteKey tensors[i].name := by
    rw [byteKey, byteKey, houtputName, hembeddingsName]
    decide
  rcases Nat.lt_trichotomy i j with hlt | rfl | hgt
  · exact hlt
  · rw [houtputName] at hembeddingsName
    exact absurd hembeddingsName (by decide)
  · exact absurd (List.pairwise_iff_getElem.1 hsorted j i hj hi hgt) hkeys

section Choice

variable {directory : TensorDirectory} {wanted : WantedTensor}

theorem hasOutput_eq {pointer : Nat → PayloadPointer}
    (hserves : Serves (directTensor directory) pointer directory.tensors) :
    (∃ (i : Nat) (output : TensorDescriptor), directory.tensors[i]? = some output ∧ utf8 output.name = outputWeight ∧
        hasOutput directory = .ok true) ∨
      (∀ other ∈ directory.tensors, utf8 other.name ≠ outputWeight) ∧
        hasOutput directory = .ok false := by
  rcases exists_first (fun descriptor => utf8 descriptor.name = outputWeight) directory.tensors with
    hnone | ⟨i, output, houtput, hname, hbefore⟩
  · right
    constructor
    · intro other hmem
      obtain ⟨i, hi⟩ := List.mem_iff_getElem?.1 hmem
      exact hnone i other hi
    · refine hserves.scan_eq_finish ?_
      intro i other found hother hname
      refine if_neg ?_
      rw [hname]
      exact hnone i other hother
  · left
    refine ⟨i, output, houtput, hname, ?_⟩
    obtain ⟨found, hfound, hfoundName, -⟩ := hserves i output houtput
    refine hserves.scan_eq_visit houtput hfound (if_pos (hfoundName.trans hname)) ?_
    intro j hj other earlier hother hotherName
    refine if_neg ?_
    rw [hotherName]
    exact hbefore j hj other hother

/-- The name that the direct loop looks for is the one that the remote loop finds first. -/
theorem directName_spec {pointer : Nat → PayloadPointer}
    (hserves : Serves (directTensor directory) pointer directory.tensors)
    (hsorted : NameSorted directory.tensors) :
    ∃ name, directName directory wanted = .ok name ∧
      ((∀ (i : Nat) descriptor, directory.tensors[i]? = some descriptor →
          ¬ Accepts wanted descriptor ∧ utf8 descriptor.name ≠ name) ∨
        ∃ (i : Nat) (descriptor : TensorDescriptor), directory.tensors[i]? = some descriptor ∧
          utf8 descriptor.name = name ∧
          Accepts wanted descriptor ∧ Chosen directory.tensors wanted descriptor ∧
          ∀ j < i, ∀ other, directory.tensors[j]? = some other →
            ¬ Accepts wanted other ∧ utf8 other.name ≠ name) := by
  by_cases houtput : wanted.name = outputWeight
  · rcases hasOutput_eq hserves with ⟨_, output, hat, hname, hfound⟩ | ⟨hnone, hfound⟩
    · -- The output is there: nothing before it is named like the embeddings.
      refine ⟨wanted.name, by rw [directName, if_pos houtput, hfound]; rfl, .inr ?_⟩
      rcases exists_first (fun descriptor => utf8 descriptor.name = wanted.name)
        directory.tensors with hnever | ⟨i, descriptor, hdescriptor, hwanted, hbefore⟩
      · exact absurd (hname.trans houtput.symm) (hnever _ _ hat)
      · refine ⟨i, descriptor, hdescriptor, hwanted, .inl hwanted, .inl hwanted, ?_⟩
        intro j hj other hother
        have hdiffers := hbefore j hj other hother
        refine ⟨?_, hdiffers⟩
        rintro (hsame | ⟨-, hembeddings⟩)
        · exact hdiffers hsame
        · have hlt := output_before_tokenEmbd hsorted hdescriptor hother (hwanted.trans houtput)
            hembeddings
          omega
    · refine ⟨tokenEmbdWeight, by rw [directName, if_pos houtput, hfound]; rfl, ?_⟩
      have haccepts : ∀ (i : Nat) descriptor, directory.tensors[i]? = some descriptor →
          (Accepts wanted descriptor ↔ utf8 descriptor.name = tokenEmbdWeight) := by
        intro i descriptor hdescriptor
        have hdiffers := hnone descriptor (List.mem_of_getElem? hdescriptor)
        rw [← houtput] at hdiffers
        exact ⟨fun h => (h.resolve_left hdiffers).2, fun h => .inr ⟨houtput, h⟩⟩
      rcases exists_first (fun descriptor => utf8 descriptor.name = tokenEmbdWeight)
        directory.tensors with hnever | ⟨i, descriptor, hdescriptor, hname, hbefore⟩
      · left
        intro i descriptor hdescriptor
        have hdiffers := hnever i descriptor hdescriptor
        exact ⟨fun h => hdiffers ((haccepts i descriptor hdescriptor).1 h), hdiffers⟩
      · right
        refine ⟨i, descriptor, hdescriptor, hname, (haccepts i descriptor hdescriptor).2 hname,
          .inr ⟨houtput, hname, hnone⟩, ?_⟩
        intro j hj other hother
        have hdiffers := hbefore j hj other hother
        exact ⟨fun h => hdiffers ((haccepts j other hother).1 h), hdiffers⟩
  · refine ⟨wanted.name, if_neg houtput, ?_⟩
    have haccepts : ∀ descriptor, Accepts wanted descriptor ↔ utf8 descriptor.name = wanted.name :=
      fun descriptor => ⟨fun h => h.resolve_right fun h => houtput h.1, .inl⟩
    rcases exists_first (fun descriptor => utf8 descriptor.name = wanted.name)
      directory.tensors with hnever | ⟨i, descriptor, hdescriptor, hname, hbefore⟩
    · left
      intro i descriptor hdescriptor
      have hdiffers := hnever i descriptor hdescriptor
      exact ⟨fun h => hdiffers ((haccepts descriptor).1 h), hdiffers⟩
    · right
      refine ⟨i, descriptor, hdescriptor, hname, .inl hname, .inl hname, ?_⟩
      intro j hj other hother
      have hdiffers := hbefore j hj other hother
      exact ⟨fun h => hdiffers ((haccepts other).1 h), hdiffers⟩

end Choice

/-! ### One artifact behind two handles -/

section Artifact

variable {validated : Validated} {bootstrap : Bootstrap} {size : Nat}
  {sources : SourceRegistry} {external bindings : List (UInt16 × UInt16 × TensorRef)}
  {direct remote : TensorDirectory}

/-- The length of a payload is the one of its representation at its shape and its block. -/
theorem payload_length_eq_of_bound {others : SourceRegistry}
    {rebound : List (UInt16 × UInt16 × TensorRef)} {a b : TensorDescriptor} {target : Block}
    (ha : a.Bound validated sources external target) (hb : b.Bound validated others rebound target)
    (hdimensions : a.dimensions = b.dimensions) (hrepresentation : a.representation = b.representation) :
    a.payload.length = b.payload.length := by
  by_cases hprimitive : a.representation = .canonicalPrimitive
  · obtain ⟨-, elements, helements, hlength⟩ := TensorDirectory.Bound.primitive ha hprimitive
    obtain ⟨-, others, hothers, hother⟩ :=
      TensorDirectory.Bound.primitive hb (hrepresentation ▸ hprimitive)
    rw [← hdimensions, helements] at hothers
    cases hothers
    rw [hlength, hother]
  · have hlength := (TensorDirectory.Bound.packed ha hprimitive).2
    have hother := (TensorDirectory.Bound.packed hb (hrepresentation ▸ hprimitive)).2
    rw [← hdimensions, ← hrepresentation, hlength] at hother
    exact Except.ok.inj hother

/-- Both directories list the entries of the region. -/
theorem entries_eq (hdirect : TensorDirectory.parseWithSources validated bootstrap (.ofSelf size)
      external = .ok direct)
    (hremote : TensorDirectory.parseWithSources validated bootstrap sources bindings = .ok remote) :
    direct.tensors.map TensorDescriptor.entry = remote.tensors.map TensorDescriptor.entry := by
  obtain ⟨region, hregion, hlisting⟩ := TensorDirectory.listing_of_parseWithSources hdirect
  obtain ⟨other, hother, hlistingToo⟩ := TensorDirectory.listing_of_parseWithSources hremote
  -- Both parsers read one region, and nothing of the sources decides what is listed.
  rw [hregion, Option.some.injEq] at hother
  subst hother
  have hraws := hlisting.payload.symm.trans hlistingToo.payload
  exact List.map_injective_iff.2 TensorEntry.raw_injective (Except.ok.inj hraws)

theorem sameListing_of_parseWithSources
    (hdirect : TensorDirectory.parseWithSources validated bootstrap (.ofSelf size) external =
      .ok direct)
    (hremote : TensorDirectory.parseWithSources validated bootstrap sources bindings = .ok remote) :
    List.Forall₂ SameListing direct.tensors remote.tensors := by
  have hentries := entries_eq hdirect hremote
  have hlength : direct.tensors.length = remote.tensors.length := by
    simpa using congrArg List.length hentries
  refine List.forall₂_iff_get.2 ⟨hlength, ?_⟩
  intro i hi hi'
  have hentry : (direct.tensors[i]).entry = (remote.tensors[i]).entry := by
    have hat := congrArg (fun entries => entries[i]?) hentries
    simpa [hi, hi'] using hat
  obtain ⟨hname, hdimensions, hrepresentation, hkey, hoccurrence⟩ := TensorEntry.mk.inj hentry
  refine ⟨hname, hrepresentation, ?_⟩
  obtain ⟨target, htarget⟩ :=
    TensorDirectory.bound_of_parseWithSources hdirect (List.getElem_mem hi)
  obtain ⟨other, hother⟩ :=
    TensorDirectory.bound_of_parseWithSources hremote (List.getElem_mem hi')
  -- One key and occurrence name one block, whatever the sources are.
  have hblock := TensorDirectory.Bound.namedBlock_eq htarget
  rw [hkey, hoccurrence, TensorDirectory.Bound.namedBlock_eq hother, Option.some.injEq] at hblock
  subst hblock
  exact payload_length_eq_of_bound htarget hother hdimensions hrepresentation

/-- The mapped artifact serves each of its tensors. -/
theorem serves_directTensor {bytes : List UInt8} (hparse : parseV06 bytes = .ok validated)
    (hdirect : TensorDirectory.parseWithSources validated bootstrap (.ofSelf size) external =
      .ok direct) (hmapped : ∀ tensor ∈ direct.tensors, Mapped tensor) :
    Serves (directTensor direct) .mapped direct.tensors := by
  intro i descriptor hdescriptor
  have hmem := List.mem_of_getElem? hdescriptor
  obtain ⟨type, htype⟩ := Option.isSome_iff_exists.1 (hmapped descriptor hmem)
  obtain ⟨range, hrange⟩ :=
    Option.isSome_iff_exists.1 (range_isSome_of_parseWithSources hdirect hmem)
  obtain ⟨target, htarget⟩ := TensorDirectory.bound_of_parseWithSources hdirect hmem
  have hlength := TensorDirectory.Bound.range_length_eq hparse htarget
    (Option.mem_map_of_mem CheckedRange.range hrange)
  have hbytes : range.bytes.length = range.range.length := slice_length_of_le range.bounded
  refine ⟨⟨utf8 descriptor.name, type, descriptor.dimensions, .mapped i, range.bytes.length⟩,
    ?_, rfl, htype, by rw [hbytes, hlength], rfl⟩
  simp [directTensor, TensorDirectory.tensorAt, hdescriptor, htype, hrange]

theorem describeTensors_spec {remaining index : Nat} {tensors : List AdapterTensor}
    (h : describeTensors remote remaining index = .ok tensors) :
    tensors.length = remaining ∧ ∀ i < remaining,
      tensors[i]? = VbufMlAdapter.tensorMetadata remote (index + i) := by
  induction remaining generalizing index tensors with
  | zero =>
      cases h
      exact ⟨rfl, fun i hi => absurd hi (Nat.not_lt_zero i)⟩
  | succ remaining ih =>
      simp only [describeTensors, bind_eq_ok_iff, okOr_eq_ok_iff, pure_eq_ok_iff] at h
      obtain ⟨descriptor, hdescriptor, _, -, rest, hrest, rfl⟩ := h
      obtain ⟨hlength, hat⟩ := ih hrest
      refine ⟨by rw [List.length_cons, hlength], ?_⟩
      intro i hi
      cases i with
      | zero => exact hdescriptor.symm
      | succ i => rw [List.getElem?_cons_succ, hat i (by omega), Nat.add_right_comm, Nat.add_assoc]

/-- A text without a zero byte comes back out of its copy. -/
theorem readCString_of_copyText {text buffer : List UInt8} {capacity : Nat}
    (h : copyText text capacity = some buffer) (hnul : 0 ∉ text) : readCString buffer = text := by
  unfold copyText at h
  split at h
  · cases h
    exact (readCString_append text _).2 hnul
  · cases h

/-- The description of a tensor without its payload. -/
theorem tensorMetadata_eq_some {i : Nat} {descriptor : TensorDescriptor} {found : AdapterTensor}
    (hname : 0 ∉ utf8 descriptor.name) (hdescriptor : remote.tensors[i]? = some descriptor)
    (h : VbufMlAdapter.tensorMetadata remote i = some found) :
    found.name = utf8 descriptor.name ∧
      ggmlTypeOf descriptor.representation.code = some found.type ∧
      found.payloadBytes = descriptor.payload.length := by
  cases hcopy : copyText (utf8 descriptor.name) 4096 with
  | none =>
      simp [VbufMlAdapter.tensorMetadata, tensorDescriptor, TensorDirectory.tensorAt, hdescriptor,
        hcopy, okOr, bind, Except.bind, Except.toOption] at h
  | some buffer =>
      have hread := readCString_of_copyText hcopy hname
      by_cases hrank : 16 < descriptor.dimensions.length
      · simp [VbufMlAdapter.tensorMetadata, tensorDescriptor, TensorDirectory.tensorAt, hdescriptor,
          hcopy, okOr, bind, Except.bind, Except.toOption, rejectIf, hrank] at h
      · cases htype : ggmlTypeOf descriptor.representation.code <;>
          simp [VbufMlAdapter.tensorMetadata, tensorDescriptor, TensorDirectory.tensorAt,
            hdescriptor, hcopy, okOr, bind, Except.bind, Except.toOption, rejectIf, hrank,
            VbufMlAdapter.describe, htype, tensorSource, pure, Except.pure] at h
        subst h
        exact ⟨hread, rfl, rfl⟩

/-- A remote source that materializes its tensors serves each of them. -/
theorem serves_remote {source : VbufRemoteSource} {materializeTensor : Nat → Bool}
    (hremote : TensorDirectory.parseWithSources validated bootstrap sources bindings = .ok remote)
    (hsource : VbufRemoteSource.new remote materializeTensor = .ok source)
    (hmaterialize : ∀ i < remote.tensors.length, materializeTensor i = true) :
    source.tensors.length = remote.tensors.length ∧
      source.materializeTensor = materializeTensor ∧
      Serves source.tensor .fetched remote.tensors := by
  simp only [VbufRemoteSource.new, bind_eq_ok_iff, pure_eq_ok_iff] at hsource
  obtain ⟨_, -, tensors, htensors, rfl⟩ := hsource
  obtain ⟨hlength, hat⟩ := describeTensors_spec htensors
  refine ⟨hlength, rfl, ?_⟩
  intro i descriptor hdescriptor
  obtain ⟨hi, hget⟩ := List.getElem?_eq_some_iff.1 hdescriptor
  have hfound := hat i hi
  rw [Nat.zero_add, List.getElem?_eq_getElem (hlength ▸ hi)] at hfound
  obtain ⟨hname, htype, hbytes⟩ := tensorMetadata_eq_some
    (readable_of_parseWithSources hremote (hget ▸ List.getElem_mem hi)).2.1 hdescriptor hfound.symm
  refine ⟨⟨_, _, tensors[i].dimensions, .fetched i, _⟩, ?_, hname, htype, hbytes, rfl⟩
  simp [VbufRemoteSource.tensor, List.getElem?_eq_getElem (hlength ▸ hi), hmaterialize i hi]

theorem setVbufDirectTensorData_eq {wanted : WantedTensor} {name : List UInt8}
    (hname : directName direct wanted = .ok name) :
    setVbufDirectTensorData direct wanted =
      scanTensors (directTensor direct) "invalid direct tensor source descriptor"
        (fun _ found =>
          if found.name = name then
            some (bindPayload wanted "direct tensor source metadata mismatch" found)
          else none)
        (.error "direct tensor source payload is missing") direct.tensors.length 0 := by
  rw [setVbufDirectTensorData, hname]
  rfl

/-- One artifact behind both handles: a wanted tensor is bound to one entry by both, the one
of its name or the embeddings for an output that the artifact does not have, or by neither. -/
theorem setTensorData_agree {bytes : List UInt8} {source : VbufRemoteSource}
    {materializeTensor : Nat → Bool} (hparse : parseV06 bytes = .ok validated)
    (hdirect : TensorDirectory.parseWithSources validated bootstrap (.ofSelf size) external =
      .ok direct)
    (hremote : TensorDirectory.parseWithSources validated bootstrap sources bindings = .ok remote)
    (hsource : VbufRemoteSource.new remote materializeTensor = .ok source)
    (hmaterialize : ∀ i < remote.tensors.length, materializeTensor i = true)
    (hmapped : ∀ tensor ∈ direct.tensors, Mapped tensor) (wanted : WantedTensor) :
    (∃ index descriptor, direct.tensors[index]? = some descriptor ∧
        Chosen direct.tensors wanted descriptor ∧
        setVbufDirectTensorData direct wanted = .ok (.mapped index) ∧
        setVbufRemoteTensorData source wanted = .ok (.fetched index)) ∨
      (∃ error, setVbufDirectTensorData direct wanted = .error error) ∧
        ∃ error, setVbufRemoteTensorData source wanted = .error error := by
  have hserves := serves_directTensor hparse hdirect hmapped
  have hsame := sameListing_of_parseWithSources hdirect hremote
  obtain ⟨hcount, hready, hserved⟩ := serves_remote hremote hsource hmaterialize
  have hfetched := hserved.of_sameListing hsame
  rw [← hsame.length_eq] at hcount hmaterialize
  rw [← hready] at hmaterialize
  obtain ⟨_, -, hlisting⟩ := TensorDirectory.listing_of_parseWithSources hdirect
  obtain ⟨name, hname, hchoice⟩ := @directName_spec direct wanted _ hserves hlisting.sorted
  have hdirectScan := setVbufDirectTensorData_eq hname
  rcases hchoice with hnone |
    ⟨i, descriptor, hdescriptor, hdescriptorName, haccepted, hchosen, hbefore⟩
  · -- No entry is wanted: both loops run through the table.
    right
    rw [hdirectScan, setVbufRemoteTensorData, hcount, hserves.scan_eq_finish,
      hfetched.scan_eq_finish]
    · exact ⟨⟨_, rfl⟩, _, rfl⟩
    · intro i other found hother hotherName
      refine if_neg ?_
      rw [hotherName]
      exact (hnone i other hother).1
    · intro i other found hother hotherName
      refine if_neg ?_
      rw [hotherName]
      exact (hnone i other hother).2
  · obtain ⟨hi, -⟩ := List.getElem?_eq_some_iff.1 hdescriptor
    obtain ⟨found, hfound, hfoundName, htype, hbytes, hpointer⟩ := hserves i descriptor hdescriptor
    obtain ⟨other, hother, hotherName, hotherType, hotherBytes, hotherPointer⟩ :=
      hfetched i descriptor hdescriptor
    have hdirectBinds : setVbufDirectTensorData direct wanted =
        bindPayload wanted "direct tensor source metadata mismatch" found := by
      rw [hdirectScan]
      refine hserves.scan_eq_visit hdescriptor hfound (if_pos (hfoundName.trans hdescriptorName)) ?_
      intro j hj other earlier hother hotherName
      refine if_neg ?_
      rw [hotherName]
      exact (hbefore j hj other hother).2
    have hremoteBinds : setVbufRemoteTensorData source wanted =
        bindPayload wanted "remote tensor metadata mismatch" other := by
      rw [setVbufRemoteTensorData, hcount]
      refine hfetched.scan_eq_visit hdescriptor hother ?_ ?_
      · rw [if_pos (hotherName ▸ haccepted), if_pos (hmaterialize i hi), hother]
      · intro j hj earlier loaded hearlier hearlierName
        refine if_neg ?_
        rw [hearlierName]
        exact (hbefore j hj earlier hearlier).1
    -- Both loops end at one entry and check the same type and size of it.
    rw [hdirectBinds, hremoteBinds, bindPayload, bindPayload, hpointer, hotherPointer,
      ← htype, ← hotherType, hbytes, hotherBytes]
    by_cases hmismatch : ggmlTypeOf descriptor.representation.code ≠ wanted.type ∨
        descriptor.payload.length ≠ wanted.nbytes
    · right
      rw [if_pos hmismatch, if_pos hmismatch]
      exact ⟨⟨_, rfl⟩, _, rfl⟩
    · left
      rw [if_neg hmismatch, if_neg hmismatch]
      exact ⟨i, descriptor, hdescriptor, hchosen, rfl, rfl⟩

end Artifact

/-! ### An output that is the embeddings -/

/-- A directory of the last norm and the embeddings, without an output. -/
def tiedDirectory : List UInt8 :=
  TensorDirectory.magic ++ leBytes 2 TensorDirectory.version ++ leBytes 2 0 ++ leBytes 4 2 ++
    leBytes 4 0 ++
    TensorDirectory.entryBytes ⟨"output_norm.weight", [1], .canonicalPrimitive, 7, 0⟩ ++
    TensorDirectory.entryBytes ⟨"token_embd.weight", [1], .canonicalPrimitive, 7, 1⟩

/-- An artifact with those two tensors. -/
def tiedArtifact : List UInt8 :=
  V06.encodeStream 3 .knownSize
    [TensorDirectory.arrayCall 0xF000 .opaqueBytes 8 TensorDirectory.exampleBootstrap.length
       TensorDirectory.exampleBootstrap,
     TensorDirectory.arrayCall 1 .opaqueBytes 8 0 [],
     TensorDirectory.arrayCall 2 .opaqueBytes 8 tiedDirectory.length tiedDirectory,
     TensorDirectory.arrayCall 7 .float 32 1 [0, 0, 128, 63],
     TensorDirectory.arrayCall 7 .float 32 1 [0, 0, 0, 64]]

/-- The parsed artifact. -/
def tiedView : Validated := (parseV06 tiedArtifact).toOption.get (by decide +kernel)

/-- Its bootstrap. -/
def tiedRegions : Bootstrap := (Bootstrap.discover tiedView).toOption.get (by decide +kernel)

/-- Its directory. -/
def tiedTensors : TensorDirectory :=
  (TensorDirectory.parseWithSources tiedView tiedRegions (.ofSelf tiedArtifact.length)
    []).toOption.get (by decide +kernel)

theorem tiedView_eq : parseV06 tiedArtifact = .ok tiedView := eq_ok_get _

theorem tiedTensors_eq :
    TensorDirectory.parseWithSources tiedView tiedRegions (.ofSelf tiedArtifact.length) [] =
      .ok tiedTensors :=
  eq_ok_get _

/-- The artifact itself and a file of both payloads. -/
def tiedSources : SourceRegistry where
  descriptors := [.selfArtifact tiedArtifact.length, ⟨⟨1⟩, some 8, .file "t", []⟩]

theorem fileRange_fits : 0 + 4 < 2 ^ 64 := by decide

/-- The tensors are the halves of the file. -/
def fileBindings : List (UInt16 × UInt16 × TensorRef) :=
  [(7, 0, ⟨⟨1⟩, ⟨0, 4, fileRange_fits⟩⟩), (7, 1, ⟨⟨1⟩, ⟨4, 4, by decide⟩⟩)]

/-- The artifact with that file. -/
def remoteTensors : TensorDirectory :=
  (TensorDirectory.parseWithSources tiedView tiedRegions tiedSources fileBindings).toOption.get
    (by decide +kernel)

theorem remoteTensors_eq :
    TensorDirectory.parseWithSources tiedView tiedRegions tiedSources fileBindings =
      .ok remoteTensors :=
  eq_ok_get _

/-- A source over it that materializes everything. -/
def tiedSource : VbufRemoteSource :=
  (VbufRemoteSource.new remoteTensors fun _ => true).toOption.get (by decide +kernel)

theorem tiedSource_eq : VbufRemoteSource.new remoteTensors (fun _ => true) = .ok tiedSource :=
  eq_ok_get _

/-- The output of the model. -/
def wantedOutput : WantedTensor := ⟨utf8 "output.weight", some .f32, 4⟩

/-- Both sources bind the output, which the artifact does not have, to the embeddings. -/
theorem setTensorData_agree_output :
    ∃ descriptor, tiedTensors.tensors[1]? = some descriptor ∧
      descriptor.name = "token_embd.weight" ∧ Chosen tiedTensors.tensors wantedOutput descriptor ∧
      setVbufDirectTensorData tiedTensors wantedOutput = .ok (.mapped 1) ∧
      setVbufRemoteTensorData tiedSource wantedOutput = .ok (.fetched 1) := by
  have hmapped : setVbufDirectTensorData tiedTensors wantedOutput = .ok (.mapped 1) := by
    decide +kernel
  rcases setTensorData_agree tiedView_eq tiedTensors_eq remoteTensors_eq tiedSource_eq
    (fun _ _ => rfl) (by decide +kernel) wantedOutput with
    ⟨index, descriptor, hat, hchosen, hdirect, hremote⟩ | ⟨⟨error, hdirect⟩, -⟩
  · cases hmapped.symm.trans hdirect
    refine ⟨descriptor, hat, ?_, hchosen, hmapped, hremote⟩
    have hname : tiedTensors.tensors[1]?.map (fun descriptor => descriptor.name) =
        some "token_embd.weight" := by
      decide +kernel
    rw [hat] at hname
    exact Option.some.inj hname
  · cases hmapped.symm.trans hdirect

end VBuf.Consumer
