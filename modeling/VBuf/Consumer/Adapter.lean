import VBuf.Consumer.BorrowedModel
import VBuf.Ml.ConsumerTypes
import VBuf.Ml.NestedCodec
import VBuf.Ml.TokenizerView

/-!
# Texts across the C boundary

Each text of the model is copied into a buffer of fixed size behind a terminator, and the
adapter rebuilds it up to the first zero byte.  A text survives exactly when it is shorter
than its buffer and holds no zero byte; the parsers promise that only of some texts.
-/

namespace VBuf.Consumer

open VBuf.Lib VBuf.Layout VBuf.V06 VBuf.Ml

/-! ### The copy -/

/-- The copy of a text with its terminator into a zeroed buffer. -/
def copyText (text : List UInt8) (capacity : Nat) : Option (List UInt8) :=
  if text.length + 1 ≤ capacity then
    some (text ++ 0 :: List.replicate (capacity - text.length - 1) 0)
  else none

/-- The assignment of a terminated buffer to a `std::string`. -/
def readCString (buffer : List UInt8) : List UInt8 := buffer.takeWhile (fun byte => byte ≠ 0)

theorem readCString_append (text rest : List UInt8) :
    readCString (text ++ 0 :: rest) = text ↔ 0 ∉ text := by
  induction text with
  | nil => simp [readCString]
  | cons byte text ih =>
      rw [readCString, List.cons_append, List.takeWhile_cons]
      by_cases hzero : byte = 0
      · simp [hzero]
      · rw [if_pos (by simpa using hzero), List.cons.injEq, List.mem_cons, not_or]
        exact ⟨fun h => ⟨Ne.symm hzero, ih.1 h.2⟩, fun h => ⟨rfl, ih.2 h.2⟩⟩

/-- A text survives the copy exactly when it is shorter than the buffer and holds no zero. -/
theorem copyText_readCString_iff {text : List UInt8} {capacity : Nat} :
    (copyText text capacity).map readCString = some text ↔ text.length < capacity ∧ 0 ∉ text := by
  unfold copyText
  by_cases hfits : text.length + 1 ≤ capacity
  · rw [if_pos hfits, Option.map_some, Option.some.injEq, readCString_append]
    exact ⟨fun h => ⟨hfits, h⟩, fun h => h.2⟩
  · rw [if_neg hfits]
    exact ⟨fun h => (by cases h), fun h => absurd h.1 hfits⟩

/-! ### The C ABI -/

/-- The status codes of a failed call. -/
inductive Status
  | validationError
  | bufferTooSmall
  deriving DecidableEq, Repr

/-- `VbufMlTensorInfo`; a null payload is `none`. -/
structure TensorInfo where
  representation : Nat
  rank : Nat
  dimensions : List Nat
  payload : Option (List UInt8)
  payloadLen : Nat
  deriving DecidableEq, Repr

/-- The match on the consumer type in `vbuf_ml_consumer_tensor_info`. -/
def kindCode : ConsumerTensorType → Nat
  | .f32 => 0
  | .bf16 => 1
  | .q8_0 => 2
  | .q4_0 => 3
  | .q2_K => 4
  | .iq1_S => 5
  | .q4_K => 6
  | .iq4_NL => 7
  | .iq4_XS => 8
  | .q3_K => 9
  | .iq2_XXS => 10
  | .iq2_XS => 11
  | .iq2_S => 12
  | .q5_K => 13
  | .q6_K => 14
  | .f8_E4M3 => 15

/-- The dimensions in the sixteen places of the info. -/
def padDimensions (dimensions : List Nat) : List Nat :=
  dimensions ++ List.replicate (16 - dimensions.length) 0

variable (directory : TensorDirectory) (view : BorrowedModelView)

/-- `vbuf_ml_consumer_tensor_info`, with the name buffer. -/
def tensorInfo (index capacity : Nat) : Except Status (TensorInfo × List UInt8) := do
  let tensor ← okOr (directory.tensorAt index) .validationError
  let payload ← okOr (directory.tensorPayload index) .validationError
  let buffer ← okOr (copyText (utf8 tensor.name) capacity) .bufferTooSmall
  rejectIf (16 < tensor.dimensions.length) .validationError
  pure
    ({ representation := kindCode tensor.consumerType
       rank := tensor.dimensions.length
       dimensions := padDimensions tensor.dimensions
       payload := some payload
       payloadLen := payload.length }, buffer)

/-- `vbuf_ml_consumer_tensor_descriptor`, with the name buffer. -/
def tensorDescriptor (index capacity : Nat) : Except Status (TensorInfo × List UInt8) := do
  let tensor ← okOr (directory.tensorAt index) .validationError
  let buffer ← okOr (copyText (utf8 tensor.name) capacity) .bufferTooSmall
  rejectIf (16 < tensor.dimensions.length) .validationError
  pure
    ({ representation := tensor.representation.code
       rank := tensor.dimensions.length
       dimensions := padDimensions tensor.dimensions
       payload := none
       payloadLen := tensor.payload.length }, buffer)

/-- `vbuf_ml_consumer_tensor_source`: the source and the offset in it. -/
def tensorSource (index : Nat) : Except Status (Nat × Nat) := do
  let tensor ← okOr (directory.tensorAt index) .validationError
  pure (tensor.payload.sourceId.value, tensor.payload.offset)

/-- `vbuf_ml_consumer_nested_info`: the name buffer, the key, the occurrence and the length. -/
def nestedInfoC (index capacity : Nat) : Except Status (List UInt8 × UInt16 × UInt16 × Nat) := do
  let child ← okOr (view.nestedChild index) .validationError
  let buffer ← okOr (copyText (utf8 child.name) capacity) .bufferTooSmall
  pure (buffer, child.keyId, child.occurrence, child.childLength)

/-- `vbuf_ml_consumer_architecture`. -/
def architectureC (capacity : Nat) : Except Status (List UInt8) := do
  let metadata ← mapErr (fun _ => .validationError) view.modelMetadata
  okOr (copyText (utf8 metadata.architecture) capacity) .bufferTooSmall

/-- `vbuf_ml_consumer_token_text`. -/
def tokenTextC (index capacity : Nat) : Except Status (List UInt8) := do
  let text ← okOr (view.tokenizer.tokenText index) .validationError
  okOr (copyText (utf8 text) capacity) .bufferTooSmall

/-- `vbuf_ml_consumer_chat_template`. -/
def chatTemplateC (capacity : Nat) : Except Status (List UInt8) := do
  let template ← okOr view.chatTemplate .validationError
  okOr (copyText (utf8 template) capacity) .bufferTooSmall

/-! ### The adapter -/

/-- `ggml_type`, as far as the adapter maps it. -/
inductive GgmlType
  | f32
  | bf16
  | q8_0
  | q4_0
  | q2_K
  | iq1_S
  | q4_K
  | iq4_NL
  | iq4_XS
  | q3_K
  | iq2_XXS
  | iq2_XS
  | iq2_S
  | q5_K
  deriving DecidableEq, Repr

/-- The switch on the representation. -/
def ggmlTypeOf (representation : Nat) : Option GgmlType :=
  match representation with
  | 0 => some .f32
  | 1 => some .bf16
  | 2 => some .q8_0
  | 3 => some .q4_0
  | 4 => some .q2_K
  | 5 => some .iq1_S
  | 6 => some .q4_K
  | 7 => some .iq4_NL
  | 8 => some .iq4_XS
  | 9 => some .q3_K
  | 10 => some .iq2_XXS
  | 11 => some .iq2_XS
  | 12 => some .iq2_S
  | 13 => some .q5_K
  | _ => none

/-- `TensorDescriptor` of the adapter, without the lease. -/
structure AdapterTensor where
  name : List UInt8
  dimensions : List Nat
  type : GgmlType
  payload : Option (List UInt8)
  payloadBytes : Nat
  sourceId : Nat
  sourceOffset : Nat
  deriving DecidableEq, Repr

namespace VbufMlAdapter

/-- What `tensor` and `tensor_metadata` do with an info and its name buffer. -/
def describe (index : Nat) (info : TensorInfo × List UInt8) : Option AdapterTensor := do
  let type ← ggmlTypeOf info.1.representation
  let source ← (tensorSource directory index).toOption
  pure
    { name := readCString info.2
      dimensions := info.1.dimensions.take info.1.rank
      type
      payload := info.1.payload
      payloadBytes := info.1.payloadLen
      sourceId := source.1
      sourceOffset := source.2 }

/-- `tensor`. -/
def tensor (index : Nat) : Option AdapterTensor :=
  (tensorInfo directory index 4096).toOption.bind (describe directory index)

/-- `tensor_metadata`. -/
def tensorMetadata (index : Nat) : Option AdapterTensor :=
  (tensorDescriptor directory index 4096).toOption.bind (describe directory index)

/-- `architecture`. -/
def architecture : Option (List UInt8) := (architectureC view 128).toOption.map readCString

/-- `token_text`. -/
def tokenText (index : Nat) : Option (List UInt8) :=
  (tokenTextC view index 4097).toOption.map readCString

/-- `chat_template`. -/
def chatTemplate : Option (List UInt8) :=
  (chatTemplateC view (1024 * 1024)).toOption.map readCString

/-- `nested_info`. -/
def nestedInfo (index : Nat) : Option (List UInt8 × UInt16 × UInt16 × Nat) :=
  (nestedInfoC view index 4097).toOption.map fun info => (readCString info.1, info.2)

end VbufMlAdapter

/-! ### What the parsers promise -/

variable {directory} {view}

/-- A listed tensor has a name of at most 4096 bytes, without a zero, and at most sixteen
dimensions. -/
theorem readable_of_parseWithSources {validated : Validated} {bootstrap : Bootstrap}
    {sources : SourceRegistry} {external : List (UInt16 × UInt16 × TensorRef)}
    {directory : TensorDirectory}
    (h : TensorDirectory.parseWithSources validated bootstrap sources external = .ok directory)
    {tensor : TensorDescriptor} (hmem : tensor ∈ directory.tensors) :
    (utf8 tensor.name).length ≤ 4096 ∧ 0 ∉ utf8 tensor.name ∧ tensor.dimensions.length ≤ 16 := by
  obtain ⟨_, -, hlisting⟩ := TensorDirectory.listing_of_parseWithSources h
  obtain ⟨⟨-, hlong, hnul⟩, hrank, -⟩ := hlisting.readable hmem
  exact ⟨hlong, hnul, hrank⟩

/-- A payload that the artifact itself holds has a range. -/
theorem range_isSome_of_parseWithSources {validated : Validated} {bootstrap : Bootstrap}
    {size : Nat} {external : List (UInt16 × UInt16 × TensorRef)} {directory : TensorDirectory}
    (h : TensorDirectory.parseWithSources validated bootstrap (.ofSelf size) external =
      .ok directory) {tensor : TensorDescriptor} (hmem : tensor ∈ directory.tensors) :
    tensor.range.isSome = true := by
  obtain ⟨_, -, hlisting⟩ := TensorDirectory.listing_of_parseWithSources h
  have hresolved := hlisting.resolved tensor hmem
  simp only [TensorDirectory.resolveEntry, bind_eq_ok_iff, rejectIf_eq_ok_iff,
    pure_eq_ok_iff] at hresolved
  obtain ⟨_, -, _, -, _, -, _, -, payload, -, _, -, _, -, _, hregistered, range, hrange, heq⟩ :=
    hresolved
  rw [← heq]
  -- A registry of the artifact alone has no other source.
  have hself : payload.sourceId = .self := by
    by_contra hother
    exact hregistered (by simp [SourceRegistry.get, SourceRegistry.ofSelf,
      SourceDescriptor.selfArtifact, Ne.symm hother])
  simp only [TensorDirectory.selfRange, hself, if_true] at hrange
  cases hpayload : ofV06 (validated.payloadRange _) with
  | error error =>
      rw [hpayload] at hrange
      cases hrange
  | ok found =>
      rw [hpayload] at hrange
      cases hrange
      rfl

/-- The adapter has a type for the tensor. -/
def Mapped (tensor : TensorDescriptor) : Prop := (ggmlTypeOf tensor.representation.code).isSome = true

instance (tensor : TensorDescriptor) : Decidable (Mapped tensor) :=
  inferInstanceAs (Decidable (_ = true))

/-- Every text of the model comes out of its accessor byte for byte. -/
structure Lossless (view : BorrowedModelView) : Prop where
  tensor : ∀ index tensor, view.directory.tensorAt index = some tensor → Mapped tensor →
    tensor.range.isSome = true →
    (VbufMlAdapter.tensor view.directory index).map AdapterTensor.name = some (utf8 tensor.name)
  tensorMetadata : ∀ index tensor, view.directory.tensorAt index = some tensor → Mapped tensor →
    (VbufMlAdapter.tensorMetadata view.directory index).map AdapterTensor.name = some (utf8 tensor.name)
  tokenText : ∀ index text, view.tokenizer.tokenText index = some text →
    VbufMlAdapter.tokenText view index = some (utf8 text)
  nestedInfo : ∀ index child, view.nestedChild index = some child →
    (VbufMlAdapter.nestedInfo view index).map Prod.fst = some (utf8 child.name)
  architecture : ∀ metadata, view.modelMetadata = .ok metadata →
    VbufMlAdapter.architecture view = some (utf8 metadata.architecture)
  chatTemplate : ∀ text, view.chatTemplate = some text →
    VbufMlAdapter.chatTemplate view = some (utf8 text)

theorem tokenText_iff {index : Nat} {text : String}
    (htext : view.tokenizer.tokenText index = some text) :
    VbufMlAdapter.tokenText view index = some (utf8 text) ↔
      (utf8 text).length < 4097 ∧ 0 ∉ utf8 text := by
  rw [← copyText_readCString_iff, VbufMlAdapter.tokenText, tokenTextC, htext]
  show Option.map readCString (okOr (copyText (utf8 text) 4097) _).toOption = _ ↔ _
  cases copyText (utf8 text) 4097 <;> rfl

theorem architecture_iff {metadata : ConsumerModelMetadata}
    (hmetadata : view.modelMetadata = .ok metadata) :
    VbufMlAdapter.architecture view = some (utf8 metadata.architecture) ↔
      (utf8 metadata.architecture).length < 128 ∧ 0 ∉ utf8 metadata.architecture := by
  rw [← copyText_readCString_iff, VbufMlAdapter.architecture, architectureC, hmetadata]
  show Option.map readCString (okOr (copyText (utf8 metadata.architecture) 128) _).toOption = _ ↔ _
  cases copyText (utf8 metadata.architecture) 128 <;> rfl

theorem architecture_of_modelMetadata {metadata : ConsumerModelMetadata}
    (h : view.modelMetadata = .ok metadata) :
    ModelMetadata.architecture view.metadata = some metadata.architecture := by
  simp only [BorrowedModelView.modelMetadata, bind_eq_ok_iff, okOr_eq_ok_iff, pure_eq_ok_iff] at h
  obtain ⟨text, htext, _, -, _, -, _, -, _, -, _, -, _, -, _, -, _, -, _, -, _, -, rfl⟩ := h
  exact htext

/-- An artifact whose only tensor is one unsigned byte. -/
def byteArtifact : List UInt8 :=
  encodeStream 3 .knownSize (TokenizerMetadata.modelCalls TensorDirectory.exampleDirectory [] ++
    [TensorDirectory.arrayCall 7 .unsigned 8 1 [5]])

/-- The opened artifact. -/
def byteView : BorrowedModelView :=
  (BorrowedModelView.parse byteArtifact).toOption.get (by decide +kernel)

theorem byteView_sizes :
    ¬ ∀ tensor ∈ byteView.directory.tensors,
      tensor.payload.length = tensor.consumerType.storageSize tensor.dimensions := by
  decide +kernel

/-- A primitive of one byte is listed, and exposed as a four-byte float. -/
theorem byteTensor_not_consistent :
    ¬ ∀ bytes view, BorrowedModelView.parse bytes = .ok view →
      ∀ tensor ∈ view.directory.tensors, TensorDirectory.Consistent view.validated tensor := by
  intro h
  have hall := h byteArtifact byteView (eq_ok_get _)
  exact byteView_sizes fun tensor hmem => (hall tensor hmem).length_eq

end VBuf.Consumer
