import VBuf.Consumer.ModelSource

/-!
# The two sources of one model

Both sources return the same texts, counts, merges and floats.  They differ in a special
id, a flag or an array of types that the tokenizer does not have, and in nothing else.
-/

namespace VBuf.Consumer

open VBuf.Lib VBuf.Layout VBuf.V06 VBuf.Ml

/-- The two sources answer alike. -/
structure SameModel (direct : DirectModel) (remote : RemoteModel) : Prop where
  strings : ∀ key ∈ namedKeys, direct.getString key = remote.getString key
  numbers : ∀ key ∈ namedKeys, direct.getU32 key = remote.getU32 key
  floats : ∀ key ∈ namedKeys, direct.getF32 key = remote.getF32 key
  flags : ∀ key ∈ namedKeys, direct.getBool key = remote.getBool key
  tokenCount : direct.tokenArrays.tokenCount = remote.tokenCount
  mergeCount : direct.mergeArrays.mergeCount = remote.mergeCount
  tokens : ∀ index, direct.token index = remote.token index
  merges : ∀ index, direct.merge index = remote.merge index

/-- Two tokenizers hold the same: their ranges may lie at different places of two artifacts. -/
@[mk_iff] structure SameTokenizer (a b : TokenizerMetadata) : Prop where
  kind : a.kind = b.kind
  tokenCount : a.tokenCount = b.tokenCount
  textPool : a.textPool.bytes = b.textPool.bytes
  offsets : a.offsets.bytes = b.offsets.bytes
  scores : a.scores.map CheckedRange.bytes = b.scores.map CheckedRange.bytes
  types : a.types.map CheckedRange.bytes = b.types.map CheckedRange.bytes
  mergeLeftIds : a.mergeLeftIds.map CheckedRange.bytes = b.mergeLeftIds.map CheckedRange.bytes
  mergeRightIds : a.mergeRightIds.map CheckedRange.bytes = b.mergeRightIds.map CheckedRange.bytes
  model : a.model = b.model
  preTokenizer : a.preTokenizer = b.preTokenizer
  addBos : a.addBos = b.addBos
  ignoreMerges : a.ignoreMerges = b.ignoreMerges
  chatTemplate : a.chatTemplate.map CheckedRange.bytes = b.chatTemplate.map CheckedRange.bytes
  tokenFlags : a.tokenFlags.map CheckedRange.bytes = b.tokenFlags.map CheckedRange.bytes
  specialIds : a.specialIds.map CheckedRange.bytes = b.specialIds.map CheckedRange.bytes
  specials : a.specials = b.specials

instance (a b : TokenizerMetadata) : Decidable (SameTokenizer a b) :=
  decidable_of_iff _ (sameTokenizer_iff a b).symm

/-- What a field says, without its place in the artifact. -/
def fieldContent (field : MetadataField) : ModelMetadataKey × MetadataValue := (field.key, field.value)

/-- Two descriptions of a model say the same. -/
def SameMetadata (a b : List MetadataField) : Prop := a.map fieldContent = b.map fieldContent

instance (a b : List MetadataField) : Decidable (SameMetadata a b) := inferInstanceAs (Decidable (_ = _))

/-- The tokenizer has all that the direct source has a default for. -/
@[mk_iff] structure Complete (view : BorrowedModelView) : Prop where
  ids : ∀ row ∈ tokenIdRows, (view.specialToken row.2).isSome = true
  addBos : view.tokenizer.addBos.isSome = true
  types : view.tokenizer.types.isSome = true

instance (view : BorrowedModelView) : Decidable (Complete view) :=
  decidable_of_iff _ (complete_iff view).symm

/-! ### Tokens and merges -/

section Tokenizer

variable {validated : Validated} {metadata : TokenizerMetadata} {source : DirectModel}

/-- The score of the arrays is the one of the adapter. -/
theorem tokenScore_eq (h : metadata.Checked validated)
    (hwell : WellFormed validated.bytes validated.header validated.blocks)
    (harrays : source.tokenArrays = consumerTokenArrays metadata) {i : Nat}
    (hi : i < metadata.tokenCount) :
    source.tokenScore i = some ((VbufMlAdapter.tokenScore metadata i).getD 0) := by
  cases hscores : metadata.scores with
  | none =>
      simp [DirectModel.tokenScore, harrays, consumerTokenArrays, hscores, VbufMlAdapter.tokenScore,
        TokenizerMetadata.scoreBits]
  | some range =>
      obtain ⟨block, hblock, hmem⟩ := h.scores range hscores
      have hpos := h.pos
      have hwidths : block.bitWidth = 32 ∨ block.bitWidth = 64 := by simpa using hmem
      have hlength := hblock.length_eq hwell (by rcases hwidths with hw | hw <;> simp [hw])
      -- The width that the source recomputes is the one of the block.
      have hwidth : range.bytes.length / metadata.tokenCount = block.bitWidth / 8 := by
        rw [hlength, Nat.mul_div_cancel_left _ hpos]
      have hpresent : range.bytes.length ≠ 0 := by
        rw [hlength]
        rcases hwidths with hw | hw <;> rw [hw] <;> omega
      have hbits : metadata.scoreBits i = TokenizerMetadata.ScoreBits.ofWidth (block.bitWidth / 8)
          (leAt range.bytes (i * (block.bitWidth / 8)) (block.bitWidth / 8)) := by
        rw [TokenizerMetadata.scoreBits, hscores]
        show (if metadata.tokenCount ≤ i then none else _) = _
        rw [if_neg (Nat.not_le_of_lt hi), hwidth, TokenizerMetadata.range?_element hlength hi]
        rfl
      rw [DirectModel.tokenScore, harrays, VbufMlAdapter.tokenScore, hbits]
      simp only [consumerTokenArrays, hscores, Option.map_some, Option.getD_some, hwidth]
      rw [if_pos hpresent]
      rcases hwidths with hw | hw <;> rw [hw]
      · -- A 32-bit score goes through a 64-bit float on its way out of the adapter.
        rw [if_pos (by decide)]
        exact congrArg some (FloatCast.narrow_widen _).symm
      · rw [if_neg (by decide), if_pos (by decide)]
        rfl

/-- The type of the arrays, where there are types, is the one of the adapter. -/
theorem tokenType_eq (h : metadata.Checked validated)
    (hwell : WellFormed validated.bytes validated.header validated.blocks)
    (harrays : source.tokenArrays = consumerTokenArrays metadata) {i : Nat}
    (hi : i < metadata.tokenCount) {range : CheckedRange} (htypes : metadata.types = some range) :
    ∃ type, source.tokenType i = some type ∧
      VbufMlAdapter.tokenType metadata i = some type := by
  obtain ⟨block, hblock, hall⟩ := h.type_eq hwell htypes
  have hpos := h.pos
  have hmem := hblock.width_mem hwell
  have hlength := hblock.length_eq hwell hmem
  have hwidth : range.bytes.length / metadata.tokenCount = block.bitWidth / 8 := by
    rw [hlength, Nat.mul_div_cancel_left _ hpos]
  have hlegal : block.bitWidth / 8 ∈ [1, 2, 4, 8] := by
    simp only [List.mem_cons, List.not_mem_nil, or_false] at hmem ⊢
    omega
  have hpresent : range.bytes.length ≠ 0 := by
    rw [hlength]
    simp only [List.mem_cons, List.not_mem_nil, or_false] at hlegal
    exact Nat.mul_ne_zero hpos.ne' (by omega)
  refine ⟨toInt32 (TokenizerMetadata.elementAt block range i), ?_, ?_⟩
  · rw [DirectModel.tokenType, harrays]
    simp only [consumerTokenArrays, htypes, Option.map_some, Option.getD_some, hwidth]
    rw [if_pos hpresent, if_pos hlegal]
    rfl
  · rw [VbufMlAdapter.tokenType, hall i hi, Option.map_some]

/-- The text of the arrays is the one of the adapter. -/
theorem tokenText_eq {view : BorrowedModelView} (h : view.tokenizer.Checked validated)
    (hwell : WellFormed validated.bytes validated.header validated.blocks) {i : Nat}
    (hi : i < view.tokenizer.tokenCount) :
    VbufMlAdapter.tokenText view i =
      some (slice view.tokenizer.textPool.bytes (leAt view.tokenizer.offsets.bytes (i * 8) 8)
        (leAt view.tokenizer.offsets.bytes ((i + 1) * 8) 8 -
          leAt view.tokenizer.offsets.bytes (i * 8) 8)) := by
  obtain ⟨start, stop, text, hstart, hstop, hle, hinside, htext, hbytes⟩ := h.span hwell hi
  rw [h.offset_eq hwell (Nat.le_of_lt hi), Option.some.injEq] at hstart
  rw [h.offset_eq hwell hi, Option.some.injEq] at hstop
  obtain ⟨-, -, hshort, -, hnul⟩ := h.texts i hi
  rw [hstart, hstop] at hshort hnul ⊢
  rw [← hbytes] at hnul ⊢
  refine (tokenText_iff htext).2 ⟨?_, hnul⟩
  rw [hbytes, slice_length_of_le (by omega)]
  exact Nat.lt_succ_of_le hshort

/-- Both sources answer every token alike exactly when there are types. -/
theorem token_eq_iff {remote : RemoteModel} (h : remote.view.tokenizer.Checked validated)
    (hwell : WellFormed validated.bytes validated.header validated.blocks)
    (harrays : source.tokenArrays = consumerTokenArrays remote.view.tokenizer) :
    (∀ index, source.token index = remote.token index) ↔
      remote.view.tokenizer.types.isSome = true := by
  have hdirect : ∀ i < remote.view.tokenizer.tokenCount, source.token i =
      (source.tokenType i).map fun type =>
        { text := slice remote.view.tokenizer.textPool.bytes
            (leAt remote.view.tokenizer.offsets.bytes (i * 8) 8)
            (leAt remote.view.tokenizer.offsets.bytes ((i + 1) * 8) 8 -
              leAt remote.view.tokenizer.offsets.bytes (i * 8) 8)
          score := (VbufMlAdapter.tokenScore remote.view.tokenizer i).getD 0
          type } := by
    intro i hi
    -- The checks of the offsets pass for each token that the parser accepted.
    obtain ⟨hle, hinside, -⟩ := h.texts i hi
    rw [DirectModel.token, tokenScore_eq h hwell harrays hi, harrays]
    refine (if_neg (Nat.not_le_of_lt hi)).trans
      ((if_neg (not_or.2 ⟨Nat.not_lt.2 hle, Nat.not_lt.2 hinside⟩)).trans ?_)
    cases source.tokenType i <;> rfl
  have hremote : ∀ i < remote.view.tokenizer.tokenCount, remote.token i =
      (VbufMlAdapter.tokenType remote.view.tokenizer i).map fun type =>
        { text := slice remote.view.tokenizer.textPool.bytes
            (leAt remote.view.tokenizer.offsets.bytes (i * 8) 8)
            (leAt remote.view.tokenizer.offsets.bytes ((i + 1) * 8) 8 -
              leAt remote.view.tokenizer.offsets.bytes (i * 8) 8)
          score := (VbufMlAdapter.tokenScore remote.view.tokenizer i).getD 0
          type } := by
    intro i hi
    rw [RemoteModel.token, tokenText_eq h hwell hi]
    cases VbufMlAdapter.tokenType remote.view.tokenizer i <;> rfl
  constructor
  · intro hall
    by_contra habsent
    rw [Option.not_isSome_iff_eq_none] at habsent
    -- Without types the one answers the first token with type 1, the other refuses it.
    have hfirst := hall 0
    rw [hdirect 0 h.pos, hremote 0 h.pos] at hfirst
    simp [DirectModel.tokenType, harrays, consumerTokenArrays, habsent, VbufMlAdapter.tokenType,
      TokenizerMetadata.tokenType] at hfirst
  · intro htypes index
    obtain ⟨range, hrange⟩ := Option.isSome_iff_exists.1 htypes
    by_cases hi : index < remote.view.tokenizer.tokenCount
    · obtain ⟨type, htype, hother⟩ := tokenType_eq h hwell harrays hi hrange
      rw [hdirect index hi, hremote index hi, htype, hother]
    · have hout := Nat.le_of_not_lt hi
      have htext : remote.view.tokenizer.tokenText index = none := by
        rw [TokenizerMetadata.tokenText, TokenizerMetadata.tokenBytes, if_pos hout]
        rfl
      have hnothing : VbufMlAdapter.tokenText remote.view index = none := by
        rw [VbufMlAdapter.tokenText, tokenTextC, htext]
        rfl
      rw [DirectModel.token, RemoteModel.token, hnothing, harrays]
      exact if_pos hout

/-- The merge arrays come together, and in one length. -/
theorem mergeIds_of_parse {bootstrap : Bootstrap}
    (h : TokenizerMetadata.parse validated bootstrap = .ok metadata) :
    metadata.mergeLeftIds = none ∨ ∃ left right, metadata.mergeLeftIds = some left ∧
      metadata.mergeRightIds = some right ∧ left.bytes.length = right.bytes.length := by
  simp only [TokenizerMetadata.parse, bind_eq_ok_iff, okOr_eq_ok_iff, rejectIf_eq_ok_iff,
    pure_eq_ok_iff] at h
  obtain ⟨⟨kind, resolved⟩, -, _, -, _, -, _, -, _, -, _, -, _, -, _, -, _, -, merges, hmerges, _, -,
    _, -, _, -, _, -, _, -, _, -, _, -, _, -, rfl⟩ := h
  unfold TokenizerMetadata.parseMerges at hmerges
  split at hmerges
  · simp only [bind_eq_ok_iff, rejectIf_eq_ok_iff, pure_eq_ok_iff, not_not] at hmerges
    obtain ⟨left, -, right, -, _, hlength, _, -, rfl⟩ := hmerges
    exact .inr ⟨left, right, rfl, rfl, hlength⟩
  · cases hmerges
    exact .inl rfl

/-- Both sources answer the same merges. -/
theorem merge_eq {bootstrap : Bootstrap} {remote : RemoteModel}
    (h : TokenizerMetadata.parse validated bootstrap = .ok remote.view.tokenizer)
    (harrays : source.mergeArrays = consumerMergeArrays remote.view.tokenizer) (index : Nat) :
    source.merge index = remote.merge index := by
  rw [DirectModel.merge, RemoteModel.merge, harrays, TokenizerMetadata.mergePair]
  simp only [consumerMergeArrays, TokenizerMetadata.mergeCount]
  rcases mergeIds_of_parse h with hleft | ⟨left, right, hleft, hright, hlength⟩
  · simp only [hleft]
    exact if_pos (Nat.zero_le index)
  · simp only [hleft, hright, Option.map_some, Option.getD_some, Option.bind_eq_bind,
      Option.bind_some]
    by_cases hi : left.bytes.length / 4 ≤ index
    · rw [if_pos hi, range?, if_neg (by omega)]
      rfl
    · rw [if_neg hi, range?_of_le (Nat.le_add_right _ _) (by omega),
        range?_of_le (Nat.le_add_right _ _) (by omega), Nat.add_sub_cancel_left]
      rfl

end Tokenizer

/-! ### Keys -/

section Keys

variable {source : DirectModel} {remote : RemoteModel}

theorem deepseek_eq (h : source.architecture = utf8 "qwen3") : source.deepseek = false := by
  rw [DirectModel.deepseek, h]
  decide

theorem family_eq (h : source.architecture = utf8 "qwen3") : source.family = "qwen3." := by
  rw [DirectModel.family, deepseek_eq h]
  rfl

/-- The direct source answers the key of a special id in any case. -/
theorem getU32_tokenId (h : source.architecture = utf8 "qwen3") {row : String × Nat}
    (hrow : row ∈ tokenIdRows) :
    source.getU32 row.1 = some (source.special row.2 % 2 ^ 32) ∧
      remote.getU32 row.1 = (remote.view.specialToken row.2).map fun id => id % 2 ^ 32 := by
  simp only [tokenIdRows, List.mem_cons, List.not_mem_nil, or_false] at hrow
  rcases hrow with rfl | rfl | rfl <;>
    simp [DirectModel.getU32, DirectModel.u32Value, RemoteModel.getU32, RemoteModel.u32Value,
      deepseek_eq h, family_eq h, commonRows, familyRows, tokenIdRows]

/-- The other keys have the same number in both sources. -/
theorem getU32_eq (h : source.architecture = utf8 "qwen3")
    (hcommon : commonRows source.metadata = commonRows remote.metadata)
    (hrope : source.metadata.ropeDimension = remote.metadata.ropeDimension) {key : String}
    (hkey : key ∈ namedKeys) (hid : key ∉ tokenIdRows.map Prod.fst) :
    source.getU32 key = remote.getU32 key := by
  simp only [DirectModel.getU32, DirectModel.u32Value, RemoteModel.getU32, RemoteModel.u32Value,
    deepseek_eq h, family_eq h, hcommon]
  simp only [namedKeys, List.mem_cons, List.not_mem_nil, or_false] at hkey
  rcases hkey with rfl | rfl | rfl | rfl | rfl | rfl | rfl | rfl | rfl | rfl | rfl | rfl | rfl | rfl |
      rfl | rfl | rfl | rfl | rfl <;>
    simp [commonRows, familyRows, tokenIdRows, hrope] at hid ⊢

end Keys

/-! ### The sources of two handles -/

/-- Both sources were made from one model, of the architecture that the remote one expects. -/
structure OneModel (source : DirectModel) (other : RemoteModel) : Prop where
  qwen : source.architecture = utf8 "qwen3"
  architecture : other.architecture = source.architecture
  common : commonRows source.metadata = commonRows other.metadata
  rope : source.metadata.ropeDimension = other.metadata.ropeDimension
  epsilon : source.metadata.normalizationEpsilon = other.metadata.normalizationEpsilon
  theta : source.metadata.ropeTheta = other.metadata.ropeTheta
  tokens : source.tokenArrays = consumerTokenArrays other.view.tokenizer
  merges : source.mergeArrays = consumerMergeArrays other.view.tokenizer
  special : ∀ kind, source.special kind = (other.view.specialToken kind).getD 0
  addBos : source.addBos = other.view.tokenizer.addBos.getD false
  template : source.chatTemplate = VbufMlAdapter.chatTemplate other.view

theorem get_of_sameMetadata {a b : List MetadataField} (h : SameMetadata a b)
    (key : ModelMetadataKey) : (ModelMetadata.get a key).map MetadataField.value =
      (ModelMetadata.get b key).map MetadataField.value := by
  have hfind : ∀ fields : List MetadataField,
      (ModelMetadata.get fields key).map MetadataField.value =
        ((fields.map fieldContent).find? fun pair => pair.1 = key).map Prod.snd := by
    intro fields
    rw [List.find?_map, Option.map_map]
    rfl
  rw [hfind, hfind, h]

theorem modelMetadata_of_sameMetadata {a b : BorrowedModelView}
    (h : SameMetadata a.metadata b.metadata) : a.modelMetadata = b.modelMetadata := by
  simp only [BorrowedModelView.modelMetadata, ModelMetadata.unsigned, ModelMetadata.architecture,
    ModelMetadata.float, get_of_sameMetadata h]

/-- The counts of the merges are those of their left ids. -/
theorem SameTokenizer.mergeCount_eq {a b : TokenizerMetadata} (h : SameTokenizer a b) :
    a.mergeCount = b.mergeCount := by
  have hleft : ∀ metadata : TokenizerMetadata, metadata.mergeCount =
      ((metadata.mergeLeftIds.map CheckedRange.bytes).map fun bytes => bytes.length / 4).getD 0 := by
    intro metadata
    rw [Option.map_map]
    rfl
  rw [hleft, hleft, h.mergeLeftIds]

theorem SameTokenizer.tokenArrays_eq {a b : TokenizerMetadata} (h : SameTokenizer a b) :
    consumerTokenArrays a = consumerTokenArrays b := by
  rw [consumerTokenArrays, consumerTokenArrays, h.textPool, h.offsets, h.types, h.scores, h.tokenCount]

theorem SameTokenizer.mergeArrays_eq {a b : TokenizerMetadata} (h : SameTokenizer a b) :
    consumerMergeArrays a = consumerMergeArrays b := by
  rw [consumerMergeArrays, consumerMergeArrays, h.mergeLeftIds, h.mergeRightIds, h.mergeCount_eq]

theorem SameTokenizer.chatTemplate_eq {a b : BorrowedModelView}
    (h : SameTokenizer a.tokenizer b.tokenizer) : a.chatTemplate = b.chatTemplate := by
  have hbytes : ∀ view : BorrowedModelView, view.chatTemplate =
      (view.tokenizer.chatTemplate.map CheckedRange.bytes).bind fromUtf8 := by
    intro view
    rw [Option.bind_map]
    rfl
  rw [hbytes, hbytes, h.chatTemplate]

theorem oneModel_of_new {direct remote : ConsumerHandle} {source : DirectModel}
    {other : RemoteModel} (hsame : SameTokenizer direct.view.tokenizer remote.view.tokenizer)
    (hmetadata : SameMetadata direct.view.metadata remote.view.metadata)
    (harchitecture : ModelMetadata.architecture remote.view.metadata = some "qwen3")
    (hdirect : DirectModel.new direct = .ok source) (hremote : RemoteModel.new remote = .ok other) :
    other.view = remote.view ∧ OneModel source other := by
  have hmodel := modelMetadata_of_sameMetadata hmetadata
  simp only [DirectModel.new, RemoteModel.new, consumerMetadata, bind_eq_ok_iff, okOr_eq_ok_iff,
    mapErr_eq_ok_iff, pure_eq_ok_iff, hmodel] at hdirect hremote
  obtain ⟨text, htext, _, ⟨info, hinfo, rfl⟩, rfl⟩ := hdirect
  obtain ⟨_, ⟨sameInfo, hsameInfo, rfl⟩, otherText, hotherText, -, -, -, -, rfl⟩ := hremote
  rw [hinfo] at hsameInfo
  cases hsameInfo
  have hqwen : info.architecture = "qwen3" :=
    Option.some.inj ((architecture_of_modelMetadata hinfo).symm.trans harchitecture)
  have hcopies : ∀ view : BorrowedModelView, view.modelMetadata = .ok info →
      VbufMlAdapter.architecture view = some (utf8 "qwen3") := by
    intro view hview
    rw [← hqwen]
    exact (architecture_iff hview).2 (by rw [hqwen]; decide)
  rw [hcopies _ (hmodel.trans hinfo), Option.some.injEq] at htext
  rw [hcopies _ hinfo, Option.some.injEq] at hotherText
  subst htext hotherText
  refine ⟨rfl, rfl, rfl, rfl, ?_, rfl, rfl, hsame.tokenArrays_eq, hsame.mergeArrays_eq, ?_, ?_, ?_⟩
  · simp only [if_pos hqwen]
  · intro kind
    simp only [BorrowedModelView.specialToken, hsame.specials]
  · exact congrArg (fun flag => flag.getD false) hsame.addBos
  · simp only [VbufMlAdapter.chatTemplate, chatTemplateC, hsame.chatTemplate_eq]

section Same

variable {source : DirectModel} {other : RemoteModel}

/-- The numbers agree exactly when the three special ids are there. -/
theorem numbers_iff (h : OneModel source other) :
    (∀ key ∈ namedKeys, source.getU32 key = other.getU32 key) ↔
      ∀ row ∈ tokenIdRows, (other.view.specialToken row.2).isSome = true := by
  constructor
  · intro hall row hrow
    obtain ⟨hdirect, hremote⟩ := @getU32_tokenId source other h.qwen row hrow
    have hnamed : row.1 ∈ namedKeys := by
      simp only [tokenIdRows, List.mem_cons, List.not_mem_nil, or_false] at hrow
      rcases hrow with rfl | rfl | rfl <;> decide
    have heq := hall row.1 hnamed
    rw [hdirect, hremote] at heq
    cases hid : other.view.specialToken row.2 with
    | none =>
        rw [hid] at heq
        cases heq
    | some id => rfl
  · intro hids key hkey
    by_cases hid : key ∈ tokenIdRows.map Prod.fst
    · obtain ⟨row, hrow, rfl⟩ := List.mem_map.1 hid
      obtain ⟨hdirect, hremote⟩ := @getU32_tokenId source other h.qwen row hrow
      obtain ⟨id, hsome⟩ := Option.isSome_iff_exists.1 (hids row hrow)
      rw [hdirect, hremote, h.special, hsome]
      rfl
    · exact getU32_eq h.qwen h.common h.rope hkey hid

/-- The flag agrees exactly when it is there. -/
theorem flags_iff (h : OneModel source other) :
    (∀ key ∈ namedKeys, source.getBool key = other.getBool key) ↔
      other.view.tokenizer.addBos.isSome = true := by
  constructor
  · intro hall
    have heq := hall "tokenizer.ggml.add_bos_token" (by decide)
    rw [DirectModel.getBool, if_pos rfl, RemoteModel.getBool, if_neg (not_not_intro rfl)] at heq
    rw [← heq]
    rfl
  · intro hflag key _
    obtain ⟨flag, hsome⟩ := Option.isSome_iff_exists.1 hflag
    by_cases hkey : key = "tokenizer.ggml.add_bos_token"
    · rw [DirectModel.getBool, if_pos hkey, RemoteModel.getBool, if_neg (not_not_intro hkey),
        h.addBos, hsome]
      rfl
    · rw [DirectModel.getBool, if_neg hkey, RemoteModel.getBool, if_pos hkey]

theorem getString_eq (h : OneModel source other) (key : String) :
    source.getString key = other.getString key := by
  rw [DirectModel.getString, RemoteModel.getString, deepseek_eq h.qwen, h.architecture, h.template]
  rfl

theorem getF32_eq (h : OneModel source other) (key : String) :
    source.getF32 key = other.getF32 key := by
  rw [DirectModel.getF32, RemoteModel.getF32, deepseek_eq h.qwen, family_eq h.qwen, h.epsilon, h.theta]
  simp only [Bool.false_eq_true, false_and, or_false]
  rfl

end Same

/-- What an opened handle of a remote source is: its tokenizer was parsed. -/
theorem parse_of_openPersistent {bytes : List UInt8} {view : BorrowedModelView}
    (h : BorrowedModelView.openPersistent bytes = .ok view) :
    parseV06 bytes = .ok view.validated ∧
      TokenizerMetadata.parse view.validated view.bootstrap = .ok view.tokenizer := by
  simp only [BorrowedModelView.openPersistent, BorrowedModelView.parseWithSources, bind_eq_ok_iff,
    ofV06, mapErr_eq_ok_iff, pure_eq_ok_iff] at h
  obtain ⟨-, -, -, -, -, -, -, -, _, -, validated, hvalidated, bootstrap, -, -, -, -, -, -, -, -, -,
    tokenizer, htokenizer, -, -, rfl⟩ := h
  exact ⟨hvalidated, htokenizer⟩

theorem sameModel_iff {bytes : List UInt8} {source : DirectModel} {other : RemoteModel}
    (hopened : BorrowedModelView.openPersistent bytes = .ok other.view)
    (hone : OneModel source other) : SameModel source other ↔ Complete other.view := by
  obtain ⟨hparse, htokenizer⟩ := parse_of_openPersistent hopened
  obtain ⟨hbytes, hwell⟩ := parseV06_eq_ok_iff.1 hparse
  rw [← hbytes] at hwell
  have hchecked := TokenizerMetadata.parse_checked htokenizer
  constructor
  · intro hall
    exact ⟨(numbers_iff hone).1 hall.numbers, (flags_iff hone).1 hall.flags,
      (token_eq_iff hchecked hwell hone.tokens).1 hall.tokens⟩
  · intro hcomplete
    exact ⟨fun key _ => getString_eq hone key, (numbers_iff hone).2 hcomplete.ids,
      fun key _ => getF32_eq hone key, (flags_iff hone).2 hcomplete.addBos,
      congrArg VbufMlTokenArrays.tokenCount hone.tokens,
      congrArg VbufMlMergeArrays.mergeCount hone.merges,
      (token_eq_iff hchecked hwell hone.tokens).2 hcomplete.types, merge_eq htokenizer hone.merges⟩

/-- Two handles that say one model and hold one tokenizer, opened from two artifacts: the
sources answer alike exactly when the tokenizer has its first, last and padding token, the flag
and the types. -/
theorem sources_agree_iff {directBytes remoteBytes : List UInt8} {direct remote : ConsumerHandle}
    {source : DirectModel} {other : RemoteModel}
    (_ : BorrowedModelView.parse directBytes = .ok direct.view)
    (hopened : BorrowedModelView.openPersistent remoteBytes = .ok remote.view)
    (hsame : SameTokenizer direct.view.tokenizer remote.view.tokenizer)
    (hmetadata : SameMetadata direct.view.metadata remote.view.metadata)
    (harchitecture : ModelMetadata.architecture remote.view.metadata = some "qwen3")
    (hdirect : DirectModel.new direct = .ok source) (hremote : RemoteModel.new remote = .ok other) :
    SameModel source other ↔ Complete remote.view := by
  obtain ⟨hview, hone⟩ := oneModel_of_new hsame hmetadata harchitecture hdirect hremote
  rw [← hview] at hopened ⊢
  exact sameModel_iff hopened hone

/-! ### One model in two artifacts -/

/-- The eleven fields of a model, each the one block of a key. -/
def qwenRegion : List UInt8 :=
  ModelMetadata.magic ++ leBytes 2 1 ++ leBytes 2 0 ++ leBytes 2 11 ++ leBytes 2 0 ++
    [⟨1, true, 20, 0⟩, ⟨2, true, 21, 0⟩, ⟨3, true, 22, 0⟩, ⟨4, true, 23, 0⟩, ⟨5, true, 24, 0⟩,
      ⟨6, false, 25, 0⟩, ⟨7, false, 26, 0⟩, ⟨8, false, 27, 0⟩, ⟨9, false, 28, 0⟩,
      ⟨10, false, 29, 0⟩, ⟨11, false, 30, 0⟩].flatMap ModelMetadata.entryBytes

/-- A call that writes one float of four bytes. -/
def floatCall (keyId : UInt16) (payload : List UInt8) : BlockWrite :=
  { TokenizerMetadata.scalarCall keyId 0 with semantic := .float, bitWidth := 32, payload }

/-- The roles of a byte-level tokenizer, and the optional ones. -/
def qwenTokenizerRegion (optional : List TokenizerEntry) : List UInt8 :=
  let roles := ([⟨1, true, 10, 0⟩, ⟨2, true, 11, 0⟩] : List TokenizerEntry) ++ optional ++
    [⟨9, true, 12, 0⟩, ⟨10, true, 13, 0⟩, ⟨11, true, 14, 0⟩, ⟨12, true, 15, 0⟩, ⟨13, true, 16, 0⟩,
      ⟨17, true, 18, 0⟩]
  TokenizerMetadata.magic ++ leBytes 2 TokenizerMetadata.version ++ leBytes 2 0 ++ leBytes 1 3 ++
    leBytes 1 0 ++ leBytes 2 roles.length ++ leBytes 4 0 ++ roles.flatMap TokenizerMetadata.entryBytes

/-- The types and three special ids. -/
def optionalRoles : List TokenizerEntry :=
  [⟨4, false, 31, 0⟩, ⟨5, false, 32, 0⟩, ⟨6, false, 33, 0⟩, ⟨8, false, 34, 0⟩]

/-- The blocks of the model and of its tokenizer. -/
def qwenBlocks (optional : List TokenizerEntry) : List BlockWrite :=
  [TensorDirectory.arrayCall 1 .opaqueBytes 8 qwenRegion.length qwenRegion,
   TensorDirectory.arrayCall 2 .opaqueBytes 8 TensorDirectory.exampleDirectory.length
     TensorDirectory.exampleDirectory,
   TensorDirectory.arrayCall 3 .opaqueBytes 8 (qwenTokenizerRegion optional).length
     (qwenTokenizerRegion optional),
   TensorDirectory.arrayCall 10 .opaqueBytes 8 4 (utf8 "abab"),
   TensorDirectory.arrayCall 11 .unsigned 64 4
     (leBytes 8 0 ++ leBytes 8 1 ++ leBytes 8 2 ++ leBytes 8 4),
   TensorDirectory.arrayCall 12 .unsigned 32 1 (leBytes 4 0),
   TensorDirectory.arrayCall 13 .unsigned 32 1 (leBytes 4 1),
   TokenizerMetadata.scalarCall 14 1,
   TokenizerMetadata.scalarCall 15 3,
   TokenizerMetadata.scalarCall 16 1,
   TokenizerMetadata.scalarCall 18 0,
   TensorDirectory.arrayCall 20 .opaqueBytes 8 5 (utf8 "qwen3"),
   TokenizerMetadata.scalarCall 21 16,
   TokenizerMetadata.scalarCall 22 8,
   TokenizerMetadata.scalarCall 23 2,
   TokenizerMetadata.scalarCall 24 2,
   TokenizerMetadata.scalarCall 25 32,
   floatCall 26 [0, 0, 0, 0x3f],
   floatCall 27 [0, 0, 128, 0x3f],
   TokenizerMetadata.scalarCall 28 1,
   TokenizerMetadata.scalarCall 29 4,
   TokenizerMetadata.scalarCall 30 4,
   TensorDirectory.arrayCall 31 .unsigned 8 3 [1, 1, 3],
   TokenizerMetadata.scalarCall 32 0,
   TokenizerMetadata.scalarCall 33 1,
   TokenizerMetadata.scalarCall 34 2]

/-- The model with its tensor. -/
def directArtifact (optional : List TokenizerEntry) : List UInt8 :=
  encodeStream 3 .knownSize
    (TensorDirectory.arrayCall 0xF000 .opaqueBytes 8 TokenizerMetadata.tokenizerBootstrap.length
        TokenizerMetadata.tokenizerBootstrap ::
      TensorDirectory.arrayCall 7 .float 32 1 [0, 0, 128, 63] :: qwenBlocks optional)

/-- A bootstrap with a source profile. -/
def profileBootstrap : List UInt8 :=
  Bootstrap.magic ++ leBytes 2 1 ++ leBytes 2 0 ++ leBytes 2 4 ++ leBytes 2 0 ++
    [⟨1, true, 2, 0⟩, ⟨2, true, 1, 0⟩, ⟨3, false, 3, 0⟩, ⟨7, false, 4, 0⟩].flatMap
      Bootstrap.entryBytes

/-- The sources of an artifact of so many bytes and of a file with its tensor. -/
def profileBytes (size : Nat) : List UInt8 :=
  ((SourceProfile.encodeProfile ⟨[.selfArtifact size, ⟨⟨1⟩, some 4, .file "t", []⟩]⟩
    [(7, 0, ⟨⟨1⟩, ⟨0, 4, fileRange_fits⟩⟩)]).toOption).getD []

/-- The model with its tensor in a file. -/
def remoteArtifactOf (optional : List TokenizerEntry) (size : Nat) : List UInt8 :=
  encodeStream 3 .knownSize
    (TensorDirectory.arrayCall 0xF000 .opaqueBytes 8 profileBootstrap.length profileBootstrap ::
      TensorDirectory.arrayCall 4 .opaqueBytes 8 (profileBytes size).length (profileBytes size) ::
      TensorDirectory.arrayCall 7 .float 32 1 [0, 0, 128, 63] ::
      qwenBlocks optional)

/-- The same, with its own size in the profile. -/
def remoteArtifact (optional : List TokenizerEntry) : List UInt8 :=
  remoteArtifactOf optional (remoteArtifactOf optional 0).length

/-- A model without experts. -/
def noExperts : ExpertInfo := ⟨0, 0, 0, 0, 0, 0, 0⟩

/-- Both artifacts open, they say and hold the same, both sources are made of them, and the
tokenizer is complete or not. -/
def Opens (optional : List TokenizerEntry) (complete : Bool) : Bool :=
  match BorrowedModelView.parse (directArtifact optional),
      BorrowedModelView.openPersistent (remoteArtifact optional) with
  | .ok direct, .ok remote =>
      decide (SameTokenizer direct.tokenizer remote.tokenizer ∧
        SameMetadata direct.metadata remote.metadata ∧
        ModelMetadata.architecture remote.metadata = some "qwen3" ∧
        (DirectModel.new ⟨direct, noExperts⟩).toOption.isSome = true ∧
        (RemoteModel.new ⟨remote, noExperts⟩).toOption.isSome = true ∧
        (Complete remote ↔ complete = true))
  | _, _ => false

/-- Two handles of one model with their sources. -/
structure SourcePair (optional : List TokenizerEntry) (direct remote : ConsumerHandle)
    (source : DirectModel) (other : RemoteModel) : Prop where
  openedDirect : BorrowedModelView.parse (directArtifact optional) = .ok direct.view
  openedRemote : BorrowedModelView.openPersistent (remoteArtifact optional) = .ok remote.view
  tokenizer : SameTokenizer direct.view.tokenizer remote.view.tokenizer
  metadata : SameMetadata direct.view.metadata remote.view.metadata
  architecture : ModelMetadata.architecture remote.view.metadata = some "qwen3"
  newDirect : DirectModel.new direct = .ok source
  newRemote : RemoteModel.new remote = .ok other

theorem exists_sourcePair {optional : List TokenizerEntry} {complete : Bool}
    (h : Opens optional complete = true) :
    ∃ direct remote source other, SourcePair optional direct remote source other ∧
      (Complete remote.view ↔ complete = true) := by
  unfold Opens at h
  split at h
  next direct remote hdirect hremote =>
      obtain ⟨htokenizer, hmetadata, harchitecture, hsource, hother, hcomplete⟩ := of_decide_eq_true h
      exact ⟨⟨direct, noExperts⟩, ⟨remote, noExperts⟩, _, _,
        ⟨hdirect, hremote, htokenizer, hmetadata, harchitecture, eq_ok_get hsource, eq_ok_get hother⟩,
        hcomplete⟩
  next => cases h

/-- With the optional roles the two sources answer alike. -/
theorem sources_agree_iff_complete :
    ∃ direct remote source other, SourcePair optionalRoles direct remote source other ∧
      SameModel source other := by
  obtain ⟨direct, remote, source, other, hpair, hcomplete⟩ :=
    exists_sourcePair (show Opens optionalRoles true = true by decide +kernel)
  exact ⟨direct, remote, source, other, hpair, (sources_agree_iff hpair.openedDirect
    hpair.openedRemote hpair.tokenizer hpair.metadata hpair.architecture hpair.newDirect
    hpair.newRemote).2 (hcomplete.2 rfl)⟩

/-- Without a first token, among others, the two sources differ. -/
theorem sources_differ :
    ¬ ∀ (directBytes remoteBytes : List UInt8) (direct remote : ConsumerHandle)
        (source : DirectModel) (other : RemoteModel),
      BorrowedModelView.parse directBytes = .ok direct.view →
      BorrowedModelView.openPersistent remoteBytes = .ok remote.view →
      SameTokenizer direct.view.tokenizer remote.view.tokenizer →
      SameMetadata direct.view.metadata remote.view.metadata →
      ModelMetadata.architecture remote.view.metadata = some "qwen3" →
      DirectModel.new direct = .ok source → RemoteModel.new remote = .ok other →
      SameModel source other := by
  intro hall
  obtain ⟨direct, remote, source, other, hpair, hcomplete⟩ :=
    exists_sourcePair (show Opens [] false = true by decide +kernel)
  have hsame := hall _ _ direct remote source other hpair.openedDirect hpair.openedRemote
    hpair.tokenizer hpair.metadata hpair.architecture hpair.newDirect hpair.newRemote
  obtain ⟨hview, hone⟩ := oneModel_of_new hpair.tokenizer hpair.metadata hpair.architecture
    hpair.newDirect hpair.newRemote
  have hopened := hpair.openedRemote
  rw [← hview] at hopened hcomplete
  cases hcomplete.1 ((sameModel_iff hopened hone).1 hsame)

end VBuf.Consumer
