import VBuf.Convert.BuildPlan
import VBuf.Convert.ParsePlan

/-!
# The two programs agree on the conversion plan

Each field that `build_plan` packs is read back by the step of `parse_plan` at
the same place, and the lists by induction, so that the parsed plan holds exactly
the planned values.
-/

namespace VBuf.Convert

open VBuf.Lib VBuf.Lib.Reader VBuf.V06 VBuf.Ml

/-- Reading back at a cursor of the host. -/
abbrev ReadsBack {α : Type} (reader : Reader String α) (piece : List UInt8) (value : α) : Prop :=
  Reads u64Bound reader piece value

theorem pack_eq_ok_iff {width : Nat} {value : Int} {piece : List UInt8} :
    pack width value = .ok piece ↔
      ∃ number : Nat, value = number ∧ number < 256 ^ width ∧ piece = leBytes width number := by
  simp only [pack, bind_eq_ok_iff, rejectIf_eq_ok_iff, pure_eq_ok_iff, not_or, not_lt, not_le]
  constructor
  · rintro ⟨_, ⟨hpos, hlt⟩, rfl⟩
    refine ⟨value.toNat, (Int.toNat_of_nonneg hpos).symm, ?_, rfl⟩
    omega
  · rintro ⟨number, rfl, hlt, rfl⟩
    exact ⟨(), ⟨by omega, by exact_mod_cast hlt⟩, rfl⟩

theorem blob_eq_ok_iff {value piece : List UInt8} :
    blob value = .ok piece ↔
      value.length < 256 ^ 8 ∧ piece = leBytes 8 value.length ++ value := by
  simp only [blob, concat_cons_eq_ok_iff, concat_nil_eq_ok_iff, pack_eq_ok_iff]
  constructor
  · rintro ⟨_, ⟨number, hnumber, hlt, rfl⟩, tail, ⟨_, hvalue, _, rfl, rfl⟩, rfl⟩
    cases hvalue
    obtain rfl := Int.ofNat.inj hnumber
    rw [List.append_nil]
    exact ⟨hlt, rfl⟩
  · rintro ⟨hlt, rfl⟩
    exact ⟨_, ⟨_, rfl, hlt, rfl⟩, value, ⟨value, rfl, [], rfl, (List.append_nil _).symm⟩, rfl⟩

section Steps

theorem reads_take (piece : List UInt8) : ReadsBack (Plan.take piece.length) piece piece := by
  intro before after hlimit
  simp only [List.length_append] at hlimit
  have hfits : ¬ u64Bound ≤ before.length + piece.length := by omega
  have hinside : ¬ (before ++ piece ++ after).length < before.length + piece.length := by
    simp only [List.length_append]
    omega
  have hslice : ((before ++ piece ++ after).drop before.length).take piece.length = piece := by
    rw [List.append_assoc, List.drop_left, List.take_left]
  rw [Plan.take, rejectIf, if_neg hfits, rejectIf, if_neg hinside, hslice, List.length_append]
  rfl

theorem reads_take_of_length {piece : List UInt8} {count : Nat} (h : piece.length = count) :
    ReadsBack (Plan.take count) piece piece := h ▸ reads_take piece

theorem reads_uintv {width number : Nat} (h : number < 256 ^ width) :
    ReadsBack (Plan.uintv width) (leBytes width number) number := by
  have hmap : ReadsBack (Plan.uintv width) (leBytes width number)
      (ofLeBytes (leBytes width number)) :=
    (reads_take_of_length (leBytes_length width number)).map
  rwa [ofLeBytes_leBytes_of_lt h] at hmap

theorem reads_boolv (value : Bool) :
    ReadsBack Plan.boolv (leBytes 1 (flag value).toNat) value := by
  have hlt : (flag value).toNat < 256 ^ 1 := by cases value <;> decide
  have hmap : ReadsBack Plan.boolv (leBytes 1 (flag value).toNat)
      (decide ((flag value).toNat ≠ 0)) := (reads_uintv hlt).map
  have hflag : decide ((flag value).toNat ≠ 0) = value := by cases value <;> rfl
  rwa [hflag] at hmap

theorem reads_blob {value : List UInt8} (h : value.length < 256 ^ 8) :
    ReadsBack Plan.blob (leBytes 8 value.length ++ value) value :=
  (reads_uintv h).bind (reads_take value)

theorem reads_readText {value : String} (h : (utf8 value).length < 256 ^ 8) :
    ReadsBack Plan.readText (leBytes 8 (utf8 value).length ++ utf8 value) value := by
  have hbind : ReadsBack Plan.readText (leBytes 8 (utf8 value).length ++ utf8 value ++ []) value :=
    (reads_blob h).bind (reads_require (fromUtf8_utf8 value))
  rwa [List.append_nil] at hbind

/-- A packed number is read back. -/
theorem reads_of_pack {width : Nat} {value : Int} {piece : List UInt8}
    (h : pack width value = .ok piece) :
    ∃ number : Nat, ReadsBack (Plan.uintv width) piece number ∧ value = number := by
  obtain ⟨number, rfl, hlt, rfl⟩ := pack_eq_ok_iff.1 h
  exact ⟨number, reads_uintv hlt, rfl⟩

theorem reads_of_pack_nat {width number : Nat} {piece : List UInt8}
    (h : pack width number = .ok piece) : ReadsBack (Plan.uintv width) piece number := by
  obtain ⟨_, hreads, hvalue⟩ := reads_of_pack h
  rwa [Int.ofNat.inj hvalue]

theorem reads_of_flag {value : Bool} {piece : List UInt8} (h : pack 1 (flag value) = .ok piece) :
    ReadsBack Plan.boolv piece value := by
  obtain ⟨number, hnumber, -, rfl⟩ := pack_eq_ok_iff.1 h
  have hreads := reads_boolv value
  rwa [hnumber, Int.toNat_natCast] at hreads

theorem reads_of_blob {value piece : List UInt8} (h : blob value = .ok piece) :
    ReadsBack Plan.blob piece value := by
  obtain ⟨hlt, rfl⟩ := blob_eq_ok_iff.1 h
  exact reads_blob hlt

theorem reads_of_text {value : String} {piece : List UInt8} (h : blob (utf8 value) = .ok piece) :
    ReadsBack Plan.readText piece value := by
  obtain ⟨hlt, rfl⟩ := blob_eq_ok_iff.1 h
  exact reads_readText hlt

/-- A list of packed numbers is read back. -/
theorem reads_of_packs {ι : Type} {width : Nat} {write : ι → Except PyError (List UInt8)}
    {number : ι → Except PyError Int} (hwrite : ∀ item, write item = number item >>= pack width)
    {items : List ι} {bytes : List UInt8} (h : concat (items.map write) = .ok bytes) :
    ∃ values : List Nat, ReadsBack (many (Plan.uintv width) items.length) bytes values ∧
      List.Forall₂ (fun item (value : Nat) => number item = .ok (value : Int)) items values := by
  refine reads_concat (fun item piece hpiece => ?_) h
  rw [hwrite, bind_eq_ok_iff] at hpiece
  obtain ⟨value, hvalue, hpack⟩ := hpiece
  obtain ⟨found, hreads, rfl⟩ := reads_of_pack hpack
  exact ⟨found, hreads, hvalue⟩

end Steps

/-- The representation that a manifest names. -/
def namedRepresentation : String → Option TensorRepresentation
  | "CanonicalPrimitive" => some .canonicalPrimitive
  | "BF16" => some .bf16
  | "GGML_Q8_0" => some .ggmlQ8_0
  | "GGML_Q4_0" => some .ggmlQ4_0
  | "GGML_Q2_K" => some .ggmlQ2_K
  | "GGML_IQ1_S" => some .ggmlIQ1_S
  | "GGML_Q4_K" => some .ggmlQ4_K
  | "GGML_IQ4_NL" => some .ggmlIQ4_NL
  | "GGML_IQ4_XS" => some .ggmlIQ4_XS
  | "GGML_Q3_K" => some .ggmlQ3_K
  | "GGML_IQ2_XXS" => some .ggmlIQ2_XXS
  | "GGML_IQ2_XS" => some .ggmlIQ2_XS
  | "GGML_IQ2_S" => some .ggmlIQ2_S
  | "GGML_Q5_K" => some .ggmlQ5_K
  | "GGML_Q6_K" => some .ggmlQ6_K
  | _ => none

section

variable {Value : Type} (python : Conversions Value)

/-- A parsed metadata entry is the planned row. -/
structure MetaPlanned (row : Nat × Value) (entry : Meta) : Prop where
  key_eq : entry.key = row.1
  required_eq : entry.required = decide (row.1 ∈ [1, 2, 3, 4, 5])
  value_eq : encodeValue python row.1 row.2 = .ok (entry.kind, entry.bytes)

/-- A parsed tensor is the planned row. -/
structure TensorPlanned (row : TensorPlan) (tensor : Tensor) : Prop where
  name_eq : tensor.name = row.targetName
  dims_eq : List.Forall₂ (fun (dimension : Int) (dim : Nat) => dimension = dim) row.sourceShape
    tensor.dims
  repr_eq : namedRepresentation row.targetRepresentation = some tensor.repr
  offset_eq : row.sourceOffset = tensor.offset
  bytes_eq : row.sourcePayloadBytes = tensor.bytes
  order_eq : row.targetOrder = tensor.order

/-- The parsed parameters of the experts are the planned ones; what the plan does
not carry has its neutral value. -/
structure MoePlanned (moe : MoeManifest Value) (parameters : MoeParameters) : Prop where
  expertCount_eq : python.int moe.expertCount = .ok (parameters.expertCount : Int)
  activeExpertCount_eq :
    python.int moe.activeExpertCount = .ok (parameters.activeExpertCount : Int)
  layerCount_eq : python.int moe.layerCount = .ok (parameters.layerCount : Int)
  sharedExpertCount_eq :
    python.int moe.sharedExpertCount = .ok (parameters.sharedExpertCount : Int)
  sharedExperts_eq : parameters.sharedExperts = python.bool moe.sharedExperts
  normalizeTopkProb_eq : parameters.normalizeTopkProb = false
  routingGroupCount_eq : parameters.routingGroupCount = 0
  routingTopkGroupCount_eq : parameters.routingTopkGroupCount = 0
  routedScalingFactorBits_eq : parameters.routedScalingFactorBits = 0x3f800000

/-- Consecutive offsets cut the text pool into the token texts. -/
structure CutsInto (text : List UInt8) (offsets : List Nat) (tokens : List String) : Prop where
  length_eq : offsets.length = tokens.length + 1
  cut : ∀ (index : Nat) (token : String), tokens[index]? = some token →
    ∃ start stop, offsets[index]? = some start ∧ offsets[index + 1]? = some stop ∧ start ≤ stop ∧
      (text.drop start).take (stop - start) = utf8 token

/-- A parsed plan holds the planned values. -/
structure Planned (size : Nat) (digest : Vector UInt8 32) (manifest : Manifest Value)
    (artifact : Artifact Value) (plan : Plan) : Prop where
  baseShift_eq : manifest.baseShift = some (plan.baseShift : Int)
  sourceSize_eq : plan.sourceSize = size
  sourceHash_eq : plan.sourceHash = digest.toList
  metadata : List.Forall₂ (MetaPlanned python) (metadataRows manifest) plan.metadata
  metadata_ordered : plan.metadata.Pairwise fun a b => a.key ≤ b.key
  tokens : ∃ tokens, artifact.tokens = some tokens ∧ plan.text = tokens.flatMap utf8 ∧
    CutsInto plan.text plan.offsets tokens
  types : ∃ tokenTypes, artifact.tokenType = some tokenTypes ∧
    List.Forall₂ (fun value (type : Nat) => python.int value = .ok (type : Int)) tokenTypes plan.types
  left : List.Forall₂ (fun value (id : Nat) => python.int value = .ok (id : Int))
    manifest.tokenizer.mergeLeftIds plan.left
  right : List.Forall₂ (fun value (id : Nat) => python.int value = .ok (id : Int))
    manifest.tokenizer.mergeRightIds plan.right
  addBos_eq : plan.addBos = python.bool manifest.tokenizer.addBos
  preTokenizer_eq : manifest.tokenizer.preTokenizerId = plan.preTokenizer
  specials : ∃ bos eos padding, artifact.bosTokenId = some bos ∧ artifact.eosTokenId = some eos ∧
    artifact.paddingTokenId = some padding ∧ ∃ bosId eosId paddingId : Nat,
      python.int bos = .ok (bosId : Int) ∧ python.int eos = .ok (eosId : Int) ∧
      python.int padding = .ok (paddingId : Int) ∧
      plan.specials = [(5, bosId), (6, eosId), (8, paddingId)]
  chat : ∃ chat, artifact.chatTemplate = some chat ∧ plan.chat = utf8 chat
  tensors : List.Forall₂ TensorPlanned (plans manifest) plan.tensors
  tensors_ordered : plan.tensors.Pairwise fun a b => a.order ≤ b.order
  moe : Option.Rel (MoePlanned python) manifest.moePlan plan.moe

end

section Rows

variable {Value : Type} {python : Conversions Value}

theorem reads_writeMetadata {row : Nat × Value} {piece : List UInt8}
    (h : writeMetadata python row = .ok piece) :
    ∃ entry, ReadsBack Plan.readMeta piece entry ∧ MetaPlanned python row entry := by
  rw [writeMetadata, bind_eq_ok_iff] at h
  obtain ⟨⟨kind, bytes⟩, hvalue, h⟩ := h
  simp only [concat_cons_eq_ok_iff, concat_nil_eq_ok_iff] at h
  obtain ⟨key, hkey, _, ⟨required, hrequired, _, ⟨kinds, hkind, _, ⟨value, hblob, _, rfl, rfl⟩,
    rfl⟩, rfl⟩, rfl⟩ := h
  rw [List.append_nil]
  refine ⟨⟨row.1, decide (row.1 ∈ [1, 2, 3, 4, 5]), kind, bytes⟩, ?_, rfl, rfl, hvalue⟩
  refine (reads_of_pack_nat hkey).bind ?_
  refine (reads_of_flag hrequired).bind ?_
  refine (reads_of_pack_nat hkind).bind ?_
  exact (reads_of_blob hblob).map

theorem reads_writeSpecial {special : Nat × Value} {piece : List UInt8}
    (h : writeSpecial python special = .ok piece) :
    ∃ entry, ReadsBack Plan.readSpecial piece entry ∧
      entry.1 = special.1 ∧ python.int special.2 = .ok (entry.2 : Int) := by
  simp only [writeSpecial, concat_cons_eq_ok_iff, concat_nil_eq_ok_iff] at h
  obtain ⟨role, hrole, _, ⟨value, hvalue, _, rfl, rfl⟩, rfl⟩ := h
  rw [packInt, bind_eq_ok_iff] at hvalue
  obtain ⟨number, hnumber, hpack⟩ := hvalue
  obtain ⟨found, hfound, rfl⟩ := reads_of_pack hpack
  rw [List.append_nil]
  exact ⟨(special.1, found), (reads_of_pack_nat hrole).bind hfound.map, rfl, hnumber⟩

/-- The tables of both programs name one representation. -/
theorem representation_of_representations {name : String} {code : Nat}
    (h : representations name = some code) :
    ∃ repr, Plan.representation code = some repr ∧ namedRepresentation name = some repr := by
  unfold representations at h
  split at h <;> cases h <;> exact ⟨_, rfl, rfl⟩

theorem reads_writeTensor {row : TensorPlan} {piece : List UInt8}
    (h : writeTensor row = .ok piece) :
    ∃ tensor, ReadsBack Plan.readTensor piece tensor ∧ TensorPlanned row tensor := by
  rw [writeTensor, bind_eq_ok_iff] at h
  obtain ⟨code, hcode, h⟩ := h
  simp only [concat_cons_eq_ok_iff, concat_nil_eq_ok_iff] at h
  obtain ⟨name, hname, _, ⟨rank, hrank, _, ⟨shape, hshape, _, ⟨packed, hpacked, _, ⟨offset,
    hoffset, _, ⟨bytes, hbytes, _, ⟨order, horder, _, rfl, rfl⟩, rfl⟩, rfl⟩, rfl⟩, rfl⟩, rfl⟩,
    rfl⟩ := h
  obtain ⟨repr, hrepr, hnamed⟩ := representation_of_representations (okOr_eq_ok_iff.1 hcode)
  have hwrite : ∀ dimension : Int, pack 8 dimension = (Except.ok dimension >>= pack 8) :=
    fun _ => rfl
  obtain ⟨dims, hdims, hplanned⟩ := reads_of_packs hwrite hshape
  obtain ⟨start, hstart, hstart_eq⟩ := reads_of_pack hoffset
  obtain ⟨size, hsize, hsize_eq⟩ := reads_of_pack hbytes
  obtain ⟨place, hplace, hplace_eq⟩ := reads_of_pack horder
  rw [List.append_nil]
  refine ⟨⟨row.targetName, dims, repr, start, size, place⟩, ?_, rfl, ?_, hnamed, hstart_eq,
    hsize_eq, hplace_eq⟩
  · refine (reads_of_text hname).bind ?_
    refine (reads_of_pack_nat hrank).bind ?_
    refine hdims.bind ?_
    refine (reads_of_pack_nat hpacked).bind ?_
    refine Reads.require_bind hrepr ?_
    refine hstart.bind ?_
    refine hsize.bind ?_
    exact hplace.map
  · exact hplanned.imp fun _ _ heq => Except.ok.inj heq

theorem reads_writeMoe {moe : Option (MoeManifest Value)} {piece : List UInt8}
    (h : writeMoe python moe = .ok piece) :
    ∃ parameters, ReadsBack Plan.readMoe piece parameters ∧
      Option.Rel (MoePlanned python) moe parameters := by
  cases moe with
  | none =>
      refine ⟨none, ?_, .none⟩
      have hreads : ReadsBack Plan.readMoe (piece ++ []) none :=
        (@reads_of_flag false _ h).bind (reads_pure none)
      rwa [List.append_nil] at hreads
  | some moe =>
      simp only [writeMoe, packInt, concat_cons_eq_ok_iff, concat_nil_eq_ok_iff,
        bind_eq_ok_iff] at h
      obtain ⟨present, hpresent, _, ⟨experts, ⟨_, hexperts, hexpert⟩, _, ⟨active, ⟨_, hactives,
        hactive⟩, _, ⟨layers, ⟨_, hlayers, hlayer⟩, _, ⟨shared, ⟨_, hshareds, hshared⟩, _,
        ⟨flagged, hflag, _, rfl, rfl⟩, rfl⟩, rfl⟩, rfl⟩, rfl⟩, rfl⟩ := h
      obtain ⟨expertCount, hexpertCount, rfl⟩ := reads_of_pack hexpert
      obtain ⟨activeExpertCount, hactiveCount, rfl⟩ := reads_of_pack hactive
      obtain ⟨layerCount, hlayerCount, rfl⟩ := reads_of_pack hlayer
      obtain ⟨sharedExpertCount, hsharedCount, rfl⟩ := reads_of_pack hshared
      rw [List.append_nil]
      refine ⟨some ⟨expertCount, activeExpertCount, layerCount, python.bool moe.sharedExperts,
        sharedExpertCount, false, 0, 0, 0x3f800000⟩, ?_,
        .some ⟨hexperts, hactives, hlayers, hshareds, rfl, rfl, rfl, rfl, rfl⟩⟩
      refine (@reads_of_flag true _ hpresent).bind ?_
      refine @Reads.map String MoeParameters _ _ _ _ _ some ?_
      refine hexpertCount.bind ?_
      refine hactiveCount.bind ?_
      refine hlayerCount.bind ?_
      refine hsharedCount.bind ?_
      exact (reads_of_flag hflag).map

/-- The offsets of the tokens behind `before` cut the pool there. -/
theorem cut_tokenOffsets (tokens : List String) (before : List UInt8) :
    ∀ (index : Nat) (token : String), tokens[index]? = some token →
      ∃ start stop,
        (tokens.scanl (fun offset token => offset + (utf8 token).length) before.length)[index]? =
          some start ∧
        (tokens.scanl (fun offset token => offset + (utf8 token).length)
          before.length)[index + 1]? = some stop ∧
        start ≤ stop ∧
        ((before ++ tokens.flatMap utf8).drop start).take (stop - start) = utf8 token := by
  induction tokens generalizing before with
  | nil =>
      intro index token h
      cases h
  | cons first rest ih =>
      intro index token h
      have hlength : (before ++ utf8 first).length = before.length + (utf8 first).length :=
        List.length_append
      have hpool : before ++ (first :: rest).flatMap utf8 =
          before ++ utf8 first ++ rest.flatMap utf8 := by
        rw [List.flatMap_cons, List.append_assoc]
      -- What was before the rest is the old pool and the first token.
      rw [List.scanl_cons, hpool, ← hlength]
      cases index with
      | zero =>
          cases h
          refine ⟨before.length, (before ++ utf8 first).length, rfl, ?_, by omega, ?_⟩
          · rw [List.getElem?_cons_succ, List.getElem?_scanl_zero]
          · rw [List.append_assoc, List.drop_left, hlength, Nat.add_sub_cancel_left,
              List.take_left]
      | succ index => exact ih _ index token h

theorem cutsInto_tokenOffsets (tokens : List String) :
    CutsInto (tokens.flatMap utf8) (tokenOffsets tokens) tokens where
  length_eq := List.length_scanl
  cut := cut_tokenOffsets tokens []

theorem hexValue_hexDigit : ∀ value < 16,
    hexValue (hexDigit value) = some value ∧ isBlank (hexDigit value) = false := by
  decide

/-- `fromhex` inverts `hexdigest`. -/
theorem fromhex_hexdigest (digest : List UInt8) : fromhex (hexdigest digest) = .ok digest := by
  have hchars : fromhexChars (digest.flatMap fun byte =>
      [hexDigit (byte.toNat / 16), hexDigit (byte.toNat % 16)]) = some digest := by
    induction digest with
    | nil => rfl
    | cons byte rest ih =>
        have hbyte := byte.toNat_lt
        obtain ⟨hhigh, hblank⟩ := hexValue_hexDigit (byte.toNat / 16) (by omega)
        obtain ⟨hlow, -⟩ := hexValue_hexDigit (byte.toNat % 16) (by omega)
        have hvalue : UInt8.ofNat (16 * (byte.toNat / 16) + byte.toNat % 16) = byte := by
          rw [Nat.div_add_mod, UInt8.ofNat_toNat]
        rw [List.flatMap_cons, List.cons_append, List.cons_append, List.nil_append,
          fromhexChars, hblank, if_neg Bool.false_ne_true, hhigh, hlow, ih]
        exact congrArg (fun first => some (first :: rest)) hvalue
  rw [fromhex, hexdigest, String.toList_ofList, hchars]
  rfl

/-- The three special tokens that were read for the three of the artifact. -/
theorem specials_of_forall₂ {bos eos padding : Value} {specials : List (Nat × Nat)}
    (h : List.Forall₂ (fun (special : Nat × Value) (entry : Nat × Nat) =>
      entry.1 = special.1 ∧ python.int special.2 = .ok (entry.2 : Int))
      (specialRoles.zip [bos, eos, padding]) specials) :
    ∃ bosId eosId paddingId : Nat,
      python.int bos = .ok (bosId : Int) ∧ python.int eos = .ok (eosId : Int) ∧
      python.int padding = .ok (paddingId : Int) ∧
      specials = [(5, bosId), (6, eosId), (8, paddingId)] := by
  have hzip : specialRoles.zip [bos, eos, padding] = [(5, bos), (6, eos), (8, padding)] := rfl
  rw [hzip] at h
  simp only [List.forall₂_cons_left_iff, List.forall₂_nil_left_iff] at h
  obtain ⟨⟨_, bosId⟩, _, ⟨rfl, hbos⟩, ⟨⟨_, eosId⟩, _, ⟨rfl, heos⟩, ⟨⟨_, paddingId⟩, _,
    ⟨rfl, hpadding⟩, rfl, rfl⟩, rfl⟩, rfl⟩ := h
  exact ⟨bosId, eosId, paddingId, hbos, heos, hpadding, rfl⟩

/-- A plan whose fields are read to the end of the bytes is parsed. -/
theorem parsePlan_of_reads {bytes : List UInt8} {plan : Plan}
    (h : ReadsBack Plan.fields bytes plan) (hlength : bytes.length ≤ maxSize) :
    parsePlan bytes = .ok plan := by
  have hrun := h.run (hlength.trans_lt (by decide))
  rw [parsePlan, hrun]
  show (rejectIf (bytes.length ≠ bytes.length) _ >>= fun _ => pure plan) = _
  rw [rejectIf, if_neg (not_not.2 rfl)]
  rfl

/-- Whatever plan the orchestrator builds, the converter accepts it and reads the
planned values. -/
theorem parsePlan_buildPlan {size : Nat} {digest : Vector UInt8 32} {manifest : Manifest Value}
    {artifact : Artifact Value} {integrity : String} {bytes : List UInt8}
    (h : buildPlan python size digest manifest artifact integrity = .ok bytes) :
    ∃ plan, parsePlan bytes = .ok plan ∧ Planned python size digest manifest artifact plan := by
  simp only [buildPlan, bind_eq_ok_iff, okOr_eq_ok_iff, rejectIf_eq_ok_iff, pure_eq_ok_iff] at h
  obtain ⟨_, hpolicy, _, -, _, -, tokens, htokens, tokenTypes, htypes, merges, -, _, hcounts,
    baseShift, hbase, hash, hhash, bos, hbos, eos, heos, padding, hpadding, chat, hchat, out, hout,
    _, hsize, rfl⟩ := h
  simp only [checkPolicy, bind_eq_ok_iff, rejectIf_eq_ok_iff, not_or, not_not] at hpolicy
  have hdigest : hash = digest.toList := by
    rw [hpolicy.choose_spec.1.2, fromhex_hexdigest] at hhash
    exact (Except.ok.inj hhash).symm
  subst hdigest
  simp only [not_or, not_not] at hcounts
  obtain ⟨-, -, hmerges⟩ := hcounts
  -- Each piece of the output, with what the reader at its place makes of it.
  obtain ⟨magic, hmagic, _, hrest1, rfl⟩ := concat_cons_eq_ok_iff.1 hout
  cases hmagic
  obtain ⟨version, hversion, _, hrest2, rfl⟩ := concat_cons_eq_ok_iff.1 hrest1
  obtain ⟨shift, hshift, _, hrest3, rfl⟩ := concat_cons_eq_ok_iff.1 hrest2
  obtain ⟨shiftValue, hshiftRead, rfl⟩ := reads_of_pack hshift
  obtain ⟨flags, hflags, _, hrest4, rfl⟩ := concat_cons_eq_ok_iff.1 hrest3
  obtain ⟨reserved, hreserved, _, hrest5, rfl⟩ := concat_cons_eq_ok_iff.1 hrest4
  obtain ⟨sizes, hsizes, _, hrest6, rfl⟩ := concat_cons_eq_ok_iff.1 hrest5
  obtain ⟨hashes, hhashes, _, hrest7, rfl⟩ := concat_cons_eq_ok_iff.1 hrest6
  cases hhashes
  obtain ⟨metaCount, hmetaCount, _, hrest8, rfl⟩ := concat_cons_eq_ok_iff.1 hrest7
  obtain ⟨metas, hmetas, _, hrest9, rfl⟩ := concat_cons_eq_ok_iff.1 hrest8
  obtain ⟨metadata, hmetadata, hmetaPlanned⟩ :=
    reads_concat (fun _ _ hrow => reads_writeMetadata hrow) hmetas
  obtain ⟨pool, hpool, _, hrest10, rfl⟩ := concat_cons_eq_ok_iff.1 hrest9
  obtain ⟨offsetCount, hoffsetCount, _, hrest11, rfl⟩ := concat_cons_eq_ok_iff.1 hrest10
  obtain ⟨offsets, hoffsets, _, hrest12, rfl⟩ := concat_cons_eq_ok_iff.1 hrest11
  have hwrite : ∀ offset : Nat, pack 8 offset = (Except.ok (offset : Int) >>= pack 8) :=
    fun _ => rfl
  obtain ⟨offsetValues, hoffsetsRead, hoffsetValues⟩ := reads_of_packs hwrite hoffsets
  obtain ⟨typeCount, htypeCount, _, hrest13, rfl⟩ := concat_cons_eq_ok_iff.1 hrest12
  obtain ⟨typePieces, htypePieces, _, hrest14, rfl⟩ := concat_cons_eq_ok_iff.1 hrest13
  obtain ⟨types, htypeValues, htypePlanned⟩ := reads_of_packs (fun _ => rfl) htypePieces
  obtain ⟨mergeCount, hmergeCount, _, hrest15, rfl⟩ := concat_cons_eq_ok_iff.1 hrest14
  obtain ⟨lefts, hlefts, _, hrest16, rfl⟩ := concat_cons_eq_ok_iff.1 hrest15
  obtain ⟨left, hleft, hleftPlanned⟩ := reads_of_packs (fun _ => rfl) hlefts
  obtain ⟨rights, hrights, _, hrest17, rfl⟩ := concat_cons_eq_ok_iff.1 hrest16
  obtain ⟨right, hright, hrightPlanned⟩ := reads_of_packs (fun _ => rfl) hrights
  obtain ⟨bosFlag, hbosFlag, _, hrest18, rfl⟩ := concat_cons_eq_ok_iff.1 hrest17
  obtain ⟨pre, hpre, _, hrest19, rfl⟩ := concat_cons_eq_ok_iff.1 hrest18
  obtain ⟨preValue, hpreRead, hpreValue⟩ := reads_of_pack hpre
  obtain ⟨specialCount, hspecialCount, _, hrest20, rfl⟩ := concat_cons_eq_ok_iff.1 hrest19
  obtain ⟨specialPieces, hspecialPieces, _, hrest21, rfl⟩ := concat_cons_eq_ok_iff.1 hrest20
  obtain ⟨specials, hspecials, hspecialPlanned⟩ :=
    reads_concat (fun _ _ hspecial => reads_writeSpecial hspecial) hspecialPieces
  obtain ⟨chats, hchats, _, hrest22, rfl⟩ := concat_cons_eq_ok_iff.1 hrest21
  obtain ⟨tensorCount, htensorCount, _, hrest23, rfl⟩ := concat_cons_eq_ok_iff.1 hrest22
  obtain ⟨tensorPieces, htensorPieces, _, hrest24, rfl⟩ := concat_cons_eq_ok_iff.1 hrest23
  obtain ⟨tensors, htensors, htensorPlanned⟩ :=
    reads_concat (fun _ _ hrow => reads_writeTensor hrow) htensorPieces
  obtain ⟨moes, hmoes, _, hrest25, rfl⟩ := concat_cons_eq_ok_iff.1 hrest24
  obtain ⟨moe, hmoe, hmoePlanned⟩ := reads_writeMoe hmoes
  obtain rfl := concat_nil_eq_ok_iff.1 hrest25
  refine ⟨⟨shiftValue, size, digest.toList, metadata, tokens.flatMap utf8, offsetValues, types, left,
    right, python.bool manifest.tokenizer.addBos, preValue, specials, utf8 chat, tensors, moe⟩,
    parsePlan_of_reads ?_ (not_lt.1 hsize), ?_⟩
  · rw [List.append_nil]
    refine (reads_take_of_length rfl).bind ?_
    refine Reads.check_bind (not_not.2 rfl) ?_
    refine (reads_of_pack_nat hversion).bind ?_
    refine Reads.check_bind (not_not.2 rfl) ?_
    refine hshiftRead.bind ?_
    refine (reads_of_pack_nat hflags).bind ?_
    refine Reads.check_bind (not_not.2 rfl) ?_
    refine (reads_of_pack_nat hreserved).bind ?_
    refine Reads.check_bind (not_not.2 rfl) ?_
    refine (reads_of_pack_nat hsizes).bind ?_
    refine (reads_take_of_length digest.size_toArray).bind ?_
    refine (reads_of_pack_nat hmetaCount).bind ?_
    refine hmetadata.bind ?_
    refine (reads_of_blob hpool).bind ?_
    refine (reads_of_pack_nat hoffsetCount).bind ?_
    refine hoffsetsRead.bind ?_
    refine (reads_of_pack_nat htypeCount).bind ?_
    refine htypeValues.bind ?_
    refine (reads_of_pack_nat hmergeCount).bind ?_
    refine hleft.bind ?_
    refine (hmerges ▸ hright).bind ?_
    refine (reads_of_flag hbosFlag).bind ?_
    refine hpreRead.bind ?_
    refine (reads_of_pack_nat hspecialCount).bind ?_
    refine hspecials.bind ?_
    refine (reads_of_blob hchats).bind ?_
    refine (reads_of_pack_nat htensorCount).bind ?_
    refine htensors.bind ?_
    exact hmoe.map
  · -- The offsets were read one by one; as a list they are the planned ones.
    have hoffsetEq : offsetValues = tokenOffsets tokens := by
      have hvalues : List.Forall₂ (fun (offset value : Nat) => offset = value)
          (tokenOffsets tokens) offsetValues :=
        hoffsetValues.imp fun _ _ heq => Int.ofNat.inj (Except.ok.inj heq)
      exact (List.forall₂_eq_eq_eq ▸ hvalues).symm
    exact
      { baseShift_eq := hbase
        sourceSize_eq := rfl
        sourceHash_eq := rfl
        metadata := hmetaPlanned
        metadata_ordered := pairwise_of_forall₂ hmetaPlanned.flip (List.pairwise_insertionSort _ _)
          fun a b c d hac hbd hcd => by rw [hac.key_eq, hbd.key_eq]; exact hcd
        tokens := ⟨tokens, htokens, rfl, hoffsetEq ▸ cutsInto_tokenOffsets tokens⟩
        types := ⟨tokenTypes, htypes, htypePlanned⟩
        left := hleftPlanned
        right := hrightPlanned
        addBos_eq := rfl
        preTokenizer_eq := hpreValue
        specials := ⟨bos, eos, padding, hbos, heos, hpadding, specials_of_forall₂ hspecialPlanned⟩
        chat := ⟨chat, hchat, rfl⟩
        tensors := htensorPlanned
        tensors_ordered := pairwise_of_forall₂ htensorPlanned.flip
          (List.pairwise_insertionSort _ _) fun a b c d hac hbd hcd => by
            have hle : c.targetOrder ≤ d.targetOrder := hcd
            rw [hac.order_eq, hbd.order_eq] at hle
            exact_mod_cast hle
        moe := hmoePlanned }

end Rows

/-- The conversions of texts and integers; a text is no number. -/
def exampleConversions : Conversions (String ⊕ Int) where
  int
    | .inl _ => .error (.valueError "invalid literal for int() with base 10")
    | .inr number => .ok number
  float
    | .inl _ => .error (.valueError "could not convert string to float")
    | .inr _ => .error (.conversion "not part of the example")
  str
    | .inl text => .ok text
    | .inr number => .ok (toString number)
  bool
    | .inl text => text ≠ ""
    | .inr number => number ≠ 0

/-- The SHA-256 digest of an empty file. -/
def emptyDigest : Vector UInt8 32 :=
  #v[0xe3, 0xb0, 0xc4, 0x42, 0x98, 0xfc, 0x1c, 0x14, 0x9a, 0xfb, 0xf4, 0xc8, 0x99, 0x6f, 0xb9, 0x24,
    0x27, 0xae, 0x41, 0xe4, 0x64, 0x9b, 0x93, 0x4c, 0xa4, 0x95, 0x99, 0x1b, 0x78, 0x52, 0xb8, 0x55]

/-- A manifest with one tensor, two metadata rows and experts. -/
def exampleManifest : Manifest (String ⊕ Int) where
  identitySize := 0
  identitySha256 := "e3b0c44298fc1c149afbf4c8996fb92427ae41e4649b934ca495991b7852b855"
  profileVersion := "vbuf-ml-0.1"
  consumerCommit := pinnedCommit
  conversionReadiness := ["READY_FOR_CONVERSION"]
  placement := "LAYER_MAJOR_ROLE_ORDER"
  baseShift := some 6
  tensorPlans := [⟨"a", "a", 0, 8, [4], 0x0200, 0, 0, "COPY_BYTES", "BF16"⟩]
  tokenizer := ⟨"Gpt2BpeQwen2", 1, 2, [.inr 0], [.inr 1], .inr 1⟩
  modelMetadata := [⟨"ContextLength", .inr 64⟩, ⟨"Architecture", .inl "qwen2"⟩]
  moePlan := some ⟨.inr 8, .inr 2, .inr 1, .inr 0, .inr 0⟩

/-- An artifact of three tokens and one merge. -/
def exampleArtifact : Artifact (String ⊕ Int) where
  tensors := [⟨"a", 0, some 8⟩]
  tokens := some ["a", "b", "ab"]
  tokenType := some [.inr 1, .inr 1, .inr 1]
  merges := some ["a b"]
  bosTokenId := some (.inr 0)
  eosTokenId := some (.inr 1)
  paddingTokenId := some (.inr 1)
  chatTemplate := some "t"

/-- The plan of the example. -/
def examplePlan : List UInt8 :=
  (buildPlan exampleConversions 0 emptyDigest exampleManifest exampleArtifact
    "none").toOption.getD []

theorem buildPlan_example :
    buildPlan exampleConversions 0 emptyDigest exampleManifest exampleArtifact "none" =
      .ok examplePlan := by
  decide +kernel

/-- The agreement at the example. -/
theorem parsePlan_buildPlan_example :
    ∃ plan, parsePlan examplePlan = .ok plan ∧
      Planned exampleConversions 0 emptyDigest exampleManifest exampleArtifact plan :=
  parsePlan_buildPlan buildPlan_example

end VBuf.Convert
