import VBuf.Compat.JsonValue

/-!
# Server-sent events of a generation

The `on_token` callback decodes and escapes one token at a time and writes it as an
event of its own.  The events carry the decoded text exactly when no token ends inside
of a character.
-/

namespace VBuf.Compat

open VBuf.Lib VBuf.Tokenizer

/-! ### The callback -/

/-- `request_id`. -/
def requestId (next : Nat) : List UInt8 := utf8 "chatcmpl-vbuf-" ++ utf8 (toString next)

/-- What a request fixes for its events: its number and the alias of the model. -/
structure StreamConfig where
  request : Nat
  modelAlias : List UInt8

/-- The bytes of an event in front of its delta; the clock is read for each event. -/
def eventHead (config : StreamConfig) (seconds : UInt64) : List UInt8 :=
  utf8 "data: \x7b\"id\":\"" ++ requestId config.request ++
    utf8 "\",\"object\":\"chat.completion.chunk\",\"created\":" ++ utf8 (toString seconds.toNat) ++
    utf8 ",\"model\":\"" ++ jsonEscape config.modelAlias ++
    utf8 "\",\"choices\":[\x7b\"index\":0,\"delta\":\x7b"

/-- The bytes of an event behind its delta. -/
def eventTail : List UInt8 := utf8 "\x7d,\"finish_reason\":null\x7d]\x7d\n\n"

/-- The event that comes before the first token. -/
def roleEvent (config : StreamConfig) (seconds : UInt64) : List UInt8 :=
  eventHead config seconds ++ utf8 "\"role\":\"assistant\",\"content\":\"\"" ++ eventTail

/-- The event of a token. -/
def contentEvent (config : StreamConfig) (seconds : UInt64) (piece : List UInt8) : List UInt8 :=
  eventHead config seconds ++ utf8 "\"content\":\"" ++ jsonEscape piece ++ utf8 "\"" ++ eventTail

/-- A call of `on_token`: the token, and the times that are read for its events. -/
structure TokenCall where
  token : UInt32
  roleSeconds : UInt64
  seconds : UInt64

/-- The state that the callback captures: `first_stream_chunk`, `output`, and what was sent. -/
structure StreamState where
  firstStreamChunk : Bool
  output : List UInt8
  sent : List UInt8

variable (tokenizer : VbufTokenizer) (config : StreamConfig)

/-- `decode_token`. -/
def decodeToken (token : UInt32) : List UInt8 := tokenizer.decode [token]

/-- `on_token`, on a connection that takes the chunk. -/
def onToken (stream : Bool) (state : StreamState) (call : TokenCall) : StreamState :=
  let piece := decodeToken tokenizer call.token
  let output := state.output ++ piece
  if stream = false then { state with output }
  else
    let chunk :=
      (if state.firstStreamChunk = true then roleEvent config call.roleSeconds else []) ++
        contentEvent config call.seconds piece
    { firstStreamChunk := false, output, sent := state.sent ++ chunk }

/-- A generation, token by token. -/
def runTokens (stream : Bool) (calls : List TokenCall) : StreamState :=
  calls.foldl (onToken tokenizer config stream) ⟨true, [], []⟩

/-! ### What a client reads -/

/-- The event of a JSON value. -/
def eventOf (value : JsonValue) : List UInt8 := utf8 "data: " ++ value.bytes ++ utf8 "\n\n"

/-- The content of the delta of the first choice. -/
def deltaContent (value : JsonValue) : Option (List UInt8) := do
  let choices ← value.member? "choices"
  let choice ← choices.item? 0
  let delta ← choice.member? "delta"
  let content ← delta.member? "content"
  content.text?

/-- The bytes are UTF-8 and the events of JSON values, whose contents together are the text. -/
def Streams (sent text : List UInt8) : Prop :=
  IsUtf8 sent ∧ ∃ values contents, sent = values.flatMap eventOf ∧
    List.Forall₂ (fun value content => deltaContent value = some content) values contents ∧
    contents.flatten = text

/-! ### Events as values -/

/-- The name of a member. -/
def key (name : String) : List LiteralChar := escapeChars name.toList

/-- The value of an event. -/
def chunkValue (config : StreamConfig) (model : List Char) (seconds : UInt64)
    (delta : List (List LiteralChar × JsonValue)) : JsonValue :=
  .object
    [(key "id", .string (key ("chatcmpl-vbuf-" ++ toString config.request))),
      (key "object", .string (key "chat.completion.chunk")),
      (key "created", .number seconds.toNat),
      (key "model", .string (escapeChars model)),
      (key "choices", .array
        [.object [(key "index", .number 0), (key "delta", .object delta),
          (key "finish_reason", .null)]])]

/-- The value of the event of a token. -/
def contentValue (config : StreamConfig) (model chars : List Char) (seconds : UInt64) : JsonValue :=
  chunkValue config model seconds [(key "content", .string (escapeChars chars))]

/-- The value of the first event. -/
def roleValue (config : StreamConfig) (model : List Char) (seconds : UInt64) : JsonValue :=
  chunkValue config model seconds
    [(key "role", .string (key "assistant")), (key "content", .string [])]

theorem key_bytes (name : String) :
    (key name).flatMap LiteralChar.bytes = jsonEscape (utf8 name) := by
  rw [key, escapeChars_bytes, utf8_eq_flatMap]

theorem deltaContent_content (config : StreamConfig) (model chars : List Char) (seconds : UInt64) :
    deltaContent (contentValue config model chars seconds) =
      some (chars.flatMap String.utf8EncodeChar) := by
  have htext : (JsonValue.string (escapeChars chars)).text? =
      some (chars.flatMap String.utf8EncodeChar) := by
    rw [JsonValue.text?, escapeChars_meaning]
  exact htext

theorem deltaContent_role (config : StreamConfig) (model : List Char) (seconds : UInt64) :
    deltaContent (roleValue config model seconds) = some [] := rfl

theorem utf8_append (s t : String) : utf8 (s ++ t) = utf8 s ++ utf8 t := by
  rw [utf8_eq_flatMap, utf8_eq_flatMap, utf8_eq_flatMap, String.toList_append,
    List.flatMap_append]

/-- Digits need no escape. -/
theorem jsonEscape_digits (value : Nat) :
    jsonEscape (utf8 (toString value)) = utf8 (toString value) := by
  have hdigit : ∀ c ∈ (toString value).toList, c.isDigit = true := by
    intro c hc
    rw [Nat.toString_eq_ofList_toDigits, String.toList_ofList] at hc
    exact Nat.isDigit_of_mem_toDigits (by decide) (by decide) hc
  have hsame : ∀ c : Char, c.isDigit = true → (String.utf8EncodeChar c).flatMap escapeByte =
      String.utf8EncodeChar c := by
    intro c hc
    have hall : ∀ n < 0x80, (Char.ofNat n).isDigit = true →
        (String.utf8EncodeChar (Char.ofNat n)).flatMap escapeByte =
          String.utf8EncodeChar (Char.ofNat n) := by decide
    have hlt : c.toNat < 0x80 := by
      rw [Char.isDigit, Bool.and_eq_true, decide_eq_true_eq, decide_eq_true_eq] at hc
      exact Nat.lt_of_le_of_lt (UInt32.le_iff_toNat_le.1 hc.2) (by decide)
    have hchar := hall c.toNat hlt
    rw [Char.ofNat_toNat] at hchar
    exact hchar hc
  rw [utf8_eq_flatMap, jsonEscape, List.flatMap_assoc]
  exact List.flatMap_congr fun c hc => hsame c (hdigit c hc)

theorem requestId_plain (next : Nat) :
    jsonEscape (utf8 ("chatcmpl-vbuf-" ++ toString next)) = requestId next := by
  have hfixed : jsonEscape (utf8 "chatcmpl-vbuf-") = utf8 "chatcmpl-vbuf-" := by decide
  rw [utf8_append, jsonEscape, List.flatMap_append, requestId]
  exact congrArg₂ (· ++ ·) hfixed (jsonEscape_digits next)

/-- An event around the members of its delta. -/
theorem eventOf_chunk (config : StreamConfig) (model : List Char) (seconds : UInt64)
    (delta : List (List LiteralChar × JsonValue))
    (hmodel : config.modelAlias = model.flatMap String.utf8EncodeChar) :
    eventOf (chunkValue config model seconds delta) =
      eventHead config seconds ++ (JsonValue.membersBytes delta ++ eventTail) := by
  -- every literal of the event, as the keys and the punctuation of the value
  have hid : utf8 "data: " ++ 0x7b :: 0x22 :: (jsonEscape (utf8 "id") ++ [0x22, 0x3a, 0x22]) =
      utf8 "data: \x7b\"id\":\"" := by decide
  have hobject : 0x22 :: 0x2c :: 0x22 :: (jsonEscape (utf8 "object") ++ 0x22 :: 0x3a :: 0x22 ::
      (jsonEscape (utf8 "chat.completion.chunk") ++ 0x22 :: 0x2c :: 0x22 ::
        (jsonEscape (utf8 "created") ++ [0x22, 0x3a]))) =
      utf8 "\",\"object\":\"chat.completion.chunk\",\"created\":" := by decide
  have hname : 0x2c :: 0x22 :: (jsonEscape (utf8 "model") ++ [0x22, 0x3a, 0x22]) =
      utf8 ",\"model\":\"" := by decide
  have hchoices : 0x22 :: 0x2c :: 0x22 :: (jsonEscape (utf8 "choices") ++ 0x22 :: 0x3a :: 0x5b ::
      0x7b :: 0x22 :: (jsonEscape (utf8 "index") ++ 0x22 :: 0x3a :: (utf8 (toString 0) ++
        0x2c :: 0x22 :: (jsonEscape (utf8 "delta") ++ [0x22, 0x3a, 0x7b])))) =
      utf8 "\",\"choices\":[\x7b\"index\":0,\"delta\":\x7b" := by decide
  have htail : 0x7d :: 0x2c :: 0x22 :: (jsonEscape (utf8 "finish_reason") ++ 0x22 :: 0x3a ::
      (utf8 "null" ++ 0x7d :: 0x5d :: 0x7d :: utf8 "\n\n")) = eventTail := by decide
  have halias : eventHead config seconds = utf8 "data: \x7b\"id\":\"" ++ requestId config.request ++
      utf8 "\",\"object\":\"chat.completion.chunk\",\"created\":" ++
      utf8 (toString seconds.toNat) ++ utf8 ",\"model\":\"" ++
      jsonEscape (model.flatMap String.utf8EncodeChar) ++
      utf8 "\",\"choices\":[\x7b\"index\":0,\"delta\":\x7b" := by rw [eventHead, hmodel]
  rw [halias, ← hid, ← hobject, ← hname, ← hchoices, ← htail]
  unfold eventOf chunkValue
  simp only [JsonValue.bytes, JsonValue.membersBytes, JsonValue.itemsBytes, key_bytes,
    escapeChars_bytes, requestId_plain, quoted, List.append_assoc, List.cons_append,
    List.nil_append]

theorem eventOf_content (config : StreamConfig) (model chars : List Char) (seconds : UInt64)
    (hmodel : config.modelAlias = model.flatMap String.utf8EncodeChar) :
    eventOf (contentValue config model chars seconds) =
      contentEvent config seconds (chars.flatMap String.utf8EncodeChar) := by
  have hkey : 0x22 :: (jsonEscape (utf8 "content") ++ [0x22, 0x3a, 0x22]) =
      utf8 "\"content\":\"" := by decide
  have hquote : [0x22] = utf8 "\"" := by decide
  rw [contentValue, eventOf_chunk config model seconds _ hmodel, contentEvent, ← hkey, ← hquote]
  simp only [JsonValue.bytes, JsonValue.membersBytes, key_bytes, escapeChars_bytes, quoted,
    List.append_assoc, List.cons_append, List.nil_append]

theorem eventOf_role (config : StreamConfig) (model : List Char) (seconds : UInt64)
    (hmodel : config.modelAlias = model.flatMap String.utf8EncodeChar) :
    eventOf (roleValue config model seconds) = roleEvent config seconds := by
  have hmembers : JsonValue.membersBytes
      [(key "role", .string (key "assistant")), (key "content", .string [])] =
      utf8 "\"role\":\"assistant\",\"content\":\"\"" := by
    simp only [JsonValue.bytes, JsonValue.membersBytes, key_bytes]
    decide
  rw [roleValue, eventOf_chunk config model seconds _ hmodel, hmembers, roleEvent,
    List.append_assoc]

/-! ### Which events are UTF-8 -/

/-- What stands in front of the alias. -/
def beforeAlias (config : StreamConfig) (seconds : UInt64) : List UInt8 :=
  utf8 "data: \x7b\"id\":\"" ++ requestId config.request ++
    utf8 "\",\"object\":\"chat.completion.chunk\",\"created\":" ++ utf8 (toString seconds.toNat) ++
    utf8 ",\"model\":"

theorem isUtf8_beforeAlias (config : StreamConfig) (seconds : UInt64) :
    IsUtf8 (beforeAlias config seconds) :=
  ((((isUtf8_utf8 _).append ((isUtf8_utf8 _).append (isUtf8_utf8 _))).append (isUtf8_utf8 _)).append
    (isUtf8_utf8 _)).append (isUtf8_utf8 _)

theorem isUtf8_eventTail : IsUtf8 eventTail := isUtf8_utf8 _

theorem isUtf8_roleEvent (config : StreamConfig) (seconds : UInt64) (rest : List UInt8) :
    IsUtf8 (roleEvent config seconds ++ rest) ↔ IsUtf8 config.modelAlias ∧ IsUtf8 rest := by
  have hparts : roleEvent config seconds ++ rest =
      beforeAlias config seconds ++ 0x22 :: (jsonEscape config.modelAlias ++ 0x22 ::
        (utf8 ",\"choices\":[\x7b\"index\":0,\"delta\":\x7b\"role\":\"assistant\",\"content\":\"\"" ++
          eventTail ++ rest)) := by
    unfold roleEvent eventHead beforeAlias
    generalize jsonEscape config.modelAlias = model
    simp only [List.append_assoc]
    rfl
  rw [hparts, isUtf8_cut (by decide), isUtf8_cut (by decide), isUtf8_jsonEscape,
    ((isUtf8_utf8 _).append isUtf8_eventTail).append_iff, and_iff_right (isUtf8_beforeAlias _ _)]

theorem isUtf8_contentEvent (config : StreamConfig) (seconds : UInt64) (piece rest : List UInt8) :
    IsUtf8 (contentEvent config seconds piece ++ rest) ↔
      (IsUtf8 config.modelAlias ∧ IsUtf8 piece) ∧ IsUtf8 rest := by
  have hparts : contentEvent config seconds piece ++ rest =
      beforeAlias config seconds ++ 0x22 :: (jsonEscape config.modelAlias ++ 0x22 ::
        (utf8 ",\"choices\":[\x7b\"index\":0,\"delta\":\x7b\"content\":" ++ 0x22 ::
          (jsonEscape piece ++ 0x22 :: (eventTail ++ rest)))) := by
    unfold contentEvent eventHead beforeAlias
    generalize jsonEscape config.modelAlias = model
    generalize jsonEscape piece = content
    simp only [List.append_assoc]
    rfl
  rw [hparts, isUtf8_cut (by decide), isUtf8_cut (by decide), isUtf8_cut (by decide),
    isUtf8_cut (by decide), isUtf8_jsonEscape, isUtf8_jsonEscape, isUtf8_eventTail.append_iff,
    and_iff_right (isUtf8_beforeAlias _ _), and_iff_right (isUtf8_utf8 _), and_assoc]

/-! ### The whole stream -/

/-- The chunks of the calls. -/
def chunks (first : Bool) : List TokenCall → List UInt8
  | [] => []
  | call :: rest =>
      (if first = true then roleEvent config call.roleSeconds else []) ++
        contentEvent config call.seconds (decodeToken tokenizer call.token) ++ chunks false rest

variable {tokenizer config} {calls : List TokenCall}

/-- Decoding goes token by token. -/
theorem decode_flatMap : tokenizer.decode (calls.map TokenCall.token) =
    calls.flatMap fun call => decodeToken tokenizer call.token := by
  rw [VbufTokenizer.decode, List.flatMap_map]
  refine List.flatMap_congr fun call _ => ?_
  rw [decodeToken, VbufTokenizer.decode, List.flatMap_singleton]

theorem foldl_onToken_sent (state : StreamState) :
    (calls.foldl (onToken tokenizer config true) state).sent =
      state.sent ++ chunks tokenizer config state.firstStreamChunk calls := by
  induction calls generalizing state with
  | nil => exact (List.append_nil _).symm
  | cons call rest ih =>
    rw [List.foldl_cons, ih, onToken, if_neg (by decide)]
    simp only [chunks, List.append_assoc]

theorem foldl_onToken_output (stream : Bool) (state : StreamState) :
    (calls.foldl (onToken tokenizer config stream) state).output =
      state.output ++ calls.flatMap fun call => decodeToken tokenizer call.token := by
  induction calls generalizing state with
  | nil => exact (List.append_nil _).symm
  | cons call rest ih =>
    rw [List.foldl_cons, ih, List.flatMap_cons, ← List.append_assoc]
    refine congrArg (· ++ _) ?_
    cases stream <;> rfl

/-- Every event is UTF-8 exactly when the alias and every decoded token are. -/
theorem isUtf8_chunks (first : Bool) : IsUtf8 (chunks tokenizer config first calls) ↔
    ∀ call ∈ calls, IsUtf8 config.modelAlias ∧ IsUtf8 (decodeToken tokenizer call.token) := by
  induction calls generalizing first with
  | nil => exact ⟨fun _ => List.forall_mem_nil _, fun _ => IsUtf8.nil⟩
  | cons call rest ih =>
    rw [chunks, List.append_assoc, List.forall_mem_cons]
    cases first with
    | false =>
      rw [if_neg Bool.false_ne_true, List.nil_append, isUtf8_contentEvent, ih]
    | true =>
      rw [if_pos rfl, isUtf8_roleEvent, isUtf8_contentEvent, ih]
      exact and_iff_right_of_imp fun h => h.1.1

/-- The events of UTF-8 tokens are JSON values with these contents. -/
theorem chunks_values (first : Bool) (model : List Char)
    (hmodel : config.modelAlias = model.flatMap String.utf8EncodeChar)
    (htokens : ∀ call ∈ calls, IsUtf8 (decodeToken tokenizer call.token)) :
    ∃ values contents, chunks tokenizer config first calls = values.flatMap eventOf ∧
      List.Forall₂ (fun value content => deltaContent value = some content) values contents ∧
      contents.flatten = calls.flatMap fun call => decodeToken tokenizer call.token := by
  induction calls generalizing first with
  | nil => exact ⟨[], [], rfl, .nil, rfl⟩
  | cons call rest ih =>
    rw [List.forall_mem_cons] at htokens
    obtain ⟨values, contents, hchunks, hcontents, htext⟩ := ih false htokens.2
    obtain ⟨chars, hchars⟩ := htokens.1
    have hevent := eventOf_content config model chars call.seconds hmodel
    have hcontent := deltaContent_content config model chars call.seconds
    rw [← hchars] at hevent hcontent
    cases first with
    | false =>
      refine ⟨contentValue config model chars call.seconds :: values, _ :: contents, ?_,
        .cons hcontent hcontents, ?_⟩
      · rw [chunks, if_neg Bool.false_ne_true, List.nil_append, List.flatMap_cons, hevent, hchunks]
      · rw [List.flatten_cons, List.flatMap_cons, htext]
    | true =>
      refine ⟨roleValue config model call.roleSeconds ::
        contentValue config model chars call.seconds :: values, [] :: _ :: contents, ?_,
        .cons (deltaContent_role _ _ _) (.cons hcontent hcontents), ?_⟩
      · rw [chunks, if_pos rfl, List.flatMap_cons, List.flatMap_cons, hevent, hchunks,
          eventOf_role config model call.roleSeconds hmodel, List.append_assoc]
      · rw [List.flatten_cons, List.nil_append, List.flatten_cons, List.flatMap_cons, htext]

/-- The events of a generation are UTF-8 JSON and together carry the decoded text exactly
when the alias and the decoding of every single token are UTF-8; the text that is not
streamed is the decoded text always. -/
theorem streams_iff (tokenizer : VbufTokenizer) (config : StreamConfig) (calls : List TokenCall) :
    (Streams (runTokens tokenizer config true calls).sent
        (tokenizer.decode (calls.map TokenCall.token)) ↔
      ∀ call ∈ calls, IsUtf8 config.modelAlias ∧ IsUtf8 (decodeToken tokenizer call.token)) ∧
    ∀ stream, (runTokens tokenizer config stream calls).output =
      tokenizer.decode (calls.map TokenCall.token) := by
  refine ⟨?_, fun stream => ?_⟩
  · rw [runTokens, foldl_onToken_sent, List.nil_append, decode_flatMap]
    refine ⟨fun h => (isUtf8_chunks true).1 h.1, fun h => ⟨(isUtf8_chunks true).2 h, ?_⟩⟩
    cases calls with
    | nil => exact ⟨[], [], rfl, .nil, rfl⟩
    | cons call rest =>
      obtain ⟨model, hmodel⟩ := (h call List.mem_cons_self).1
      exact chunks_values true model hmodel fun call hcall => (h call hcall).2
  · rw [runTokens, foldl_onToken_output, List.nil_append, decode_flatMap]

/-- Half of a character is no character. -/
theorem not_isUtf8_half : ¬ IsUtf8 [0xc3] := by
  rintro ⟨chars, h⟩
  cases chars with
  | nil => cases h
  | cons c rest =>
    rw [List.flatMap_cons] at h
    rcases utf8EncodeChar_cases c with ⟨hascii, hc⟩ | ⟨hhigh, -⟩
    · rw [hc, List.singleton_append] at h
      have hbyte := congrArg UInt8.toNat (List.cons.inj h).1
      rw [UInt8.toNat_ofNat_of_lt' (show c.toNat < 256 by omega)] at hbyte
      have hvalue : (0xc3 : UInt8).toNat = 0xc3 := rfl
      omega
    · have hlength := congrArg List.length h
      rw [List.length_append, List.length_singleton] at hlength
      have := two_le_length_utf8EncodeChar (show 127 < c.toNat by omega)
      omega

/-- A token whose text is a character of its own byte decodes to the byte. -/
theorem decodeToken_direct {token : UInt32} {value : Nat} (hvalue : value < 256)
    (hdirect : isDirectByte value = true)
    (htext : tokenizer.tokenTexts[token.toNat]? =
      some (String.utf8EncodeChar (Char.ofNat value))) :
    decodeToken tokenizer token = [UInt8.ofNat value] := by
  have hnothing : ∀ fuel, VbufTokenizer.decodeText fuel [] = [] := by
    intro fuel
    cases fuel <;> rfl
  have hread := nextUtf8_encode (Char.ofNat value) []
  have hbyte : reverseByte value = some (UInt8.ofNat value) := by
    rw [reverseByte_eq_find?, find?_characterOf hvalue hdirect, Option.map_some]
  rw [List.append_nil, toNat_ofNat (by omega)] at hread
  rw [decodeToken, VbufTokenizer.decode, List.flatMap_singleton, htext]
  obtain ⟨length, hlength⟩ := Nat.exists_eq_succ_of_ne_zero
    (Nat.pos_iff_ne_zero.1 (String.length_utf8EncodeChar (Char.ofNat value) ▸ Char.utf8Size_pos _))
  simp only [hlength, VbufTokenizer.decodeText, hread, hbyte, hnothing, List.append_nil]

/-- Two tokens of one byte each. -/
def exampleTokenizer : VbufTokenizer where
  tokenTexts := [utf8 "\u00c3", utf8 "\u00a9"]
  merges := []
  bos := none
  unk := none

/-- The two tokens decode to one character, and the event of each holds half of it. -/
theorem streams_split_character :
    IsUtf8 (exampleTokenizer.decode [0, 1]) ∧
      ¬ Streams (runTokens exampleTokenizer ⟨1, utf8 "m"⟩ true [⟨0, 0, 0⟩, ⟨1, 0, 0⟩]).sent
        (exampleTokenizer.decode [0, 1]) := by
  have hfirst : decodeToken exampleTokenizer 0 = [0xc3] :=
    @decodeToken_direct exampleTokenizer 0 0xc3 (by decide) (by decide) (by decide)
  have hsecond : decodeToken exampleTokenizer 1 = [0xa9] :=
    @decodeToken_direct exampleTokenizer 1 0xa9 (by decide) (by decide) (by decide)
  have hboth : exampleTokenizer.decode [0, 1] =
      decodeToken exampleTokenizer 0 ++ decodeToken exampleTokenizer 1 := by
    rw [decodeToken, decodeToken]
    simp only [VbufTokenizer.decode, List.flatMap_cons, List.flatMap_nil, List.append_nil]
  refine ⟨⟨['é'], ?_⟩, fun h => ?_⟩
  · rw [hboth, hfirst, hsecond]
    decide
  · have hsent := h.1
    rw [runTokens, foldl_onToken_sent, List.nil_append, isUtf8_chunks] at hsent
    have hhalf := (hsent ⟨0, 0, 0⟩ List.mem_cons_self).2
    rw [hfirst] at hhalf
    exact not_isUtf8_half hhalf

end VBuf.Compat
