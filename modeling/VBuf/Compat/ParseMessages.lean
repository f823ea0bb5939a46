import VBuf.Compat.JsonText

/-!
# The messages of a request

`parse_messages` looks for the keys of a message by their bytes, wherever they stand in
the array.  It reads the messages as they are meant when every role comes before its
content and the two keys are the first places that look like them.
-/

namespace VBuf.Compat

open VBuf.Lib VBuf.Tokenizer

/-! ### The parser -/

/-- `std::isspace`. -/
def isSpace (byte : UInt8) : Bool := byte == 0x20 || (0x09 ≤ byte && byte ≤ 0x0d)

/-- `skip_space`. -/
def skipSpace (body : List UInt8) (cursor : Nat) : Nat :=
  cursor + ((body.drop cursor).takeWhile isSpace).length

/-- The offset of the first place where a pattern stands. -/
def offsetOf (pattern : List UInt8) : List UInt8 → Option Nat
  | [] => if pattern = [] then some 0 else none
  | byte :: rest =>
      if pattern.isPrefixOf (byte :: rest) = true then some 0
      else (offsetOf pattern rest).map (· + 1)

/-- `body.find`, from a cursor on. -/
def findFrom (body pattern : List UInt8) (cursor : Nat) : Option Nat :=
  (offsetOf pattern (body.drop cursor)).map (cursor + ·)

/-- The part of `top_level_key` that goes behind a value. -/
def skipValue (body : List UInt8) (cursor : Nat) : Except String Nat :=
  match body.drop cursor with
  | [] => .ok cursor
  | byte :: rest =>
      if byte = 0x22 then do
        let read ← jsonString body cursor
        .ok read.2
      else if byte = 0x5b ∨ byte = 0x7b then
        match closing byte (if byte = 0x5b then 0x5d else 0x7d) rest 1 false false with
        | some inside => .ok (cursor + 1 + inside + 1)
        | none => .ok body.length
      else .ok (cursor + ((byte :: rest).takeWhile fun b => b != 0x2c && b != 0x7d).length)

/-- The loop of `top_level_key`. -/
def topLevelKeyFrom (body wanted : List UInt8) : Nat → Nat → Except String (Option Nat)
  | 0, _ => .ok none
  | fuel + 1, cursor =>
      let start := skipSpace body cursor
      if body[start]? ≠ some 0x22 then .ok none
      else do
        let key ← jsonString body start
        let colon := skipSpace body key.2
        if body[colon]? ≠ some 0x3a then .ok none
        else
          let value := skipSpace body (colon + 1)
          if key.1 = wanted then .ok (some value)
          else if body.length ≤ value then .ok none
          else do
            let behind ← skipValue body value
            let next := skipSpace body behind
            topLevelKeyFrom body wanted fuel (if body[next]? = some 0x2c then next + 1 else next)

/-- `top_level_key`. -/
def topLevelKey (body wanted : List UInt8) : Except String (Option Nat) :=
  let start := skipSpace body 0
  if body[start]? ≠ some 0x7b then .ok none
  else topLevelKeyFrom body wanted body.length (start + 1)

/-- `matching_array_end`. -/
def matchingArrayEnd (body : List UInt8) (start : Nat) : Except String Nat :=
  match body.drop start with
  | 0x5b :: rest =>
      match closing 0x5b 0x5d rest 1 false false with
      | some inside => .ok (start + 1 + inside)
      | none => .error "unterminated messages array"
  | _ => .error "messages must be an array"

/-- `Message`. -/
structure Message where
  role : List UInt8
  content : List UInt8
  deriving DecidableEq, Repr

/-- The bytes `"role"`, with their quotes. -/
def roleKey : List UInt8 := [0x22, 0x72, 0x6f, 0x6c, 0x65, 0x22]

/-- The bytes `"content"`, with their quotes. -/
def contentKey : List UInt8 := [0x22, 0x63, 0x6f, 0x6e, 0x74, 0x65, 0x6e, 0x74, 0x22]

/-- The roles of a message. -/
def roles : List (List UInt8) := [utf8 "system", utf8 "user", utf8 "assistant"]

/-- The cursor of the value behind a key, when its colon is in the array. -/
def valueBehind (body : List UInt8) (stop cursor : Nat) (malformed : String) : Except String Nat :=
  match findFrom body [0x3a] cursor with
  | none => .error malformed
  | some colon => if stop ≤ colon then .error malformed else .ok (skipSpace body (colon + 1))

/-- The loop of `parse_messages`, up to the end of the array. -/
def messagesFrom (body : List UInt8) (stop : Nat) :
    Nat → Nat → List Message → Except String (List Message)
  | 0, _, messages => .ok messages
  | fuel + 1, cursor, messages =>
      if stop ≤ cursor then .ok messages
      else
        match findFrom body roleKey cursor with
        | none => .ok messages
        | some key =>
            if stop ≤ key then .ok messages
            else do
              let value ← valueBehind body stop (key + 6) "message role is malformed"
              let role ← jsonString body value
              match findFrom body contentKey role.2 with
              | none => .error "message content is required"
              | some key =>
                  if stop ≤ key then .error "message content is required"
                  else do
                    let value ← valueBehind body stop (key + 9) "message content is malformed"
                    if body[value]? ≠ some 0x22 then
                      .error "only string message content is supported"
                    else do
                      let content ← jsonString body value
                      let message : Message := ⟨role.1, content.1⟩
                      if role.1 ∉ roles then .error "unsupported message role"
                      else messagesFrom body stop fuel content.2 (messages ++ [message])

/-- `parse_messages`. -/
def parseMessages (body : List UInt8) : Except String (List Message) := do
  match ← topLevelKey body (utf8 "messages") with
  | none => .error "messages is required"
  | some position =>
      let start := skipSpace body position
      let stop ← matchingArrayEnd body start
      let messages ← messagesFrom body stop body.length (start + 1) []
      if messages = [] then .error "messages must contain at least one message" else .ok messages

/-! ### Requests -/

/-- White space of the grammar. -/
structure Spaces where
  bytes : List UInt8
  blank : ∀ byte ∈ bytes, isJsonSpace byte = true

/-- A member of an object, with the white space around its parts. -/
structure Member where
  before : Spaces
  key : List StringChar
  beforeColon : Spaces
  afterColon : Spaces
  value : List UInt8
  after : Spaces
  valid : JsonText .value value

namespace Member

variable (m : Member)

/-- The key as `json_string` decodes it. -/
def name : List UInt8 := m.key.flatMap StringChar.decoded

/-- What is written between the white space in front of the member and that behind it. -/
def inner : List UInt8 :=
  stringBytes m.key ++ (m.beforeColon.bytes ++ 0x3a :: (m.afterColon.bytes ++ m.value))

def bytes : List UInt8 := m.before.bytes ++ (m.inner ++ m.after.bytes)

end Member

/-- A member whose value is a string. -/
structure StringMember where
  before : Spaces
  key : List StringChar
  beforeColon : Spaces
  afterColon : Spaces
  text : List StringChar
  after : Spaces

/-- The member as one of any value. -/
def StringMember.toMember (m : StringMember) : Member where
  before := m.before
  key := m.key
  beforeColon := m.beforeColon
  afterColon := m.afterColon
  value := stringBytes m.text
  after := m.after
  valid := .string m.text

/-- The string as `json_string` decodes it. -/
def StringMember.decoded (m : StringMember) : List UInt8 := m.text.flatMap StringChar.decoded

/-- A message: an object with one role and one content, in either order. -/
structure ChatMessage where
  lead : Spaces
  contentFirst : Bool
  before : List Member
  role : StringMember
  between : List Member
  content : StringMember
  after : List Member
  trail : Spaces
  role_name : role.toMember.name = utf8 "role"
  content_name : content.toMember.name = utf8 "content"
  role_mem : role.decoded ∈ roles
  others : ∀ m ∈ before ++ between ++ after, m.name ≠ utf8 "role" ∧ m.name ≠ utf8 "content"

namespace ChatMessage

variable (message : ChatMessage)

/-- The member that comes first. -/
def first : Member :=
  if message.contentFirst = true then message.content.toMember else message.role.toMember

/-- The member that comes second. -/
def second : Member :=
  if message.contentFirst = true then message.role.toMember else message.content.toMember

/-- What is in front of the first of the two members. -/
def head : List UInt8 :=
  message.lead.bytes ++ 0x7b :: (message.before.flatMap (fun m => m.bytes ++ [0x2c]) ++
    message.first.before.bytes)

/-- What is between the two members. -/
def middle : List UInt8 :=
  message.first.after.bytes ++ (message.between.flatMap (fun m => 0x2c :: m.bytes) ++
    0x2c :: message.second.before.bytes)

/-- What is behind the second of the two members. -/
def tail : List UInt8 :=
  message.second.after.bytes ++ (message.after.flatMap (fun m => 0x2c :: m.bytes) ++
    0x7d :: message.trail.bytes)

def bytes : List UInt8 :=
  message.head ++ (message.first.inner ++ (message.middle ++ (message.second.inner ++ message.tail)))

/-- The pair that the message means. -/
def meaning : Message := ⟨message.role.decoded, message.content.decoded⟩

end ChatMessage

/-- The comma in front of the messages that are left. -/
def separator (rest : List ChatMessage) : List UInt8 := if rest.isEmpty = true then [] else [0x2c]

/-- What is between the brackets of an array of messages. -/
def arrayBytes : List ChatMessage → List UInt8
  | [] => []
  | message :: rest => message.bytes ++ (separator rest ++ arrayBytes rest)

/-- The first place behind a gap where a pattern stands is behind the gap. -/
def FirstBehind (pattern gap : List UInt8) : Prop := offsetOf pattern (gap ++ pattern) = some gap.length

/-- Every role comes before its content, the keys have no escapes, and no other place in
the array looks like one of them when it is looked for. -/
def ReadableFrom : List UInt8 → List ChatMessage → Prop
  | gap, [] => offsetOf roleKey gap = none
  | gap, message :: rest =>
      message.contentFirst = false ∧ stringBytes message.role.key = roleKey ∧
        stringBytes message.content.key = contentKey ∧ FirstBehind roleKey (gap ++ message.head) ∧
        FirstBehind contentKey message.middle ∧ ReadableFrom (message.tail ++ separator rest) rest

/-- A request: an object whose first member of this name is a list of messages. -/
structure ChatRequest where
  lead : Spaces
  before : List Member
  beforeKey : Spaces
  key : List StringChar
  beforeColon : Spaces
  afterColon : Spaces
  messages : List ChatMessage
  later : List UInt8
  before_name : ∀ m ∈ before, m.name ≠ utf8 "messages"
  key_name : key.flatMap StringChar.decoded = utf8 "messages"
  messages_ne : messages ≠ []

namespace ChatRequest

variable (request : ChatRequest)

/-- The messages with what is behind them. -/
def array : List UInt8 := 0x5b :: (arrayBytes request.messages ++ 0x5d :: request.later)

def bytes : List UInt8 :=
  request.lead.bytes ++ 0x7b :: (request.before.flatMap (fun m => m.bytes ++ [0x2c]) ++
    (request.beforeKey.bytes ++ (stringBytes request.key ++ (request.beforeColon.bytes ++
      0x3a :: (request.afterColon.bytes ++ request.array)))))

def Readable : Prop := ReadableFrom [] request.messages

end ChatRequest

/-! ### Cursors -/

section Cursors

variable {body : List UInt8} {cursor : Nat}

theorem drop_behind {piece rest : List UInt8} (h : body.drop cursor = piece ++ rest) :
    body.drop (cursor + piece.length) = rest := by
  rw [← List.drop_drop, h, List.drop_left]

theorem getElem?_of_drop {byte : UInt8} {rest : List UInt8} (h : body.drop cursor = byte :: rest) :
    body[cursor]? = some byte := by
  have hget := congrArg (fun l => l[0]?) h
  simpa [List.getElem?_drop] using hget

theorem isSpace_of_isJsonSpace {byte : UInt8} (h : isJsonSpace byte = true) :
    isSpace byte = true := by
  simp only [isJsonSpace, Bool.or_eq_true, beq_iff_eq] at h
  rcases h with ((rfl | rfl) | rfl) | rfl
  all_goals decide

/-- White space is skipped up to a byte that is none. -/
theorem skipSpace_eq {space rest : List UInt8} {byte : UInt8}
    (hspace : ∀ b ∈ space, isSpace b = true) (hbyte : isSpace byte = false)
    (h : body.drop cursor = space ++ byte :: rest) :
    skipSpace body cursor = cursor + space.length := by
  rw [skipSpace, h, List.takeWhile_append_of_pos hspace, List.takeWhile_cons, hbyte]
  simp

theorem Spaces.skip (space : Spaces) {rest : List UInt8} {byte : UInt8}
    (hbyte : isSpace byte = false) (h : body.drop cursor = space.bytes ++ byte :: rest) :
    skipSpace body cursor = cursor + space.bytes.length :=
  skipSpace_eq (fun b hb => isSpace_of_isJsonSpace (space.blank b hb)) hbyte h

theorem jsonString_eq {literal : List StringChar} {rest : List UInt8}
    (h : body.drop cursor = stringBytes literal ++ rest) :
    jsonString body cursor =
      .ok (literal.flatMap StringChar.decoded, cursor + (stringBytes literal).length) :=
  jsonString_of_drop (ReadsAs.flatMap fun c _ => c.readsAs) h

end Cursors

/-! ### Searches -/

theorem offsetOf_append {pattern gap rest : List UInt8} (h : FirstBehind pattern gap) :
    offsetOf pattern (gap ++ (pattern ++ rest)) = some gap.length := by
  unfold FirstBehind at h
  induction gap with
  | nil =>
      cases pattern with
      | nil =>
          cases rest with
          | nil => rfl
          | cons byte rest => rfl
      | cons byte pattern =>
          rw [List.nil_append, List.cons_append, offsetOf, if_pos]
          · rfl
          · rw [List.isPrefixOf_iff_prefix, ← List.cons_append]
            exact List.prefix_append _ _
  | cons byte gap ih =>
      rw [List.cons_append, offsetOf] at h ⊢
      split at h
      next =>
          rw [List.length_cons, Option.some.injEq] at h
          omega
      next hnot =>
          obtain ⟨n, hn, heq⟩ := Option.map_eq_some_iff.1 h
          rw [List.length_cons, Nat.add_right_cancel_iff] at heq
          subst heq
          -- a place that ends in what is behind would be longer than the pattern
          have hnot' : ¬ pattern.isPrefixOf (byte :: (gap ++ (pattern ++ rest))) = true := by
            intro hstarts
            refine hnot (List.isPrefixOf_iff_prefix.2 ?_)
            refine List.prefix_of_prefix_length_le (List.isPrefixOf_iff_prefix.1 hstarts) ?_ ?_
            · rw [← List.append_assoc, ← List.cons_append]
              exact List.prefix_append _ _
            · rw [List.length_cons, List.length_append]
              omega
          rw [if_neg hnot', ih hn]
          rfl

/-- A pattern without some byte does not stand across it. -/
theorem prefix_of_not_mem {pattern front rest : List UInt8} {byte : UInt8} (hbyte : byte ∉ pattern)
    (h : pattern <+: front ++ byte :: rest) : pattern <+: front := by
  rcases Nat.lt_or_ge front.length pattern.length with hlt | hge
  · refine absurd ?_ hbyte
    obtain ⟨later, hlater⟩ := h
    have hget := congrArg (fun l => l[front.length]?) hlater
    simp only [List.getElem?_append_left hlt, List.getElem?_append_right (Nat.le_refl _),
      Nat.sub_self, List.getElem?_cons_zero] at hget
    exact List.mem_of_getElem? hget
  · exact List.prefix_of_prefix_length_le h (List.prefix_append _ _) hge

/-- A pattern that is not in a gap is found behind it, if at all. -/
theorem le_offsetOf {pattern gap rest : List UInt8} {byte : UInt8} {n : Nat}
    (hbyte : byte ∉ pattern) (h : offsetOf pattern gap = none)
    (hfound : offsetOf pattern (gap ++ byte :: rest) = some n) : gap.length ≤ n := by
  induction gap generalizing n with
  | nil => exact Nat.zero_le n
  | cons first gap ih =>
      rw [offsetOf] at h
      rw [List.cons_append, offsetOf] at hfound
      split at h
      next => cases h
      next hnot =>
          rw [Option.map_eq_none_iff] at h
          have hnot' : ¬ pattern.isPrefixOf (first :: (gap ++ byte :: rest)) = true := by
            intro hstarts
            rw [List.isPrefixOf_iff_prefix, ← List.cons_append] at hstarts
            exact hnot (List.isPrefixOf_iff_prefix.2 (prefix_of_not_mem hbyte hstarts))
          rw [if_neg hnot'] at hfound
          obtain ⟨m, hm, rfl⟩ := Option.map_eq_some_iff.1 hfound
          rw [List.length_cons]
          exact Nat.succ_le_succ (ih h hm)

theorem findFrom_eq {body pattern gap rest : List UInt8} {cursor : Nat}
    (h : FirstBehind pattern gap) (hdrop : body.drop cursor = gap ++ (pattern ++ rest)) :
    findFrom body pattern cursor = some (cursor + gap.length) := by
  rw [findFrom, hdrop, offsetOf_append h]
  rfl

theorem Spaces.firstBehind (space : Spaces) : FirstBehind [0x3a] space.bytes := by
  obtain ⟨bytes, hspace⟩ := space
  simp only
  induction bytes with
  | nil => rfl
  | cons byte rest ih =>
      rw [List.forall_mem_cons] at hspace
      have hne : byte ≠ 0x3a := by
        rintro rfl
        exact absurd hspace.1 (by decide)
      have hnot : ¬ [0x3a].isPrefixOf (byte :: (rest ++ [0x3a])) = true := by
        rw [List.isPrefixOf_iff_prefix, List.cons_prefix_cons]
        exact fun h => hne h.1.symm
      rw [FirstBehind, List.cons_append, offsetOf, if_neg hnot, ih hspace.2]
      rfl

/-! ### Values -/

/-- What holds of all numbers below 256 holds of all bytes. -/
theorem forall_byte {P : UInt8 → Prop} (h : ∀ n < 256, P (UInt8.ofNat n)) (byte : UInt8) :
    P byte := by
  have hbyte := h byte.toNat byte.toNat_lt
  rwa [UInt8.ofNat_toNat] at hbyte

/-- A value starts with a byte that is no white space. -/
theorem value_first {value : List UInt8} (h : JsonText .value value) :
    ∃ byte rest, value = byte :: rest ∧ isSpace byte = false := by
  generalize hpart : JsonPart.value = part at h
  cases h with
  | string literal => exact ⟨_, _, rfl, rfl⟩
  | scalar hne hbytes =>
      obtain ⟨byte, rest, rfl⟩ := List.exists_cons_of_ne_nil hne
      refine ⟨byte, rest, rfl, ?_⟩
      rw [List.forall_mem_cons] at hbytes
      have hscalar := hbytes.1
      have hall : ∀ byte : UInt8, isScalarByte byte = true → isSpace byte = false :=
        forall_byte (by decide +kernel)
      exact hall byte hscalar
  | emptyArray _ => exact ⟨_, _, rfl, rfl⟩
  | array _ => exact ⟨_, _, rfl, rfl⟩
  | emptyObject _ => exact ⟨_, _, rfl, rfl⟩
  | object _ => exact ⟨_, _, rfl, rfl⟩
  | element _ _ _ => cases hpart
  | elementComma _ _ => cases hpart
  | member _ _ _ _ _ _ => cases hpart
  | memberComma _ _ => cases hpart

section Values

variable {body : List UInt8} {cursor : Nat}

theorem skipValue_brackets {opening closer : UInt8} {inside rest : List UInt8}
    (hkind : IsBrackets opening closer) (hinside : Neutral opening closer inside)
    (hdrop : body.drop cursor = opening :: (inside ++ [closer]) ++ rest) :
    skipValue body cursor = .ok (cursor + (opening :: (inside ++ [closer])).length) := by
  have hfirst : body.drop cursor = opening :: (inside ++ closer :: rest) := by
    rw [hdrop, List.cons_append, List.append_assoc]
    rfl
  have hlength : cursor + 1 + inside.length + 1 =
      cursor + (opening :: (inside ++ [closer])).length := by
    rw [List.length_cons, List.length_append, List.length_singleton]
    omega
  rw [skipValue, hfirst]
  rcases hkind with ⟨rfl, rfl⟩ | ⟨rfl, rfl⟩
  · have hclosing := hinside.closing_eq (by decide) (by decide) rest
    simp only [if_neg (by decide : ¬ (0x5b : UInt8) = 0x22), true_or, if_true, hclosing]
    rw [hlength]
  · have hclosing := hinside.closing_eq (by decide) (by decide) rest
    simp only [if_neg (by decide : ¬ (0x7b : UInt8) = 0x22), or_true, if_true,
      if_neg (by decide : ¬ (0x7b : UInt8) = 0x5b), hclosing]
    rw [hlength]

/-- A value is skipped, and the white space behind it. -/
theorem skipValue_eq {value rest : List UInt8} (h : JsonText .value value) (space : Spaces)
    (hdrop : body.drop cursor = value ++ (space.bytes ++ 0x2c :: rest)) :
    ∃ behind, skipValue body cursor = .ok behind ∧
      skipSpace body behind = cursor + value.length + space.bytes.length := by
  have hspace := fun length (hvalue : length = value.length) =>
    @Spaces.skip body (cursor + length) space rest 0x2c (by decide)
      (by rw [hvalue]; exact drop_behind hdrop)
  have hbrackets : ∀ {opening closer : UInt8} {inside : List UInt8}, IsBrackets opening closer →
      Neutral opening closer inside → value = opening :: (inside ++ [closer]) →
      ∃ behind, skipValue body cursor = .ok behind ∧
        skipSpace body behind = cursor + value.length + space.bytes.length := by
    rintro opening closer inside hkind hinside rfl
    exact ⟨_, skipValue_brackets hkind hinside hdrop, hspace _ rfl⟩
  generalize hpart : JsonPart.value = part at h
  cases h with
  | string literal =>
      have hfirst : body.drop cursor = 0x22 :: (literal.flatMap StringChar.bytes ++ [0x22] ++
          (space.bytes ++ 0x2c :: rest)) := hdrop
      refine ⟨_, ?_, hspace _ rfl⟩
      rw [skipValue, hfirst]
      simp only [if_true]
      rw [jsonString_eq hdrop]
      rfl
  | scalar hne hbytes =>
      have hvalue : ∀ byte : UInt8, isScalarByte byte = true →
          (byte != 0x2c && byte != 0x7d) = true ∧ byte ≠ 0x22 ∧ byte ≠ 0x5b ∧ byte ≠ 0x7b :=
        forall_byte (by decide +kernel)
      have hwhite : ∀ byte : UInt8, isJsonSpace byte = true →
          (byte != 0x2c && byte != 0x7d) = true :=
        forall_byte (by decide +kernel)
      have htake : (value ++ (space.bytes ++ 0x2c :: rest)).takeWhile
          (fun b => b != 0x2c && b != 0x7d) = value ++ space.bytes := by
        rw [← List.append_assoc, List.takeWhile_append_of_pos, List.takeWhile_cons]
        · simp
        · intro byte hmem
          rcases List.mem_append.1 hmem with hmem | hmem
          · exact (hvalue byte (hbytes byte hmem)).1
          · exact hwhite byte (space.blank byte hmem)
      obtain ⟨byte, tail, rfl⟩ := List.exists_cons_of_ne_nil hne
      have hbyte := (hvalue byte (hbytes byte List.mem_cons_self)).2
      refine ⟨cursor + (byte :: tail ++ space.bytes).length, ?_, ?_⟩
      · rw [skipValue, hdrop, List.cons_append]
        simp only [if_neg hbyte.1, hbyte.2.1, hbyte.2.2, or_self, if_false]
        rw [← List.cons_append, htake]
      · rw [List.length_append, ← Nat.add_assoc]
        have hcomma := drop_behind (drop_behind hdrop)
        have hnone := @skipSpace_eq body _ [] rest 0x2c (fun b hb => by cases hb) (by decide) hcomma
        exact hnone
  | emptyArray hmem => exact hbrackets (Or.inl ⟨rfl, rfl⟩) (.space (Or.inl ⟨rfl, rfl⟩) hmem) rfl
  | array helements =>
      exact hbrackets (Or.inl ⟨rfl, rfl⟩) (helements.neutral (Or.inl ⟨rfl, rfl⟩)) rfl
  | emptyObject hmem => exact hbrackets (Or.inr ⟨rfl, rfl⟩) (.space (Or.inr ⟨rfl, rfl⟩) hmem) rfl
  | object hmembers =>
      exact hbrackets (Or.inr ⟨rfl, rfl⟩) (hmembers.neutral (Or.inr ⟨rfl, rfl⟩)) rfl
  | element _ _ _ => cases hpart
  | elementComma _ _ => cases hpart
  | member _ _ _ _ _ _ => cases hpart
  | memberComma _ _ => cases hpart

/-! ### The list of messages is found -/

/-- A key is read, up to the value behind it. -/
theorem topLevelKeyFrom_key {wanted : List UInt8} {fuel : Nat} {before beforeColon afterColon : Spaces}
    {key : List StringChar} {byte : UInt8} {rest : List UInt8} (hbyte : isSpace byte = false)
    (hdrop : body.drop cursor = before.bytes ++ (stringBytes key ++ (beforeColon.bytes ++
      0x3a :: (afterColon.bytes ++ byte :: rest)))) :
    ∃ value, value = cursor + before.bytes.length + (stringBytes key).length +
        beforeColon.bytes.length + 1 + afterColon.bytes.length ∧
      body.drop value = byte :: rest ∧
      topLevelKeyFrom body wanted (fuel + 1) cursor =
        if key.flatMap StringChar.decoded = wanted then .ok (some value)
        else if body.length ≤ value then .ok none
        else (do
          let behind ← skipValue body value
          let next := skipSpace body behind
          topLevelKeyFrom body wanted fuel (if body[next]? = some 0x2c then next + 1 else next)) := by
  have hstart : skipSpace body cursor = cursor + before.bytes.length :=
    @Spaces.skip body cursor before _ 0x22 (by decide) hdrop
  have hkey := drop_behind hdrop
  have hquote : body[cursor + before.bytes.length]? = some 0x22 := getElem?_of_drop hkey
  have hread := jsonString_eq hkey
  have hcolon := drop_behind hkey
  have hskip := beforeColon.skip (by decide) hcolon
  have hmark := drop_behind hcolon
  have hbehind := @drop_behind body _ [0x3a] _ hmark
  have hvalue := afterColon.skip hbyte hbehind
  refine ⟨_, rfl, drop_behind hbehind, ?_⟩
  rw [topLevelKeyFrom]
  simp only [hstart, hquote, ne_eq, not_true_eq_false, if_false, hread, bind, Except.bind, hskip,
    getElem?_of_drop hmark]
  rw [show skipSpace body (cursor + before.bytes.length + (stringBytes key).length +
    beforeColon.bytes.length + 1) = _ from hvalue]
  rfl

/-- A member of another name is passed. -/
theorem topLevelKeyFrom_member {wanted : List UInt8} {fuel : Nat} {m : Member} {rest : List UInt8}
    (hname : m.name ≠ wanted) (hdrop : body.drop cursor = m.bytes ++ 0x2c :: rest) :
    topLevelKeyFrom body wanted (fuel + 1) cursor =
      topLevelKeyFrom body wanted fuel (cursor + (m.bytes ++ [0x2c]).length) := by
  obtain ⟨byte, tail, hvalue, hbyte⟩ := value_first m.valid
  have hparts : body.drop cursor = m.before.bytes ++ (stringBytes m.key ++ (m.beforeColon.bytes ++
      0x3a :: (m.afterColon.bytes ++ byte :: (tail ++ (m.after.bytes ++ 0x2c :: rest))))) := by
    rw [hdrop, Member.bytes, Member.inner, hvalue]
    simp only [List.append_assoc, List.cons_append]
  obtain ⟨value, hposition, hat, hstep⟩ := @topLevelKeyFrom_key body cursor wanted fuel _ _ _ _ _ _
    hbyte hparts
  have hat' : body.drop value = m.value ++ (m.after.bytes ++ 0x2c :: rest) := by
    rw [hat, hvalue, List.cons_append]
  obtain ⟨behind, hskip, hspace⟩ := skipValue_eq m.valid m.after hat'
  have hcomma := drop_behind (drop_behind hat')
  have hlt : ¬ body.length ≤ value := by
    intro hle
    rw [List.drop_eq_nil_of_le hle] at hat
    cases hat
  have hother : ¬ m.key.flatMap StringChar.decoded = wanted := hname
  rw [hstep, if_neg hother, if_neg hlt, hskip]
  simp only [bind, Except.bind, hspace, getElem?_of_drop hcomma, if_true]
  congr 1
  rw [hposition, Member.bytes, Member.inner]
  simp only [List.length_append, List.length_cons, List.length_nil]
  omega

/-- The list of messages is found behind the members of other names. -/
theorem topLevelKeyFrom_found {wanted : List UInt8} {before : List Member}
    {beforeKey beforeColon afterColon : Spaces} {key : List StringChar} {byte : UInt8}
    {rest : List UInt8} {fuel : Nat} (hfuel : before.length < fuel)
    (hnames : ∀ m ∈ before, m.name ≠ wanted) (hkey : key.flatMap StringChar.decoded = wanted)
    (hbyte : isSpace byte = false)
    (hdrop : body.drop cursor = before.flatMap (fun m => m.bytes ++ [0x2c]) ++ (beforeKey.bytes ++
      (stringBytes key ++ (beforeColon.bytes ++ 0x3a :: (afterColon.bytes ++ byte :: rest))))) :
    ∃ value, topLevelKeyFrom body wanted fuel cursor = .ok (some value) ∧
      body.drop value = byte :: rest := by
  induction before generalizing cursor fuel with
  | nil =>
      obtain ⟨fuel, rfl⟩ := Nat.exists_eq_succ_of_ne_zero (by omega : fuel ≠ 0)
      obtain ⟨value, -, hat, hstep⟩ := @topLevelKeyFrom_key body cursor wanted fuel _ _ _ _ _ _ hbyte
        hdrop
      exact ⟨value, by rw [hstep, if_pos hkey], hat⟩
  | cons m before ih =>
      obtain ⟨fuel, rfl⟩ := Nat.exists_eq_succ_of_ne_zero (by omega : fuel ≠ 0)
      rw [List.forall_mem_cons] at hnames
      rw [List.flatMap_cons, List.append_assoc] at hdrop
      rw [List.length_cons] at hfuel
      have hmember : body.drop cursor = m.bytes ++ 0x2c :: (before.flatMap
          (fun m => m.bytes ++ [0x2c]) ++ (beforeKey.bytes ++ (stringBytes key ++
            (beforeColon.bytes ++ 0x3a :: (afterColon.bytes ++ byte :: rest))))) := by
        rw [hdrop, List.append_assoc]
        rfl
      rw [topLevelKeyFrom_member hnames.1 hmember]
      exact ih (by omega) hnames.2 (drop_behind hdrop)

end Values

/-! ### The end of the array -/

section Array

theorem isBrackets_array : IsBrackets 0x5b 0x5d := Or.inl ⟨rfl, rfl⟩

theorem Neutral.cons {opening closer byte : UInt8} {piece : List UInt8}
    (hbyte : Neutral opening closer [byte]) (h : Neutral opening closer piece) :
    Neutral opening closer (byte :: piece) := hbyte.append h

theorem Neutral.flatMap {opening closer : UInt8} {α : Type} {piece : α → List UInt8}
    {items : List α} (h : ∀ item ∈ items, Neutral opening closer (piece item)) :
    Neutral opening closer (items.flatMap piece) := by
  induction items with
  | nil => exact .nil
  | cons item rest ih =>
      rw [List.forall_mem_cons] at h
      rw [List.flatMap_cons]
      exact h.1.append (ih h.2)

theorem Spaces.neutral (space : Spaces) : Neutral 0x5b 0x5d space.bytes :=
  .space isBrackets_array space.blank

theorem neutral_comma : Neutral 0x5b 0x5d [0x2c] := .mark isBrackets_array (Or.inl rfl)

theorem Member.neutral_inner (m : Member) : Neutral 0x5b 0x5d m.inner :=
  (Neutral.string m.key).append (m.beforeColon.neutral.append
    (.cons (.mark isBrackets_array (Or.inr rfl))
      (m.afterColon.neutral.append (m.valid.neutral isBrackets_array))))

theorem Member.neutral (m : Member) : Neutral 0x5b 0x5d m.bytes :=
  m.before.neutral.append (m.neutral_inner.append m.after.neutral)

theorem ChatMessage.neutral (message : ChatMessage) : Neutral 0x5b 0x5d message.bytes := by
  have hopen : Neutral 0x5b 0x5d [0x7b] := .byte (by decide) (by decide) (by decide)
  have hclose : Neutral 0x5b 0x5d [0x7d] := .byte (by decide) (by decide) (by decide)
  have hbefore : Neutral 0x5b 0x5d (message.before.flatMap (fun m => m.bytes ++ [0x2c])) :=
    .flatMap fun m _ => m.neutral.append neutral_comma
  have hmembers : ∀ members : List Member,
      Neutral 0x5b 0x5d (members.flatMap fun m => 0x2c :: m.bytes) :=
    fun members => .flatMap fun m _ => .cons neutral_comma m.neutral
  refine Neutral.append ?_ (message.first.neutral_inner.append (Neutral.append ?_
    (message.second.neutral_inner.append ?_)))
  · exact message.lead.neutral.append (.cons hopen (hbefore.append message.first.before.neutral))
  · exact message.first.after.neutral.append ((hmembers _).append
      (.cons neutral_comma message.second.before.neutral))
  · exact message.second.after.neutral.append ((hmembers _).append
      (.cons hclose message.trail.neutral))

theorem neutral_arrayBytes (messages : List ChatMessage) :
    Neutral 0x5b 0x5d (arrayBytes messages) := by
  induction messages with
  | nil => exact .nil
  | cons message rest ih =>
      refine message.neutral.append (Neutral.append ?_ ih)
      unfold separator
      split
      · exact .nil
      · exact neutral_comma

/-- The end of the array is found. -/
theorem matchingArrayEnd_eq {body later : List UInt8} {start : Nat} {messages : List ChatMessage}
    (hdrop : body.drop start = 0x5b :: (arrayBytes messages ++ 0x5d :: later)) :
    matchingArrayEnd body start = .ok (start + 1 + (arrayBytes messages).length) := by
  have hclosing := (neutral_arrayBytes messages).closing_eq (by decide) (by decide) later
  rw [matchingArrayEnd, hdrop]
  simp only [hclosing]

end Array

/-! ### The loop -/

section Loop

variable {body : List UInt8} {cursor stop : Nat}

theorem valueBehind_eq {beforeColon afterColon : Spaces} {byte : UInt8} {rest : List UInt8}
    {malformed : String} (hbyte : isSpace byte = false)
    (hdrop : body.drop cursor = beforeColon.bytes ++ 0x3a :: (afterColon.bytes ++ byte :: rest))
    (hstop : cursor + beforeColon.bytes.length < stop) :
    ∃ value, valueBehind body stop cursor malformed = .ok value ∧
      value = cursor + beforeColon.bytes.length + 1 + afterColon.bytes.length ∧
      body.drop value = byte :: rest := by
  have hfind : findFrom body [0x3a] cursor = some (cursor + beforeColon.bytes.length) :=
    findFrom_eq beforeColon.firstBehind hdrop
  have hbehind := @drop_behind body _ [0x3a] _ (drop_behind hdrop)
  have hskip := afterColon.skip hbyte hbehind
  refine ⟨_, ?_, rfl, drop_behind hbehind⟩
  rw [valueBehind, hfind]
  simp only [if_neg (Nat.not_le.2 hstop)]
  exact congrArg Except.ok hskip

/-- A readable message is read, up to what is behind its content. -/
theorem messagesFrom_message {fuel : Nat} {gap rest : List UInt8} {message : ChatMessage}
    {messages : List Message} (hfirst : message.contentFirst = false)
    (hrole : stringBytes message.role.key = roleKey)
    (hcontent : stringBytes message.content.key = contentKey)
    (hgap : FirstBehind roleKey (gap ++ message.head))
    (hmiddle : FirstBehind contentKey message.middle)
    (hdrop : body.drop cursor = gap ++ (message.bytes ++ rest))
    (hstop : cursor + gap.length + message.bytes.length ≤ stop) :
    ∃ next, body.drop next = message.tail ++ rest ∧
      next + message.tail.length = cursor + gap.length + message.bytes.length ∧
      messagesFrom body stop (fuel + 1) cursor messages =
        messagesFrom body stop fuel next (messages ++ [message.meaning]) := by
  have hmemberFirst : message.first = message.role.toMember := by
    rw [ChatMessage.first, hfirst]
    rfl
  have hmemberSecond : message.second = message.content.toMember := by
    rw [ChatMessage.second, hfirst]
    rfl
  have hroleInner : message.first.inner = roleKey ++ (message.role.beforeColon.bytes ++
      0x3a :: (message.role.afterColon.bytes ++ stringBytes message.role.text)) := by
    rw [hmemberFirst, ← hrole]
    rfl
  have hcontentInner : message.second.inner = contentKey ++ (message.content.beforeColon.bytes ++
      0x3a :: (message.content.afterColon.bytes ++ stringBytes message.content.text)) := by
    rw [hmemberSecond, ← hcontent]
    rfl
  have hbytes : message.bytes.length = message.head.length + (6 +
      (message.role.beforeColon.bytes.length + 1 + message.role.afterColon.bytes.length +
        (stringBytes message.role.text).length)) + message.middle.length + (9 +
      (message.content.beforeColon.bytes.length + 1 + message.content.afterColon.bytes.length +
        (stringBytes message.content.text).length)) + message.tail.length := by
    rw [ChatMessage.bytes, hroleInner, hcontentInner]
    simp only [List.length_append, List.length_cons, roleKey, contentKey, List.length_nil]
    omega
  rw [ChatMessage.bytes, hroleInner, hcontentInner] at hdrop
  simp only [List.append_assoc, List.cons_append] at hdrop
  -- the role
  have hstart : body.drop cursor = (gap ++ message.head) ++ (roleKey ++
      (message.role.beforeColon.bytes ++ 0x3a :: (message.role.afterColon.bytes ++
        (stringBytes message.role.text ++ (message.middle ++ (contentKey ++
          (message.content.beforeColon.bytes ++ 0x3a :: (message.content.afterColon.bytes ++
            (stringBytes message.content.text ++ (message.tail ++ rest)))))))))) := by
    rw [hdrop, List.append_assoc]
  have hroleFind := findFrom_eq hgap hstart
  have hroleBehind := drop_behind (drop_behind hstart)
  rw [List.length_append] at hroleFind hroleBehind
  obtain ⟨roleValue, hroleValue, hroleAt, hroleDrop⟩ := @valueBehind_eq body _ stop
    message.role.beforeColon message.role.afterColon 0x22 _ "message role is malformed" (by decide)
    hroleBehind (by rw [show roleKey.length = 6 from rfl]; omega)
  have hroleText : body.drop roleValue = stringBytes message.role.text ++ (message.middle ++
      (contentKey ++ (message.content.beforeColon.bytes ++
        0x3a :: (message.content.afterColon.bytes ++ (stringBytes message.content.text ++
          (message.tail ++ rest)))))) := hroleDrop
  have hroleRead := jsonString_eq hroleText
  -- the content
  have hcontentStart := drop_behind hroleText
  have hcontentFind := findFrom_eq hmiddle hcontentStart
  have hcontentBehind := drop_behind (drop_behind hcontentStart)
  obtain ⟨contentValue, hcontentValue, hcontentAt, hcontentDrop⟩ := @valueBehind_eq body _ stop
    message.content.beforeColon message.content.afterColon 0x22 _ "message content is malformed"
    (by decide) hcontentBehind (by
      rw [show contentKey.length = 9 from rfl]
      rw [show roleKey.length = 6 from rfl] at hroleAt
      omega)
  have hcontentText : body.drop contentValue =
      stringBytes message.content.text ++ (message.tail ++ rest) := hcontentDrop
  have hcontentRead := jsonString_eq hcontentText
  have hquote := getElem?_of_drop hcontentDrop
  rw [show roleKey.length = 6 from rfl] at hroleValue hroleAt
  rw [show contentKey.length = 9 from rfl] at hcontentValue hcontentAt
  refine ⟨_, drop_behind hcontentText, by omega, ?_⟩
  rw [messagesFrom, if_neg (by omega), hroleFind]
  simp only [if_neg (show ¬ stop ≤ cursor + (gap.length + message.head.length) by omega),
    hroleValue, bind, Except.bind, hroleRead, hcontentFind]
  rw [if_neg (by omega), hcontentValue]
  simp only [hquote, ne_eq, not_true_eq_false, if_false, hcontentRead]
  exact if_neg (not_not.2 message.role_mem)

/-- Readable messages are read in order. -/
theorem messagesFrom_eq {fuel : Nat} {gap later : List UInt8} {messages : List ChatMessage}
    {done : List Message} (hfuel : messages.length ≤ fuel) (hreadable : ReadableFrom gap messages)
    (hdrop : body.drop cursor = gap ++ (arrayBytes messages ++ 0x5d :: later))
    (hstop : stop = cursor + gap.length + (arrayBytes messages).length) :
    messagesFrom body stop fuel cursor done = .ok (done ++ messages.map ChatMessage.meaning) := by
  induction messages generalizing fuel gap cursor done with
  | nil =>
      rw [List.map_nil, List.append_nil]
      cases fuel with
      | zero => rfl
      | succ fuel =>
          rw [messagesFrom]
          split
          next => rfl
          next =>
              cases hfind : findFrom body roleKey cursor with
              | none => rfl
              | some key =>
                  obtain ⟨n, hn, rfl⟩ := Option.map_eq_some_iff.1 hfind
                  have hle := @le_offsetOf roleKey gap later 0x5d n (by decide) hreadable
                    (by rw [← hn, hdrop]; rfl)
                  have hlength : (arrayBytes []).length = 0 := rfl
                  exact if_pos (by omega)
  | cons message rest ih =>
      obtain ⟨fuel, rfl⟩ := Nat.exists_eq_succ_of_ne_zero
        (by rw [List.length_cons] at hfuel; omega : fuel ≠ 0)
      obtain ⟨hfirst, hrole, hcontent, hgap, hmiddle, hrest⟩ := hreadable
      have hdrop' : body.drop cursor = gap ++ (message.bytes ++ (separator rest ++
          (arrayBytes rest ++ 0x5d :: later))) := by
        rw [hdrop, arrayBytes]
        simp only [List.append_assoc]
      have hlength : (arrayBytes (message :: rest)).length =
          message.bytes.length + (separator rest).length + (arrayBytes rest).length := by
        rw [arrayBytes, List.length_append, List.length_append, Nat.add_assoc]
      obtain ⟨next, hnext, hposition, hstep⟩ := @messagesFrom_message body cursor stop fuel gap _
        message done hfirst hrole hcontent hgap hmiddle hdrop' (by omega)
      rw [hstep, ih (by rw [List.length_cons] at hfuel; omega) hrest
        (by rw [hnext, List.append_assoc]) (by rw [List.length_append]; omega), List.map_cons,
        List.append_assoc]
      rfl

end Loop

/-! ### The whole request -/

theorem length_le_members (members : List Member) :
    members.length ≤ (members.flatMap (fun m => m.bytes ++ [0x2c])).length := by
  induction members with
  | nil => exact Nat.le_refl 0
  | cons m rest ih =>
      rw [List.flatMap_cons, List.length_append, List.length_append, List.length_cons,
        List.length_singleton]
      omega

theorem length_le_arrayBytes (messages : List ChatMessage) :
    messages.length ≤ (arrayBytes messages).length := by
  induction messages with
  | nil => exact Nat.le_refl 0
  | cons message rest ih =>
      rw [arrayBytes, ChatMessage.bytes, ChatMessage.head]
      simp only [List.length_append, List.length_cons]
      omega

/-- The messages of a readable request are read as they are meant. -/
theorem parseMessages_of_readable (request : ChatRequest) (h : request.Readable) :
    parseMessages request.bytes = .ok (request.messages.map ChatMessage.meaning) := by
  have hbody : request.bytes.drop 0 = request.lead.bytes ++ 0x7b :: (request.before.flatMap
      (fun m => m.bytes ++ [0x2c]) ++ (request.beforeKey.bytes ++ (stringBytes request.key ++
        (request.beforeColon.bytes ++ 0x3a :: (request.afterColon.bytes ++ request.array))))) := rfl
  have hstart := request.lead.skip (by decide) hbody
  have hopen := drop_behind hbody
  have hbehind := @drop_behind request.bytes _ [0x7b] _ hopen
  have htotal : request.before.length < request.bytes.length ∧
      request.messages.length ≤ request.bytes.length := by
    have hbefore := length_le_members request.before
    have harray := length_le_arrayBytes request.messages
    rw [ChatRequest.bytes, ChatRequest.array]
    simp only [List.length_append, List.length_cons]
    omega
  obtain ⟨position, hposition, harray⟩ := topLevelKeyFrom_found htotal.1 request.before_name
    request.key_name (by decide : isSpace 0x5b = false) hbehind
  have hskip := @skipSpace_eq request.bytes position [] _ 0x5b (fun b hb => by cases hb) (by decide)
    harray
  have hend := matchingArrayEnd_eq harray
  have hinside := @drop_behind request.bytes position [0x5b] _ harray
  have hread := @messagesFrom_eq request.bytes (position + 1)
    (position + 1 + (arrayBytes request.messages).length) request.bytes.length [] request.later
    request.messages [] htotal.2 h hinside rfl
  have hne : request.messages.map ChatMessage.meaning ≠ [] := by
    rw [Ne, List.map_eq_nil_iff]
    exact request.messages_ne
  rw [Nat.zero_add] at hstart
  have htop : topLevelKey request.bytes (utf8 "messages") = .ok (some position) := by
    rw [topLevelKey, hstart]
    rw [Nat.zero_add] at hopen
    simp only [getElem?_of_drop hopen, ne_eq, not_true_eq_false, if_false]
    rw [Nat.zero_add] at hposition
    exact hposition
  rw [parseMessages, htop]
  simp only [bind, Except.bind, show skipSpace request.bytes position = position from hskip, hend,
    hread, List.nil_append, if_neg hne]


/-! ### Requests without escapes and white space -/

section Plain

theorem isRaw_iff (c : Char) : 0x20 ≤ c.toNat ∧ c ≠ '"' ∧ c ≠ '\\' ↔ IsRaw c :=
  ⟨fun h => ⟨h.1, h.2.1, h.2.2⟩, fun h => ⟨h.printable, h.ne_quote, h.ne_backslash⟩⟩

instance (c : Char) : Decidable (IsRaw c) := decidable_of_iff _ (isRaw_iff c)

/-- The characters of a text that may stand in a string as they are. -/
def plainText (text : String) : List StringChar :=
  text.toList.filterMap fun c => if h : IsRaw c then some (.char (.raw c h)) else none

theorem blank_nil : ∀ byte ∈ ([] : List UInt8), isJsonSpace byte = true := List.forall_mem_nil _

def noSpaces : Spaces := ⟨[], blank_nil⟩

def plainMember (key text : String) : StringMember where
  before := noSpaces
  key := plainText key
  beforeColon := noSpaces
  afterColon := noSpaces
  text := plainText text
  after := noSpaces

theorem plainMember_role (text : String) : (plainMember "role" text).toMember.name = utf8 "role" := by
  show (plainText "role").flatMap StringChar.decoded = utf8 "role"
  decide

theorem plainMember_content (text : String) :
    (plainMember "content" text).toMember.name = utf8 "content" := by
  show (plainText "content").flatMap StringChar.decoded = utf8 "content"
  decide

theorem plain_others : ∀ m ∈ ([] : List Member) ++ [] ++ [],
    m.name ≠ utf8 "role" ∧ m.name ≠ utf8 "content" := List.forall_mem_nil _

/-- A message of a role and a content, in either order. -/
def plainMessage (contentFirst : Bool) (role content : String)
    (hrole : (plainMember "role" role).decoded ∈ roles) : ChatMessage where
  lead := noSpaces
  contentFirst := contentFirst
  before := []
  role := plainMember "role" role
  between := []
  content := plainMember "content" content
  after := []
  trail := noSpaces
  role_name := plainMember_role role
  content_name := plainMember_content content
  role_mem := hrole
  others := plain_others

theorem plain_before : ∀ m ∈ ([] : List Member), m.name ≠ utf8 "messages" := List.forall_mem_nil _

theorem plainText_messages : (plainText "messages").flatMap StringChar.decoded = utf8 "messages" := by
  decide

/-- A request of nothing but messages. -/
def plainRequest (messages : List ChatMessage) (hne : messages ≠ []) : ChatRequest where
  lead := noSpaces
  before := []
  beforeKey := noSpaces
  key := plainText "messages"
  beforeColon := noSpaces
  afterColon := noSpaces
  messages := messages
  later := [0x7d]
  before_name := plain_before
  key_name := plainText_messages
  messages_ne := hne

theorem role_user : (plainMember "role" "user").decoded ∈ roles := by decide

theorem role_system : (plainMember "role" "system").decoded ∈ roles := by decide

/-- A request whose role comes first. -/
def greeting : ChatRequest :=
  plainRequest [plainMessage false "user" "hi" role_user] (List.cons_ne_nil _ _)

theorem greeting_readable : greeting.Readable := by
  refine ⟨rfl, ?_, ?_, ?_, ?_, ?_⟩
  · decide
  · decide
  · show offsetOf _ _ = some _
    decide
  · show offsetOf _ _ = some _
    decide
  · show offsetOf _ _ = none
    decide

theorem parseMessages_greeting :
    parseMessages greeting.bytes = .ok (greeting.messages.map ChatMessage.meaning) :=
  parseMessages_of_readable greeting greeting_readable

/-- A request whose first message has its content in front of its role. -/
def contentFirst : ChatRequest :=
  plainRequest [plainMessage true "system" "a" role_system, plainMessage false "user" "b" role_user]
    (List.cons_ne_nil _ _)

/-- The first role gets the content of the second message, and one message is lost. -/
theorem parseMessages_content_first :
    contentFirst.bytes = utf8 ("\x7b\"messages\":[\x7b\"content\":\"a\",\"role\":\"system\"\x7d," ++
        "\x7b\"role\":\"user\",\"content\":\"b\"\x7d]\x7d") ∧
      contentFirst.messages.map ChatMessage.meaning =
        [⟨utf8 "system", utf8 "a"⟩, ⟨utf8 "user", utf8 "b"⟩] ∧
      parseMessages contentFirst.bytes = .ok [⟨utf8 "system", utf8 "b"⟩] := by
  refine ⟨?_, ?_, ?_⟩
  · decide
  · decide
  · decide +kernel

end Plain

end VBuf.Compat
