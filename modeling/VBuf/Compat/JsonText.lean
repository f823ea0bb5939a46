import VBuf.Compat.JsonString

/-!
# JSON texts

The grammar of JSON on bytes, and the search for the bracket that closes: it counts one
kind of brackets outside strings, and steps over every text of the grammar.
-/

namespace VBuf.Compat

open VBuf.Lib VBuf.Tokenizer

/-! ### The grammar -/

/-- White space of the grammar. -/
def isJsonSpace (byte : UInt8) : Bool :=
  byte == 0x20 || byte == 0x09 || byte == 0x0a || byte == 0x0d

/-- A byte of a number or of a literal name. -/
def isScalarByte (byte : UInt8) : Bool :=
  !(isJsonSpace byte || byte == 0x0b || byte == 0x0c || byte == 0x22 || byte == 0x2c ||
    byte == 0x5b || byte == 0x5d || byte == 0x7b || byte == 0x7d)

inductive JsonPart
  | value
  | elements
  | members
  deriving DecidableEq, Repr

/-- A character of a string; the escape of a surrogate may stand alone. -/
inductive StringChar
  | char (c : LiteralChar)
  | lone (unit : Nat) (h : 0xd800 ≤ unit ∧ unit < 0xe000) (upper : Fin 4 → Bool)

namespace StringChar

/-- The bytes that are written. -/
def bytes : StringChar → List UInt8
  | char c => c.bytes
  | lone unit _ upper => unicodeEscape unit upper

/-- The bytes that `json_string` makes of it. -/
def decoded : StringChar → List UInt8
  | char c => c.decoded
  | lone unit _ _ => appendUtf8 unit

theorem readsAs (c : StringChar) : ReadsAs c.bytes c.decoded := by
  cases c with
  | char c => exact c.readsAs
  | lone unit h upper => exact readsAs_unicode (by omega) upper

end StringChar

/-- The bytes of a string. -/
def stringBytes (literal : List StringChar) : List UInt8 :=
  quoted (literal.flatMap StringChar.bytes)

/-- The texts of values, and of what is between the brackets of arrays and objects. -/
inductive JsonText : JsonPart → List UInt8 → Prop
  | string (literal : List StringChar) : JsonText .value (stringBytes literal)
  | scalar {bytes : List UInt8} (hne : bytes ≠ []) (h : ∀ byte ∈ bytes, isScalarByte byte = true) :
      JsonText .value bytes
  | emptyArray {space : List UInt8} (h : ∀ byte ∈ space, isJsonSpace byte = true) :
      JsonText .value (0x5b :: (space ++ [0x5d]))
  | array {elements : List UInt8} (h : JsonText .elements elements) :
      JsonText .value (0x5b :: (elements ++ [0x5d]))
  | emptyObject {space : List UInt8} (h : ∀ byte ∈ space, isJsonSpace byte = true) :
      JsonText .value (0x7b :: (space ++ [0x7d]))
  | object {members : List UInt8} (h : JsonText .members members) :
      JsonText .value (0x7b :: (members ++ [0x7d]))
  | element {before value after : List UInt8} (hbefore : ∀ byte ∈ before, isJsonSpace byte = true)
      (h : JsonText .value value) (hafter : ∀ byte ∈ after, isJsonSpace byte = true) :
      JsonText .elements (before ++ value ++ after)
  | elementComma {element elements : List UInt8} (h : JsonText .elements element)
      (hrest : JsonText .elements elements) : JsonText .elements (element ++ 0x2c :: elements)
  | member {before beforeColon afterColon value after : List UInt8} (key : List StringChar)
      (hbefore : ∀ byte ∈ before, isJsonSpace byte = true)
      (hbeforeColon : ∀ byte ∈ beforeColon, isJsonSpace byte = true)
      (hafterColon : ∀ byte ∈ afterColon, isJsonSpace byte = true) (h : JsonText .value value)
      (hafter : ∀ byte ∈ after, isJsonSpace byte = true) :
      JsonText .members (before ++ stringBytes key ++ beforeColon ++ 0x3a :: afterColon ++ value ++ after)
  | memberComma {member members : List UInt8} (h : JsonText .members member)
      (hrest : JsonText .members members) : JsonText .members (member ++ 0x2c :: members)

/-! ### The closing bracket -/

/-- The loop that both searches for a closing bracket share: the number of bytes in front
of the bracket that closes the depth. -/
def closing (opening closer : UInt8) : List UInt8 → Nat → Bool → Bool → Option Nat
  | [], _, _, _ => none
  | byte :: rest, depth, inString, escaped =>
      if inString = true then
        (if escaped = true then closing opening closer rest depth true false
          else if byte = 0x5c then closing opening closer rest depth true true
          else if byte = 0x22 then closing opening closer rest depth false false
          else closing opening closer rest depth true false).map (· + 1)
      else if byte = 0x22 then (closing opening closer rest depth true false).map (· + 1)
      else if byte = opening then (closing opening closer rest (depth + 1) false false).map (· + 1)
      else if byte = closer then
        if depth = 1 then some 0
        else (closing opening closer rest (depth - 1) false false).map (· + 1)
      else (closing opening closer rest depth false false).map (· + 1)

variable {opening closer : UInt8}

/-- The search steps over a piece between strings. -/
def Neutral (opening closer : UInt8) (piece : List UInt8) : Prop :=
  ∀ rest depth, 1 ≤ depth → closing opening closer (piece ++ rest) depth false false =
    (closing opening closer rest depth false false).map (· + piece.length)

/-- The search steps over a piece of a string. -/
def NeutralInString (opening closer : UInt8) (piece : List UInt8) : Prop :=
  ∀ rest depth, closing opening closer (piece ++ rest) depth true false =
    (closing opening closer rest depth true false).map (· + piece.length)

theorem Neutral.nil : Neutral opening closer [] := by
  intro rest depth _
  simp

theorem Neutral.append {first second : List UInt8} (h : Neutral opening closer first)
    (h' : Neutral opening closer second) : Neutral opening closer (first ++ second) := by
  intro rest depth hdepth
  rw [List.append_assoc, h _ _ hdepth, h' _ _ hdepth, Option.map_map, List.length_append]
  congr 1
  funext n
  simp only [Function.comp_apply]
  omega

theorem Neutral.byte {byte : UInt8} (hquote : byte ≠ 0x22) (hopening : byte ≠ opening)
    (hcloser : byte ≠ closer) : Neutral opening closer [byte] := by
  intro rest depth _
  rw [List.singleton_append, closing, if_neg Bool.false_ne_true, if_neg hquote, if_neg hopening,
    if_neg hcloser]
  rfl

theorem Neutral.bytes {piece : List UInt8}
    (h : ∀ byte ∈ piece, byte ≠ 0x22 ∧ byte ≠ opening ∧ byte ≠ closer) :
    Neutral opening closer piece := by
  induction piece with
  | nil => exact .nil
  | cons byte rest ih =>
      rw [List.forall_mem_cons] at h
      exact (Neutral.byte h.1.1 h.1.2.1 h.1.2.2).append (ih h.2)

/-- Brackets around a neutral piece. -/
theorem Neutral.brackets {piece : List UInt8} (hopening : opening ≠ 0x22) (hcloser : closer ≠ 0x22)
    (hne : closer ≠ opening) (h : Neutral opening closer piece) :
    Neutral opening closer (opening :: (piece ++ [closer])) := by
  intro rest depth hdepth
  have hopen : closing opening closer (opening :: (piece ++ [closer]) ++ rest) depth false false =
      (closing opening closer (piece ++ (closer :: rest)) (depth + 1) false false).map (· + 1) := by
    rw [List.cons_append, closing, if_neg Bool.false_ne_true, if_neg hopening, if_pos rfl,
      List.append_assoc]
    rfl
  have hclose : closing opening closer (closer :: rest) (depth + 1) false false =
      (closing opening closer rest depth false false).map (· + 1) := by
    rw [closing, if_neg Bool.false_ne_true, if_neg hcloser, if_neg hne, if_pos rfl,
      if_neg (by omega), Nat.add_sub_cancel]
  rw [hopen, h _ _ (by omega), hclose, Option.map_map, Option.map_map, List.length_cons,
    List.length_append, List.length_singleton]
  congr 1
  funext n
  simp only [Function.comp_apply]
  omega

theorem NeutralInString.append {first second : List UInt8}
    (h : NeutralInString opening closer first) (h' : NeutralInString opening closer second) :
    NeutralInString opening closer (first ++ second) := by
  intro rest depth
  rw [List.append_assoc, h, h', Option.map_map, List.length_append]
  congr 1
  funext n
  simp only [Function.comp_apply]
  omega

theorem NeutralInString.nil : NeutralInString opening closer [] := by
  intro rest depth
  simp

theorem NeutralInString.bytes {piece : List UInt8}
    (h : ∀ byte ∈ piece, byte ≠ 0x22 ∧ byte ≠ 0x5c) : NeutralInString opening closer piece := by
  induction piece with
  | nil => exact .nil
  | cons byte rest ih =>
      rw [List.forall_mem_cons] at h
      have hbyte : NeutralInString opening closer [byte] := by
        intro rest depth
        rw [List.singleton_append, closing, if_pos rfl, if_neg Bool.false_ne_true, if_neg h.1.2,
          if_neg h.1.1]
        rfl
      exact hbyte.append (ih h.2)

theorem NeutralInString.escape (escaped : UInt8) :
    NeutralInString opening closer [0x5c, escaped] := by
  intro rest depth
  show closing opening closer (0x5c :: escaped :: rest) depth true false = _
  rw [closing, if_pos rfl, if_neg Bool.false_ne_true, if_pos rfl, closing, if_pos rfl, if_pos rfl,
    Option.map_map]
  rfl

theorem casedHex_ne {value : Nat} (h : value < 16) (upper : Bool) :
    casedHex value upper ≠ 0x22 ∧ casedHex value upper ≠ 0x5c := by
  have hall : ∀ value < 16, ∀ upper, casedHex value upper ≠ 0x22 ∧ casedHex value upper ≠ 0x5c := by
    decide
  exact hall value h upper

theorem NeutralInString.unicodeEscape (unit : Nat) (upper : Fin 4 → Bool) :
    NeutralInString opening closer (unicodeEscape unit upper) := by
  refine (NeutralInString.escape 0x75).append (NeutralInString.bytes ?_)
  simp only [List.forall_mem_cons]
  exact ⟨casedHex_ne (Nat.mod_lt _ (by decide)) _, casedHex_ne (Nat.mod_lt _ (by decide)) _,
    casedHex_ne (Nat.mod_lt _ (by decide)) _, casedHex_ne (Nat.mod_lt _ (by decide)) _,
    List.forall_mem_nil _⟩

theorem NeutralInString.literalChar (c : LiteralChar) : NeutralInString opening closer c.bytes := by
  cases c with
  | raw c h => exact .bytes (LiteralChar.ne_of_mem_utf8EncodeChar h)
  | short escape => exact .escape escape.letter
  | unicode c h upper => exact .unicodeEscape c.toNat upper
  | surrogates c h upperHigh upperLow =>
      exact (NeutralInString.unicodeEscape _ upperHigh).append (.unicodeEscape _ upperLow)

theorem NeutralInString.stringChar (c : StringChar) : NeutralInString opening closer c.bytes := by
  cases c with
  | char c => exact .literalChar c
  | lone unit h upper => exact .unicodeEscape unit upper

/-- A string is stepped over. -/
theorem Neutral.string (literal : List StringChar) :
    Neutral opening closer (stringBytes literal) := by
  have hcontent : NeutralInString opening closer (literal.flatMap StringChar.bytes) := by
    induction literal with
    | nil => exact .nil
    | cons c rest ih =>
        rw [List.flatMap_cons]
        exact (NeutralInString.stringChar c).append ih
  intro rest depth _
  have hclose : closing opening closer (0x22 :: rest) depth true false =
      (closing opening closer rest depth false false).map (· + 1) := by
    rw [closing, if_pos rfl, if_neg Bool.false_ne_true, if_neg (by decide), if_pos rfl]
  have hopen : closing opening closer (stringBytes literal ++ rest) depth false false =
      (closing opening closer (literal.flatMap StringChar.bytes ++ 0x22 :: rest) depth true
        false).map (· + 1) := by
    rw [stringBytes, quoted, List.cons_append, closing, if_neg Bool.false_ne_true, if_pos rfl,
      List.append_assoc]
    rfl
  rw [hopen, hcontent, hclose, Option.map_map, Option.map_map, stringBytes, quoted,
    List.length_cons, List.length_append, List.length_singleton]
  congr 1
  funext n
  simp only [Function.comp_apply]
  omega

/-- The two kinds of brackets. -/
def IsBrackets (opening closer : UInt8) : Prop :=
  (opening = 0x5b ∧ closer = 0x5d) ∨ (opening = 0x7b ∧ closer = 0x7d)

theorem Neutral.space (hbrackets : IsBrackets opening closer) {space : List UInt8}
    (h : ∀ byte ∈ space, isJsonSpace byte = true) : Neutral opening closer space := by
  refine .bytes ?_
  intro byte hmem
  have hspace := h byte hmem
  simp only [isJsonSpace, Bool.or_eq_true, beq_iff_eq] at hspace
  rcases hbrackets with ⟨rfl, rfl⟩ | ⟨rfl, rfl⟩
  all_goals
    rcases hspace with ((rfl | rfl) | rfl) | rfl
    all_goals decide

/-- Brackets of either kind around a neutral piece. -/
theorem Neutral.anyBrackets (hbrackets : IsBrackets opening closer) {piece : List UInt8}
    {left right : UInt8} (hkind : IsBrackets left right) (h : Neutral opening closer piece) :
    Neutral opening closer (left :: (piece ++ [right])) := by
  rcases hbrackets with ⟨rfl, rfl⟩ | ⟨rfl, rfl⟩
  · rcases hkind with ⟨rfl, rfl⟩ | ⟨rfl, rfl⟩
    · exact h.brackets (by decide) (by decide) (by decide)
    · exact (@Neutral.byte 0x5b 0x5d 0x7b (by decide) (by decide) (by decide)).append
        (h.append (.byte (by decide) (by decide) (by decide)))
  · rcases hkind with ⟨rfl, rfl⟩ | ⟨rfl, rfl⟩
    · exact (@Neutral.byte 0x7b 0x7d 0x5b (by decide) (by decide) (by decide)).append
        (h.append (.byte (by decide) (by decide) (by decide)))
    · exact h.brackets (by decide) (by decide) (by decide)

theorem Neutral.mark (hbrackets : IsBrackets opening closer) {byte : UInt8}
    (h : byte = 0x2c ∨ byte = 0x3a) : Neutral opening closer [byte] := by
  rcases hbrackets with ⟨rfl, rfl⟩ | ⟨rfl, rfl⟩
  all_goals
    rcases h with rfl | rfl
    all_goals exact .byte (by decide) (by decide) (by decide)

/-- The search steps over every text of the grammar. -/
theorem JsonText.neutral (hbrackets : IsBrackets opening closer) {part : JsonPart}
    {text : List UInt8} (h : JsonText part text) : Neutral opening closer text := by
  induction h with
  | string literal => exact .string literal
  | scalar _ hbytes =>
      refine .bytes ?_
      intro byte hmem
      have hscalar := hbytes byte hmem
      simp only [isScalarByte, Bool.not_eq_true', Bool.or_eq_false_iff, beq_eq_false_iff_ne]
        at hscalar
      rcases hbrackets with ⟨rfl, rfl⟩ | ⟨rfl, rfl⟩
      · exact ⟨by tauto, by tauto, by tauto⟩
      · exact ⟨by tauto, by tauto, by tauto⟩
  | emptyArray hspace => exact (Neutral.space hbrackets hspace).anyBrackets hbrackets (Or.inl ⟨rfl, rfl⟩)
  | array _ ih => exact ih.anyBrackets hbrackets (Or.inl ⟨rfl, rfl⟩)
  | emptyObject hspace => exact (Neutral.space hbrackets hspace).anyBrackets hbrackets (Or.inr ⟨rfl, rfl⟩)
  | object _ ih => exact ih.anyBrackets hbrackets (Or.inr ⟨rfl, rfl⟩)
  | element hbefore _ hafter ih =>
      exact ((Neutral.space hbrackets hbefore).append ih).append (.space hbrackets hafter)
  | elementComma _ _ ih ihRest =>
      exact ih.append ((Neutral.mark hbrackets (Or.inl rfl)).append ihRest)
  | member key hbefore hbeforeColon hafterColon _ hafter ih =>
      refine Neutral.append (Neutral.append ?_ ih) (.space hbrackets hafter)
      refine Neutral.append ?_ ((Neutral.mark hbrackets (Or.inr rfl)).append
        (.space hbrackets hafterColon))
      exact ((Neutral.space hbrackets hbefore).append (.string key)).append
        (.space hbrackets hbeforeColon)
  | memberComma _ _ ih ihRest =>
      exact ih.append ((Neutral.mark hbrackets (Or.inl rfl)).append ihRest)

/-- The bracket behind a neutral piece is the closing one. -/
theorem Neutral.closing_eq {piece : List UInt8} (h : Neutral opening closer piece)
    (hcloser : closer ≠ 0x22) (hne : closer ≠ opening) (rest : List UInt8) :
    closing opening closer (piece ++ closer :: rest) 1 false false = some piece.length := by
  rw [h _ _ (Nat.le_refl 1), closing, if_neg Bool.false_ne_true, if_neg hcloser, if_neg hne,
    if_pos rfl, if_pos rfl, Option.map_some, Nat.zero_add]

end VBuf.Compat
