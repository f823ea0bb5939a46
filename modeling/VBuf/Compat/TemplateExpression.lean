import Mathlib.Data.List.DropRight
import VBuf.Compat.ParseMessages

/-!
# Expressions of a chat template

`split_plus` looks one byte back to tell an escaped quote from a closing one.  It finds
the terms when no literal but the last one ends in an escaped backslash.
-/

namespace VBuf.Compat

open VBuf.Lib VBuf.Tokenizer

/-! ### The evaluation -/

/-- The white space at both ends is dropped. -/
def trimSpace (bytes : List UInt8) : List UInt8 := (bytes.dropWhile isSpace).rdropWhile isSpace

/-- What a byte behind a backslash stands for. -/
def literalEscape (byte : UInt8) : UInt8 :=
  if byte = 0x6e then 0x0a
  else if byte = 0x72 then 0x0d
  else if byte = 0x74 then 0x09
  else byte

/-- The loop of `literal_value`; a backslash at the end takes the closing quote. -/
def unescape : List UInt8 → List UInt8
  | [] => []
  | [byte] => if byte = 0x5c then [0x27] else [byte]
  | byte :: escaped :: rest =>
      if byte = 0x5c then literalEscape escaped :: unescape rest
      else byte :: unescape (escaped :: rest)

/-- `literal_value`. -/
def literalValue (expression : List UInt8) : Except String (List UInt8) :=
  let text := trimSpace expression
  if text.length < 2 ∨ text.head? ≠ some 0x27 ∨ text.getLast? ≠ some 0x27 then
    .error "unsupported chat-template expression"
  else .ok (unescape text.tail.dropLast)

/-- The loop of `split_plus` behind a part that has been read. -/
def splitPlusFrom : Bool → Bool → List UInt8 → List UInt8 → List (List UInt8)
  | _, _, part, [] => [part]
  | quoted, escaped, part, byte :: rest =>
      -- a quote counts unless the byte in front of it is a backslash
      let quoted := if byte = 0x27 ∧ escaped = false then !quoted else quoted
      if quoted = false ∧ byte = 0x2b then part :: splitPlusFrom quoted false [] rest
      else splitPlusFrom quoted (byte == 0x5c) (part ++ [byte]) rest

/-- `split_plus`. -/
def splitPlus (expression : List UInt8) : List (List UInt8) :=
  splitPlusFrom false false [] expression

/-- `PromptPart`. -/
structure PromptPart where
  text : List UInt8
  special : Option UInt32
  deriving DecidableEq, Repr

/-- The texts and the ids of the two special tokens. -/
structure SpecialTokens where
  bosText : List UInt8
  eosText : List UInt8
  bosId : UInt32
  eosId : UInt32

def contentTerm : List UInt8 := utf8 "message['content']"

def bosTerm : List UInt8 := utf8 "bos_token"

def eosTerm : List UInt8 := utf8 "eos_token"

section Evaluation

variable (tokens : SpecialTokens) (message : Option Message)

/-- One term of `evaluate_template_expression`. -/
def evaluateTerm (raw : List UInt8) : Except String PromptPart :=
  let term := trimSpace raw
  if term = contentTerm then .ok ⟨(message.map Message.content).getD [], none⟩
  else if term = bosTerm then .ok ⟨tokens.bosText, some tokens.bosId⟩
  else if term = eosTerm then .ok ⟨tokens.eosText, some tokens.eosId⟩
  else do
    let text ← literalValue raw
    .ok ⟨text, none⟩

/-- `evaluate_template_expression`. -/
def evaluateTemplateExpression (expression : List UInt8) : Except String (List PromptPart) :=
  (splitPlus expression).mapM (evaluateTerm tokens message)

end Evaluation

/-! ### Expressions -/

/-- White space of a template. -/
structure Blanks where
  bytes : List UInt8
  blank : ∀ byte ∈ bytes, isSpace byte = true

/-- A byte of a literal, with the way in which it is written. -/
inductive LiteralPiece
  | raw (byte : UInt8) (h : byte ≠ 0x27 ∧ byte ≠ 0x5c)
  | escaped (byte : UInt8)
  deriving DecidableEq

namespace LiteralPiece

/-- The bytes that are written. -/
def bytes : LiteralPiece → List UInt8
  | raw byte _ => [byte]
  | escaped byte => [0x5c, byte]

/-- The byte that is meant. -/
def meaning : LiteralPiece → UInt8
  | raw byte _ => byte
  | escaped byte => literalEscape byte

end LiteralPiece

/-- What a term is without the white space around it. -/
inductive TermWord
  | literal (pieces : List LiteralPiece)
  | content
  | bos
  | eos

namespace TermWord

def bytes : TermWord → List UInt8
  | literal pieces => 0x27 :: (pieces.flatMap LiteralPiece.bytes ++ [0x27])
  | content => contentTerm
  | bos => bosTerm
  | eos => eosTerm

/-- The part of the prompt that is meant; there is no content outside the loop. -/
def part (tokens : SpecialTokens) (message : Option Message) : TermWord → PromptPart
  | literal pieces => ⟨pieces.map LiteralPiece.meaning, none⟩
  | content => ⟨(message.map Message.content).getD [], none⟩
  | bos => ⟨tokens.bosText, some tokens.bosId⟩
  | eos => ⟨tokens.eosText, some tokens.eosId⟩

/-- A literal whose last byte is a backslash, which is written as an escape. -/
def EndsEscaped : TermWord → Prop
  | literal pieces => ∃ front, pieces = front ++ [.escaped 0x5c]
  | _ => False

end TermWord

structure Term where
  before : Blanks
  word : TermWord
  after : Blanks

def Term.bytes (term : Term) : List UInt8 :=
  term.before.bytes ++ (term.word.bytes ++ term.after.bytes)

/-- Terms with a plus between each two. -/
structure Expression where
  first : Term
  rest : List Term

namespace Expression

variable (expression : Expression)

def terms : List Term := expression.first :: expression.rest

def bytes : List UInt8 :=
  expression.first.bytes ++ expression.rest.flatMap fun term => 0x2b :: term.bytes

/-- The parts of the prompt that are meant. -/
def parts (tokens : SpecialTokens) (message : Option Message) : List PromptPart :=
  expression.terms.map fun term => term.word.part tokens message

/-- No literal but the last one ends in an escaped backslash. -/
def Splits : Prop := ∀ term ∈ expression.terms.dropLast, ¬ term.word.EndsEscaped

end Expression

/-! ### Quotes -/

/-- The loop of `split_plus` takes a piece into the part. -/
def Passes (quoted escaped : Bool) (piece : List UInt8) (quoted' escaped' : Bool) : Prop :=
  ∀ part rest, splitPlusFrom quoted escaped part (piece ++ rest) =
    splitPlusFrom quoted' escaped' (part ++ piece) rest

namespace Passes

variable {quoted escaped quoted' escaped' : Bool}

theorem nil : Passes quoted escaped [] quoted escaped := by
  intro part rest
  rw [List.append_nil]
  rfl

theorem append {quoted'' escaped'' : Bool} {first second : List UInt8}
    (h : Passes quoted escaped first quoted' escaped')
    (h' : Passes quoted' escaped' second quoted'' escaped'') :
    Passes quoted escaped (first ++ second) quoted'' escaped'' := by
  intro part rest
  rw [List.append_assoc, h, h', List.append_assoc]

theorem byte {byte : UInt8} (hquote : byte ≠ 0x27) (hplus : byte ≠ 0x2b) :
    Passes quoted escaped [byte] quoted (byte == 0x5c) := by
  intro part rest
  rw [List.singleton_append, splitPlusFrom]
  simp only [hquote, hplus, false_and, and_false, if_false]

theorem quotedByte {byte : UInt8} (hquote : byte ≠ 0x27) :
    Passes true escaped [byte] true (byte == 0x5c) := by
  intro part rest
  rw [List.singleton_append, splitPlusFrom]
  simp only [hquote, false_and, if_false, Bool.true_eq_false]

theorem escapedByte (byte : UInt8) : Passes true true [byte] true (byte == 0x5c) := by
  intro part rest
  rw [List.singleton_append, splitPlusFrom]
  simp only [Bool.true_eq_false, and_false, false_and, if_false]

theorem quote : Passes quoted false [0x27] (!quoted) false := by
  intro part rest
  rw [List.singleton_append, splitPlusFrom]
  simp only [and_self, if_true, show ¬ (0x27 : UInt8) = 0x2b by decide, and_false, if_false]
  rfl

theorem plain {piece : List UInt8}
    (h : ∀ byte ∈ piece, byte ≠ 0x27 ∧ byte ≠ 0x2b ∧ byte ≠ 0x5c) :
    Passes quoted false piece quoted false := by
  induction piece with
  | nil => exact nil
  | cons first piece ih =>
      rw [List.forall_mem_cons] at h
      have hfirst : Passes quoted false [first] quoted (first == 0x5c) := byte h.1.1 h.1.2.1
      rw [beq_eq_false_iff_ne.2 h.1.2.2] at hfirst
      exact hfirst.append (ih h.2)

theorem blanks (space : Blanks) : Passes quoted false space.bytes quoted false := by
  refine plain fun byte hmem => ?_
  have hspace := space.blank byte hmem
  refine ⟨?_, ?_, ?_⟩
  all_goals
    rintro rfl
    exact absurd hspace (by decide)

/-- The quotes inside a literal are all escaped. -/
theorem pieces (pieces : List LiteralPiece) :
    ∃ escaped, Passes true false (pieces.flatMap LiteralPiece.bytes) true escaped ∧
      (escaped = true → ∃ front, pieces = front ++ [.escaped 0x5c]) := by
  induction pieces using List.reverseRecOn with
  | nil => exact ⟨false, nil, fun h => by cases h⟩
  | append_singleton front piece ih =>
      obtain ⟨before, hfront, -⟩ := ih
      rw [List.flatMap_append, List.flatMap_singleton]
      cases piece with
      | raw byte h =>
          refine ⟨byte == 0x5c, hfront.append (quotedByte h.1), fun hescaped => ?_⟩
          exact absurd (beq_iff_eq.1 hescaped) h.2
      | escaped byte =>
          have hbackslash : Passes true before [0x5c] true true := quotedByte (by decide)
          refine ⟨byte == 0x5c, hfront.append (hbackslash.append (escapedByte byte)),
            fun hescaped => ?_⟩
          rw [beq_iff_eq] at hescaped
          exact ⟨front, by rw [hescaped]⟩

theorem contentTerm : Passes false false contentTerm false false := by
  have hword : Compat.contentTerm =
      utf8 "message[" ++ ([0x27] ++ (utf8 "content" ++ ([0x27] ++ utf8 "]"))) := by
    decide +kernel
  rw [hword]
  exact (plain (by decide +kernel)).append (quote.append ((plain (by decide +kernel)).append
    (quote.append (plain (by decide +kernel)))))

/-- A term is taken into the part; a quote stays open behind an escaped backslash. -/
theorem word (word : TermWord) : ∃ open', Passes false false word.bytes open' false ∧
    (open' = true → word.EndsEscaped) := by
  cases word with
  | literal pieces =>
      obtain ⟨escaped, hpieces, hends⟩ := Passes.pieces pieces
      have hopen : Passes false false [0x27] true false := quote
      cases escaped with
      | false => exact ⟨false, hopen.append (hpieces.append quote), fun h => by cases h⟩
      | true => exact ⟨true, hopen.append (hpieces.append (escapedByte 0x27)), fun _ => hends rfl⟩
  | content => exact ⟨false, Passes.contentTerm, fun h => by cases h⟩
  | bos => exact ⟨false, plain (by decide +kernel), fun h => by cases h⟩
  | eos => exact ⟨false, plain (by decide +kernel), fun h => by cases h⟩

theorem term (term : Term) : ∃ open', Passes false false term.bytes open' false ∧
    (open' = true → term.word.EndsEscaped) := by
  obtain ⟨open', hword, hends⟩ := Passes.word term.word
  exact ⟨open', (blanks term.before).append (hword.append (blanks term.after)), hends⟩

end Passes

/-- The terms of an expression are found. -/
theorem splitPlus_eq (expression : Expression) (h : expression.Splits) :
    splitPlus expression.bytes = expression.terms.map Term.bytes := by
  obtain ⟨first, rest⟩ := expression
  rw [splitPlus, Expression.bytes, Expression.terms]
  simp only [Expression.Splits, Expression.terms] at h
  induction rest generalizing first with
  | nil =>
      obtain ⟨open', hfirst, -⟩ := Passes.term first
      rw [List.flatMap_nil, hfirst]
      rfl
  | cons second rest ih =>
      obtain ⟨open', hfirst, hends⟩ := Passes.term first
      rw [List.dropLast_cons_of_ne_nil (List.cons_ne_nil _ _), List.forall_mem_cons] at h
      have hclosed : open' = false := by
        rw [← Bool.not_eq_true]
        exact fun hopen => h.1 (hends hopen)
      rw [hclosed] at hfirst
      rw [hfirst, List.flatMap_cons, List.cons_append, splitPlusFrom]
      simp only [show ¬ (0x2b : UInt8) = 0x27 by decide, false_and, if_false, and_self, if_true]
      rw [ih second h.2]
      rfl

/-! ### Terms -/

theorem trimSpace_eq {before after word : List UInt8} (hbefore : ∀ b ∈ before, isSpace b = true)
    (hafter : ∀ b ∈ after, isSpace b = true) (hfirst : ∀ b ∈ word.head?, isSpace b = false)
    (hlast : ∀ b ∈ word.getLast?, isSpace b = false) (hne : word ≠ []) :
    trimSpace (before ++ (word ++ after)) = word := by
  have hfront : (before ++ (word ++ after)).dropWhile isSpace = word ++ after := by
    obtain ⟨first, tail, rfl⟩ := List.exists_cons_of_ne_nil hne
    rw [List.dropWhile_append_of_pos hbefore, List.cons_append,
      List.dropWhile_cons_of_neg (by rw [hfirst first rfl]; exact Bool.false_ne_true)]
  rw [trimSpace, hfront]
  clear hfront
  induction after using List.reverseRecOn with
  | nil =>
      rw [List.append_nil, List.rdropWhile_eq_self_iff]
      intro hne
      rw [hlast _ (List.getLast_mem_getLast? hne)]
      exact Bool.false_ne_true
  | append_singleton front last ih =>
      rw [List.forall_mem_append, List.forall_mem_singleton] at hafter
      rw [← List.append_assoc, List.rdropWhile_concat_pos _ _ _ hafter.2]
      exact ih hafter.1

theorem unescape_piece (piece : LiteralPiece) (rest : List UInt8) :
    unescape (piece.bytes ++ rest) = piece.meaning :: unescape rest := by
  cases piece with
  | raw byte h =>
      cases rest with
      | nil => exact if_neg h.2
      | cons next rest => exact if_neg h.2
  | escaped byte => exact if_pos rfl

theorem unescape_eq (pieces : List LiteralPiece) :
    unescape (pieces.flatMap LiteralPiece.bytes) = pieces.map LiteralPiece.meaning := by
  induction pieces with
  | nil => rfl
  | cons piece rest ih => rw [List.flatMap_cons, unescape_piece, ih, List.map_cons]

/-- The white space around a word is dropped. -/
theorem Term.trimSpace_bytes (term : Term) : trimSpace term.bytes = term.word.bytes := by
  have hquote : isSpace 0x27 = false := by decide
  have hword : (∀ b ∈ term.word.bytes.head?, isSpace b = false) ∧
      (∀ b ∈ term.word.bytes.getLast?, isSpace b = false) ∧ term.word.bytes ≠ [] := by
    cases term.word with
    | literal pieces =>
        refine ⟨?_, ?_, List.cons_ne_nil _ _⟩
        · rintro b ⟨⟩
          exact hquote
        · rw [TermWord.bytes, ← List.cons_append, List.getLast?_concat]
          rintro b ⟨⟩
          exact hquote
    | content => decide +kernel
    | bos => decide +kernel
    | eos => decide +kernel
  exact trimSpace_eq term.before.blank term.after.blank hword.1 hword.2.1 hword.2.2

/-- A term is evaluated to the part that it means. -/
theorem evaluateTerm_eq (tokens : SpecialTokens) (message : Option Message) (term : Term) :
    evaluateTerm tokens message term.bytes = .ok (term.word.part tokens message) := by
  rw [evaluateTerm, term.trimSpace_bytes]
  have htrim := term.trimSpace_bytes
  cases hword : term.word with
  | literal pieces =>
      have hhead : ∀ {other : List UInt8}, other.head? ≠ some 0x27 →
          (TermWord.literal pieces).bytes ≠ other := by
        rintro other hother rfl
        exact hother rfl
      rw [if_neg (hhead (by decide +kernel)), if_neg (hhead (by decide +kernel)),
        if_neg (hhead (by decide +kernel))]
      rw [hword, TermWord.bytes] at htrim
      have hlength : ¬ (0x27 :: (pieces.flatMap LiteralPiece.bytes ++ [0x27])).length < 2 := by
        rw [List.length_cons, List.length_append, List.length_singleton]
        omega
      have hlast : (0x27 :: (pieces.flatMap LiteralPiece.bytes ++ [0x27])).getLast? = some 0x27 := by
        rw [← List.cons_append, List.getLast?_concat]
      have hvalue : literalValue term.bytes = .ok (pieces.map LiteralPiece.meaning) := by
        rw [literalValue, htrim]
        simp only [hlength, hlast, List.head?_cons, ne_eq, not_true_eq_false, or_self, if_false,
          List.tail_cons, List.dropLast_concat, unescape_eq]
      rw [hvalue]
      rfl
  | content => exact if_pos rfl
  | bos =>
      rw [if_neg (by decide +kernel : ¬ TermWord.bos.bytes = contentTerm)]
      exact if_pos rfl
  | eos =>
      rw [if_neg (by decide +kernel : ¬ TermWord.eos.bytes = contentTerm),
        if_neg (by decide +kernel : ¬ TermWord.eos.bytes = bosTerm)]
      exact if_pos rfl

/-- An expression is evaluated to the parts that it means. -/
theorem evaluateTemplateExpression_eq (tokens : SpecialTokens) (message : Option Message)
    (expression : Expression) (h : expression.Splits) :
    evaluateTemplateExpression tokens message expression.bytes =
      .ok (expression.parts tokens message) := by
  rw [evaluateTemplateExpression, splitPlus_eq expression h, Expression.parts]
  generalize expression.terms = terms
  induction terms with
  | nil => rfl
  | cons term rest ih =>
      rw [List.map_cons, List.mapM_cons, evaluateTerm_eq, ih]
      rfl

end VBuf.Compat
