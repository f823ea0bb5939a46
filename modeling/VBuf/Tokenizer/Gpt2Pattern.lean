import VBuf.Lib.Pattern
import VBuf.Tokenizer.ByteAlphabet

/-!
# The regular expression of the pre-tokenizer

The classes of characters are those of the Unicode tables.  A cursor between two
characters has the characters behind it, and a match is as long as their bytes.
-/

namespace VBuf.Tokenizer

open VBuf.Lib

/-- The classes `\p{L}`, `\p{N}` and `\s`. -/
structure CharClasses where
  letter : Char → Bool
  number : Char → Bool
  space : Char → Bool

/-- `[\r\n]`. -/
def lineEnd (c : Char) : Bool := c == '\r' || c == '\n'

/-- One of some characters. -/
def oneOf (cases : List Char) : Pattern Char := .run cases.contains 1 (some 1)

/-- `(?i:'s|'t|'re|'ve|'m|'ll|'d)`; a long s is a small one in another case. -/
def contractions : Pattern Char :=
  .alt (.seq (oneOf ['\'']) (oneOf ['s', 'S', 'ſ'])) <|
  .alt (.seq (oneOf ['\'']) (oneOf ['t', 'T'])) <|
  .alt (.seq (oneOf ['\'']) (.seq (oneOf ['r', 'R']) (oneOf ['e', 'E']))) <|
  .alt (.seq (oneOf ['\'']) (.seq (oneOf ['v', 'V']) (oneOf ['e', 'E']))) <|
  .alt (.seq (oneOf ['\'']) (oneOf ['m', 'M'])) <|
  .alt (.seq (oneOf ['\'']) (.seq (oneOf ['l', 'L']) (oneOf ['l', 'L'])))
    (.seq (oneOf ['\'']) (oneOf ['d', 'D']))

/-- The expression that `build` compiles. -/
def gpt2Pattern (classes : CharClasses) : Pattern Char :=
  .alt contractions <|
  .alt (.seq (.run (fun c => !(lineEnd c || classes.letter c || classes.number c)) 0 (some 1))
    (.run classes.letter 1 none)) <|
  .alt (.run classes.number 1 (some 3)) <|
  .alt (.seq (.run (fun c => c == ' ') 0 (some 1))
    (.seq (.run (fun c => !(classes.space c || classes.letter c || classes.number c)) 1 none)
      (.run lineEnd 0 none))) <|
  .alt (.seq (.run classes.space 0 none) (.run lineEnd 1 none))
    (.run classes.space 1 none)

theorem minLength_gpt2Pattern (classes : CharClasses) : (gpt2Pattern classes).minLength = 1 := rfl

/-! ### Characters and their bytes -/

/-- The bytes of some characters. -/
def bytesOf (chars : List Char) : List UInt8 := chars.flatMap String.utf8EncodeChar

@[simp] theorem bytesOf_append (a b : List Char) : bytesOf (a ++ b) = bytesOf a ++ bytesOf b :=
  List.flatMap_append

theorem utf8_eq_bytesOf (s : String) : utf8 s = bytesOf s.toList := utf8_eq_flatMap s

theorem fromUtf8_bytesOf (chars : List Char) : fromUtf8 (bytesOf chars) = some (String.ofList chars) := by
  rw [fromUtf8_eq_some_iff, utf8_eq_bytesOf, String.toList_ofList]

theorem length_le_length_bytesOf (chars : List Char) : chars.length ≤ (bytesOf chars).length := by
  induction chars with
  | nil => exact Nat.le_refl 0
  | cons c rest ih =>
      have hfirst : 1 ≤ (String.utf8EncodeChar c).length := by
        rw [utf8EncodeChar_eq]
        repeat' split
        all_goals exact Nat.le_add_left 1 _
      rw [bytesOf, List.flatMap_cons, List.length_append, List.length_cons]
      rw [bytesOf] at ih
      omega

/-- More characters have more bytes. -/
theorem length_bytesOf_take_lt {chars : List Char} {m n : Nat} (h : m < n) (hn : n ≤ chars.length) :
    (bytesOf (chars.take m)).length < (bytesOf (chars.take n)).length := by
  have hsplit := List.take_append_drop m (chars.take n)
  rw [List.take_take, Nat.min_eq_left (Nat.le_of_lt h)] at hsplit
  have hrest := length_le_length_bytesOf ((chars.take n).drop m)
  rw [List.length_drop, List.length_take, Nat.min_eq_left hn] at hrest
  rw [← hsplit, bytesOf_append, List.length_append]
  omega

/-! ### The pre-tokenizer -/

/-- `find_at`, at a cursor between two characters. -/
def gpt2FindAt (classes : CharClasses) (text : List UInt8) (cursor : Nat) : Option (Nat × Nat) :=
  (fromUtf8 (text.drop cursor)).bind fun rest =>
    ((gpt2Pattern classes).find rest.toList).map fun found =>
      (cursor + (bytesOf (rest.toList.take found.1)).length,
        cursor + (bytesOf (rest.toList.take (found.1 + found.2))).length)

theorem gpt2FindAt_bytesOf {classes : CharClasses} {text : List UInt8} {cursor : Nat}
    {rest : List Char} (h : text.drop cursor = bytesOf rest) :
    gpt2FindAt classes text cursor = ((gpt2Pattern classes).find rest).map fun found =>
      (cursor + (bytesOf (rest.take found.1)).length,
        cursor + (bytesOf (rest.take (found.1 + found.2))).length) := by
  rw [gpt2FindAt, h, fromUtf8_bytesOf, Option.bind_some, String.toList_ofList]

/-- What a match is. -/
theorem gpt2FindAt_eq_some {classes : CharClasses} {text : List UInt8} {cursor start stop : Nat}
    (h : gpt2FindAt classes text cursor = some (start, stop)) :
    ∃ rest i n, text.drop cursor = bytesOf rest ∧ (gpt2Pattern classes).find rest = some (i, n) ∧
      1 ≤ n ∧ i + n ≤ rest.length ∧ start = cursor + (bytesOf (rest.take i)).length ∧
      stop = cursor + (bytesOf (rest.take (i + n))).length := by
  obtain ⟨s, hs, hfound⟩ := Option.bind_eq_some_iff.1 h
  obtain ⟨⟨i, n⟩, hfind, heq⟩ := Option.map_eq_some_iff.1 hfound
  cases heq
  have hbounds := Pattern.find_bounds hfind
  rw [minLength_gpt2Pattern, List.length_drop] at hbounds
  refine ⟨s.toList, i, n, ?_, hfind, hbounds.1, by omega, rfl, rfl⟩
  rw [← utf8_eq_bytesOf, fromUtf8_eq_some_iff.1 hs]

/-- The pre-tokenizer of `build`. -/
def gpt2PreTokenizer (classes : CharClasses) : PreTokenizer where
  findAt := gpt2FindAt classes
  cursor_le := by
    intro text cursor start stop h
    obtain ⟨rest, i, n, -, -, -, -, rfl, -⟩ := gpt2FindAt_eq_some h
    exact Nat.le_add_right cursor _
  start_lt := by
    intro text cursor start stop h
    obtain ⟨rest, i, n, -, -, hpos, hle, rfl, rfl⟩ := gpt2FindAt_eq_some h
    exact Nat.add_lt_add_left (length_bytesOf_take_lt (by omega) hle) cursor
  stop_le := by
    intro text cursor start stop h
    obtain ⟨rest, i, n, hrest, -, hpos, hle, -, rfl⟩ := gpt2FindAt_eq_some h
    have hlength := congrArg List.length hrest
    have hchars := length_le_length_bytesOf rest
    have htake : (bytesOf (rest.take (i + n))).length ≤ (bytesOf rest).length := by
      conv_rhs => rw [← List.take_append_drop (i + n) rest]
      rw [bytesOf_append, List.length_append]
      exact Nat.le_add_right _ _
    rw [List.length_drop] at hlength
    omega

/-- A match at the cursor is the preferred one of the characters behind it. -/
theorem gpt2FindAt_cursor {classes : CharClasses} {text : List UInt8} {cursor stop : Nat}
    {rest : List Char} (h : text.drop cursor = bytesOf rest) :
    gpt2FindAt classes text cursor = some (cursor, stop) ↔
      ∃ n, ((gpt2Pattern classes).lengths rest).head? = some n ∧
        stop = cursor + (bytesOf (rest.take n)).length := by
  rw [gpt2FindAt_bytesOf h]
  constructor
  · intro hfind
    obtain ⟨⟨i, n⟩, hfound, heq⟩ := Option.map_eq_some_iff.1 hfind
    rw [Prod.mk.injEq] at heq
    have hbounds := Pattern.find_bounds hfound
    rw [minLength_gpt2Pattern, List.length_drop] at hbounds
    have hzero : i = 0 := by
      by_contra hne
      have hlt := @length_bytesOf_take_lt rest 0 i (by omega) (by omega)
      rw [List.take_zero] at hlt
      simp only at heq
      have hempty : (bytesOf []).length = 0 := rfl
      omega
    subst hzero
    refine ⟨n, Pattern.find_eq_zero_iff.1 hfound, ?_⟩
    rw [← heq.2, Nat.zero_add]
  · rintro ⟨n, hn, rfl⟩
    rw [Pattern.find_eq_zero_iff.2 hn, Option.map_some, Nat.zero_add]
    rfl

/-- A match that ends in a text is that of the text, whatever comes behind it. -/
theorem gpt2FindAt_front {classes : CharClasses} {text longer : List UInt8} {cursor stop : Nat}
    {rest later : List Char} (htext : text.drop cursor = bytesOf rest)
    (hlonger : longer.drop cursor = bytesOf (rest ++ later))
    (hstop : stop ≤ cursor + (bytesOf rest).length)
    (h : gpt2FindAt classes longer cursor = some (cursor, stop)) :
    ∃ n, n ≤ rest.length ∧ stop = cursor + (bytesOf (rest.take n)).length ∧
      gpt2FindAt classes text cursor = some (cursor, stop) := by
  obtain ⟨n, hn, rfl⟩ := (gpt2FindAt_cursor hlonger).1 h
  have hle : n ≤ rest.length := by
    by_contra hlt
    have hbounds := (Pattern.lengths_bounds (List.mem_of_mem_head? hn)).2
    have hmore := length_bytesOf_take_lt (Nat.lt_of_not_le hlt) hbounds
    rw [List.take_left] at hmore
    omega
  have htake : (rest ++ later).take n = rest.take n := List.take_append_of_le_length hle
  rw [htake] at hstop ⊢
  exact ⟨n, hle, rfl, (gpt2FindAt_cursor htext).2
    ⟨n, Pattern.head?_lengths_append hn hle, rfl⟩⟩

/-- What is in front of a text only moves its matches. -/
theorem gpt2FindAt_behind (classes : CharClasses) (front text : List UInt8) (cursor : Nat) :
    gpt2FindAt classes (front ++ text) (front.length + cursor) =
      (gpt2FindAt classes text cursor).map fun found =>
        (front.length + found.1, front.length + found.2) := by
  unfold gpt2FindAt
  rw [List.drop_append, List.drop_eq_nil_of_le (Nat.le_add_right _ _), List.nil_append,
    Nat.add_sub_cancel_left]
  cases fromUtf8 (text.drop cursor) with
  | none => rfl
  | some rest =>
      simp only [Option.bind_some, Option.map_map]
      congr 1
      funext found
      simp only [Function.comp_apply, Nat.add_assoc]

end VBuf.Tokenizer
