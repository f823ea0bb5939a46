import VBuf.Ggml.HttpReceive
import VBuf.Lib.Utf8

/-!
# Range reads stay in step

Where the server spells the two fields as the client looks for them, or gives them the values
that are asked for, each call reads its own response to the end, however it is cut.  Elsewhere a
response that comes byte by byte passes for another.  The client reads a range more loosely than
`bytes <first>-<last>/<length>`; a range that only it takes for the requested one passes too.
-/

namespace VBuf.Ggml.HttpRangeSource

open VBuf.Lib

/-! ### Fields -/

/-- A letter in lower case. -/
def lowerCase (byte : UInt8) : UInt8 := if 65 ≤ byte ∧ byte ≤ 90 then byte + 32 else byte

/-- A line is a field of that name, in any letter case. -/
def HasName (name line : List UInt8) : Prop := name.map lowerCase <+: line.map lowerCase

instance (name line : List UInt8) : Decidable (HasName name line) :=
  inferInstanceAs (Decidable (_ <+: _))

theorem hasName_of_exact {name line : List UInt8} (h : name <+: line) : HasName name line :=
  h.map lowerCase

/-! ### Ranges -/

/-- A space or a tab. -/
def isBlank (byte : UInt8) : Bool := byte == 32 || byte == 9

/-- Decimal digits of a number. -/
structure IsNumber (digits : List UInt8) (number : Nat) : Prop where
  nonempty : digits ≠ []
  decimal : ∀ digit ∈ digits, isDigit digit = true
  value : digitsValue digits = number

/-- The value of a field is `bytes <first>-<last>/<length>`, the length a number or `*`, between
blanks and the end of the line. -/
structure IsContentRange (value : List UInt8) (first last : Nat) : Prop where
  grammar : ∃ before gap firstDigits lastDigits length after,
    value = before ++ (bytesUnit ++ (gap ++ firstDigits ++
      45 :: ([] ++ lastDigits ++ 47 :: (length ++ after)))) ∧
    (∀ byte ∈ before, isBlank byte = true) ∧
    gap ≠ [] ∧ (∀ byte ∈ gap, isBlank byte = true) ∧
    IsNumber firstDigits first ∧ IsNumber lastDigits last ∧
    (length = [42] ∨ ∃ number, IsNumber length number) ∧
    ∀ byte ∈ after, (isBlank byte || byte == 13) = true

theorem isSpace_of_isBlank {byte : UInt8} (h : isBlank byte = true) : isSpace byte = true := by
  rw [isBlank, Bool.or_eq_true, beq_iff_eq, beq_iff_eq] at h
  rcases h with rfl | rfl <;> rfl

/-- A digit is no space and no sign. -/
theorem ne_of_isDigit {byte : UInt8} (h : isDigit byte = true) :
    isSpace byte = false ∧ byte ≠ 45 ∧ byte ≠ 43 := by
  rw [isDigit, Bool.and_eq_true, decide_eq_true_iff, decide_eq_true_iff,
    UInt8.le_iff_toNat_le, UInt8.le_iff_toNat_le] at h
  have h48 : (48 : UInt8).toNat = 48 := rfl
  refine ⟨?_, ?_, ?_⟩
  · rw [isSpace, Bool.or_eq_false_iff, beq_eq_false_iff_ne, Bool.and_eq_false_iff,
      decide_eq_false_iff_not, decide_eq_false_iff_not]
    refine ⟨?_, Or.inr ?_⟩
    · rintro rfl
      exact absurd h.1 (by decide)
    · rw [UInt8.le_iff_toNat_le]
      have h13 : (13 : UInt8).toNat = 13 := rfl
      omega
  · rintro rfl
    exact absurd h.1 (by decide)
  · rintro rfl
    exact absurd h.1 (by decide)

theorem dropWhile_isSpace {blanks rest : List UInt8}
    (hblanks : ∀ byte ∈ blanks, isBlank byte = true)
    (hrest : (rest.head?.map isSpace) = some false) :
    (blanks ++ rest).dropWhile isSpace = rest := by
  rw [List.dropWhile_append_of_pos fun byte hmem => isSpace_of_isBlank (hblanks byte hmem)]
  cases rest with
  | nil => rfl
  | cons byte rest =>
      rw [List.dropWhile_cons_of_neg]
      have hbyte : isSpace byte = false := Option.some.inj hrest
      rw [hbyte]
      exact Bool.false_ne_true

/-- A number between blanks and another character is read to its end. -/
theorem readUnsigned_number {blanks digits rest : List UInt8} {number : UInt64}
    (hblanks : ∀ byte ∈ blanks, isBlank byte = true) (h : IsNumber digits number.toNat)
    (hrest : (rest.head?.map isDigit) ≠ some true) :
    readUnsigned (blanks ++ digits ++ rest) = some (number, rest) := by
  obtain ⟨first, others, rfl⟩ := List.exists_cons_of_ne_nil h.nonempty
  obtain ⟨hspace, hminus, hplus⟩ := ne_of_isDigit (h.decimal first List.mem_cons_self)
  have htrimmed : (blanks ++ (first :: others) ++ rest).dropWhile isSpace =
      (first :: others) ++ rest := by
    rw [List.append_assoc]
    exact dropWhile_isSpace hblanks (congrArg some hspace)
  have htake : ((first :: others) ++ rest).takeWhile isDigit = first :: others := by
    rw [List.takeWhile_append_of_pos h.decimal]
    cases rest with
    | nil => simp
    | cons byte rest =>
        rw [List.takeWhile_cons_of_neg, List.append_nil]
        exact fun hbyte => hrest (congrArg some hbyte)
  have hdrop : ((first :: others) ++ rest).dropWhile isDigit = rest := by
    rw [List.dropWhile_append_of_pos h.decimal]
    cases rest with
    | nil => rfl
    | cons byte rest =>
        rw [List.dropWhile_cons_of_neg]
        exact fun hbyte => hrest (congrArg some hbyte)
  have hsigns : ((first :: others) ++ rest).head? ≠ some 45 ∧
      ((first :: others) ++ rest).head? ≠ some 43 :=
    ⟨fun heq => hminus (Option.some.inj heq), fun heq => hplus (Option.some.inj heq)⟩
  have hvalue : ¬ (first :: others = [] ∨ UInt64.size ≤ number.toNat) :=
    not_or.2 ⟨List.cons_ne_nil _ _, Nat.not_le.2 number.toNat_lt⟩
  unfold readUnsigned
  dsimp only
  rw [htrimmed, if_neg (not_or.2 hsigns), htake, hdrop, h.value, if_neg hvalue, if_neg hsigns.1,
    UInt64.ofNat_toNat]

/-- The client takes the requested range for what it is. -/
theorem IsContentRange.isRequestedRange {value : List UInt8} {first last : UInt64}
    (h : IsContentRange value first.toNat last.toNat) :
    isRequestedRange value first last = true := by
  obtain ⟨before, gap, firstDigits, lastDigits, length, after, rfl, hbefore, hgap, hblanks, hfirst,
    hlast, -, -⟩ := h.grammar
  obtain ⟨blank, blanks, rfl⟩ := List.exists_cons_of_ne_nil hgap
  have hblank := isSpace_of_isBlank (hblanks blank List.mem_cons_self)
  have htrimmed := fun rest : List UInt8 =>
    @dropWhile_isSpace before (bytesUnit ++ rest) hbefore rfl
  have htoken : readToken (before ++ (bytesUnit ++ (blank :: blanks ++ firstDigits ++
      45 :: ([] ++ lastDigits ++ 47 :: (length ++ after))))) =
        some (bytesUnit, blank :: blanks ++ firstDigits ++
          45 :: ([] ++ lastDigits ++ 47 :: (length ++ after))) := by
    have hunit : ∀ byte ∈ bytesUnit, (!isSpace byte) = true := by decide +kernel
    have hstop : (!isSpace blank) = false := by
      rw [hblank]
      rfl
    unfold readToken
    dsimp only
    rw [htrimmed, if_neg (by simp [bytesUnit]), List.takeWhile_append_of_pos hunit,
      List.dropWhile_append_of_pos hunit]
    simp [hstop]
  have hfirstRead := @readUnsigned_number (blank :: blanks) firstDigits
    (45 :: ([] ++ lastDigits ++ 47 :: (length ++ after))) first hblanks hfirst (by simp [isDigit])
  have hlastRead := @readUnsigned_number [] lastDigits (47 :: (length ++ after)) last
    (fun byte hmem => absurd hmem List.not_mem_nil) hlast (by simp [isDigit])
  unfold HttpRangeSource.isRequestedRange
  rw [htoken]
  dsimp only
  rw [hfirstRead]
  dsimp only
  rw [List.dropWhile_cons_of_neg (by decide)]
  dsimp only
  rw [hlastRead]
  simp

namespace HttpResponse

/-- The lines of the fields. -/
def fieldLines (response : HttpResponse) : List (List UInt8) := (headerLines response.header).tail

/-- The status is 206. -/
def Partial (response : HttpResponse) : Prop :=
  isPartialContent ((headerLines response.header).headD []) = true

instance (response : HttpResponse) : Decidable response.Partial :=
  inferInstanceAs (Decidable (_ = true))

/-- A complete response, framed by its `Content-Length` in any letter case. -/
structure WellFormed (response : HttpResponse) : Prop where
  ends : bodyStart response.header = some response.header.length
  short : response.header.length ≤ 65536
  framed : ∃ line ∈ response.fieldLines, HasName contentLengthName line
  lengths : ∀ line ∈ response.fieldLines, HasName contentLengthName line →
    (readUnsigned (line.drop contentLengthName.length)).map Prod.fst =
      some (UInt64.ofNat response.body.length)
  fits : response.body.length < UInt64.size
  ranges : ∀ line ∈ response.fieldLines, HasName contentRangeName line →
    line.drop contentRangeName.length ≠ []
  oneRange : (response.fieldLines.filter fun line => HasName contentRangeName line).length ≤ 1

end HttpResponse

theorem not_both_names {line : List UInt8} (hlength : contentLengthName <+: line) :
    ¬ contentRangeName <+: line := by
  intro hrange
  have hprefix : contentRangeName <+: contentLengthName :=
    List.prefix_of_prefix_length_le hrange hlength (by decide)
  revert hprefix
  decide

/-- What the client reads of the lines: the fields that are spelled as it looks for them. -/
theorem readFields_eq {lines : List (List UInt8)} {length : UInt64} (fields : HeaderFields)
    (hlengths : ∀ line ∈ lines, contentLengthName <+: line →
      (readUnsigned (line.drop contentLengthName.length)).map Prod.fst = some length) :
    readFields lines fields = some
      { contentLength :=
          if ∃ line ∈ lines, contentLengthName <+: line then some length
          else fields.contentLength
        contentRange := (((lines.filter fun line => contentRangeName <+: line).getLast?).map
          fun line => line.drop contentRangeName.length).getD fields.contentRange } := by
  -- The fields read so far are the defaults for the lines that follow.
  induction lines generalizing fields with
  | nil => simp [readFields]
  | cons line rest ih =>
      have hrest := fun other hmem => hlengths other (List.mem_cons_of_mem line hmem)
      rw [readFields]
      split
      next hname =>
        obtain ⟨⟨read, text⟩, htext, hread⟩ :=
          Option.map_eq_some_iff.1 (hlengths line List.mem_cons_self hname)
        obtain rfl : read = length := hread
        rw [htext]
        dsimp only
        rw [ih _ hrest, List.filter_cons_of_neg (by simpa using not_both_names hname)]
        have hexists : ∃ other ∈ line :: rest, contentLengthName <+: other :=
          ⟨line, List.mem_cons_self, hname⟩
        rw [if_pos hexists]
        simp
      next hname =>
        have hiff : (∃ other ∈ line :: rest, contentLengthName <+: other) ↔
            ∃ other ∈ rest, contentLengthName <+: other := by
          simp [hname]
        split
        next hrange =>
          rw [ih _ hrest, List.filter_cons_of_pos (by simpa using hrange)]
          simp only [hiff]
          rw [List.getLast?_cons]
          cases (rest.filter fun line => contentRangeName <+: line).getLast? <;> rfl
        next hrange =>
          rw [ih _ hrest, List.filter_cons_of_neg (by simpa using hrange)]
          simp only [hiff]

/-! ### A call -/

namespace HttpResponse

variable {response : HttpResponse} {offset length last : UInt64}

/-- The range field, in any letter case, is the range that is asked for. -/
def RangeRequested (response : HttpResponse) (offset last : UInt64) : Prop :=
  ∀ line ∈ response.fieldLines, HasName contentRangeName line →
    IsContentRange (line.drop contentRangeName.length) offset.toNat last.toNat

/-- The client sees the fields where this matters: a length or a range that it refuses in front of
a longer body, and every other range than the requested one in front of a body of its length. -/
structure Spelled (response : HttpResponse) (offset length last : UInt64) : Prop where
  lengthSpelled : response.Partial → length.toNat < response.body.length →
    (∃ line ∈ response.fieldLines, contentLengthName <+: line) ∨
      ∃ line ∈ response.fieldLines, contentRangeName <+: line ∧
        isRequestedRange (line.drop contentRangeName.length) offset last = false
  rangeSpelled : response.Partial → response.body.length = length.toNat →
    ∀ line ∈ response.fieldLines, HasName contentRangeName line →
      IsContentRange (line.drop contentRangeName.length) offset.toNat last.toNat ∨
        contentRangeName <+: line ∧
          isRequestedRange (line.drop contentRangeName.length) offset last = false

/-- What a call returns that reads this response. -/
def expected (response : HttpResponse) (offset length last : UInt64) : Option ReadResult :=
  if isPartialContent ((headerLines response.header).headD []) = false then some .refused
  else if response.body.length = length.toNat ∧ ∀ line ∈ response.fieldLines,
      HasName contentRangeName line →
        isRequestedRange (line.drop contentRangeName.length) offset last = true then
    some (.accepted response.body [])
  else if response.body.length < length.toNat ∧
      ¬ ∃ line ∈ response.fieldLines, contentLengthName <+: line then none
  else some .refused

/-- The range that the client reads. -/
def readRangeField (response : HttpResponse) : List UInt8 :=
  (((response.fieldLines.filter fun line => contentRangeName <+: line).getLast?).map
    fun line => line.drop contentRangeName.length).getD []

/-- The length that the client reads. -/
def readLengthField (response : HttpResponse) : Option UInt64 :=
  if ∃ line ∈ response.fieldLines, contentLengthName <+: line then
    some (UInt64.ofNat response.body.length)
  else none

/-- The client reads no length, or the one that it has asked for. -/
def seesLength (response : HttpResponse) (length : UInt64) : Prop :=
  response.readLengthField = none ∨ response.readLengthField = some length

instance (response : HttpResponse) (length : UInt64) : Decidable (response.seesLength length) :=
  inferInstanceAs (Decidable (_ ∨ _))

theorem WellFormed.not_seesLength_iff (h : response.WellFormed) :
    ¬ response.seesLength length ↔
      (∃ line ∈ response.fieldLines, contentLengthName <+: line) ∧
        response.body.length ≠ length.toNat := by
  have hlength : UInt64.ofNat response.body.length = length ↔
      response.body.length = length.toNat := by
    rw [← UInt64.toNat_inj, UInt64.toNat_ofNat_of_lt' h.fits]
  unfold seesLength readLengthField
  split
  next hexact => simp [hlength, hexact]
  next hnone => simp [hnone]

/-- What the checks of the header find. -/
theorem WellFormed.checkHeader_eq (h : response.WellFormed) (length : UInt64) :
    checkHeader length response.header =
      some (if response.Partial ∧ response.seesLength length then
        some ⟨response.readLengthField, response.readRangeField⟩ else none) := by
  have hfields : readFields (headerLines response.header).tail ⟨none, []⟩ =
      some ⟨response.readLengthField, response.readRangeField⟩ :=
    @readFields_eq response.fieldLines (UInt64.ofNat response.body.length) ⟨none, []⟩
      fun line hmem hname => h.lengths line hmem (hasName_of_exact hname)
  unfold checkHeader
  dsimp only
  rw [hfields]
  dsimp only
  by_cases hpart : response.Partial
  · rw [if_neg (by simpa [Partial] using hpart)]
    by_cases hsees : response.seesLength length
    · rw [if_neg (fun hboth => (not_or.2 hboth) hsees), if_pos ⟨hpart, hsees⟩]
    · rw [if_pos (not_or.1 hsees), if_neg (fun hboth => hsees hboth.2)]
  · rw [if_pos (by simpa [Partial] using hpart), if_neg (fun hboth => hpart hboth.1)]

/-- The client reads a range field if it is spelled as it looks for it. -/
theorem WellFormed.readRangeField_cases (h : response.WellFormed) :
    (response.readRangeField = [] ∧
        ∀ line ∈ response.fieldLines, ¬ contentRangeName <+: line) ∨
      ∃ line ∈ response.fieldLines, contentRangeName <+: line ∧
        response.readRangeField = line.drop contentRangeName.length ∧
        response.readRangeField ≠ [] ∧
        ∀ other ∈ response.fieldLines, HasName contentRangeName other → other = line := by
  cases hlast : (response.fieldLines.filter fun line => contentRangeName <+: line).getLast? with
  | none =>
      left
      rw [List.getLast?_eq_none_iff, List.filter_eq_nil_iff] at hlast
      refine ⟨?_, fun line hmem hname => hlast line hmem (by simpa using hname)⟩
      rw [readRangeField, List.getLast?_eq_none_iff.2 (List.filter_eq_nil_iff.2 hlast)]
      rfl
  | some line =>
      right
      have hmem := List.mem_filter.1 (List.mem_of_getLast? hlast)
      have hname : contentRangeName <+: line := by simpa using hmem.2
      have hvalue : response.readRangeField = line.drop contentRangeName.length := by
        rw [readRangeField, hlast]
        rfl
      refine ⟨line, hmem.1, hname, hvalue, ?_, ?_⟩
      · rw [hvalue]
        exact h.ranges line hmem.1 (hasName_of_exact hname)
      · intro other hother hothername
        have hone := h.oneRange
        have hline : line ∈ response.fieldLines.filter fun line =>
            HasName contentRangeName line :=
          List.mem_filter.2 ⟨hmem.1, by simpa using hasName_of_exact hname⟩
        have hother' : other ∈ response.fieldLines.filter fun line =>
            HasName contentRangeName line :=
          List.mem_filter.2 ⟨hother, by simpa using hothername⟩
        -- Both are lines of a list of at most one.
        match hfilter : response.fieldLines.filter fun line => HasName contentRangeName line with
        | [] => rw [hfilter] at hline; cases hline
        | [single] =>
            rw [hfilter, List.mem_singleton] at hline hother'
            rw [hline, hother']
        | _ :: _ :: _ =>
            rw [hfilter] at hone
            simp at hone

/-- The check behind a body of the right length tells whether the range is requested. -/
theorem WellFormed.checkRange_iff (h : response.WellFormed)
    (hspelled : response.Spelled offset length last) (hpart : response.Partial)
    (hbody : response.body.length = length.toNat) (contentLength : Option UInt64) :
    checkRange offset last ⟨contentLength, response.readRangeField⟩ = true ↔
      ∀ line ∈ response.fieldLines, HasName contentRangeName line →
        isRequestedRange (line.drop contentRangeName.length) offset last = true := by
  unfold checkRange
  rw [decide_eq_true_iff]
  dsimp only
  rcases h.readRangeField_cases with
    ⟨hempty, hnone⟩ | ⟨line, hmem, hname, hvalue, hne, hunique⟩
  · refine iff_of_true (Or.inl hempty) fun line hmem hany => ?_
    rcases hspelled.rangeSpelled hpart hbody line hmem hany with hrange | ⟨hname, -⟩
    · exact hrange.isRequestedRange
    · exact absurd hname (hnone line hmem)
  · constructor
    · intro hcheck other hother hothername
      rw [hunique other hother hothername, ← hvalue]
      exact hcheck.resolve_left hne
    · intro hall
      right
      rw [hvalue]
      exact hall line hmem (hasName_of_exact hname)

/-- The header that is received is the one of the response, and the body starts behind it. -/
theorem WellFormed.readResponse_of_header (h : response.WellFormed) {cut : Nat → Nat}
    {received left : List UInt8} {turn : Nat}
    (hheader : receiveHeader cut ((response.header ++ response.body).length + 1) 0 []
      (response.header ++ response.body) = .done received left turn)
    (hstream : received ++ left = response.header ++ response.body)
    (hreached : response.header.length ≤ received.length) :
    received.drop response.header.length ++ left = response.body ∧
      readResponse cut offset length last (response.header ++ response.body) =
        if response.Partial ∧ response.seesLength length then
          readBody cut offset length last ⟨response.readLengthField, response.readRangeField⟩
            turn (received.drop response.header.length) left
        else some .refused := by
  have hstart : bodyStart received = some response.header.length := by
    rw [bodyStart_of_append (hstream ▸ (bodyStart_append h.ends response.body).2.2),
      if_pos hreached]
  have htake : received.take response.header.length = response.header := by
    have := congrArg (List.take response.header.length) hstream
    rwa [List.take_append_of_le_length hreached, List.take_left'] at this
    rfl
  have hbody : received.drop response.header.length ++ left = response.body := by
    have := congrArg (List.drop response.header.length) hstream
    rwa [List.drop_append_of_le_length hreached, List.drop_left'] at this
    rfl
  refine ⟨hbody, ?_⟩
  unfold readResponse
  rw [hheader]
  dsimp only
  rw [hstart, Option.getD_some, htake, h.checkHeader_eq]
  by_cases haccepts : response.Partial ∧ response.seesLength length
  · rw [if_pos haccepts, if_pos haccepts]
  · rw [if_neg haccepts, if_neg haccepts]

/-- A body of the length that is asked for is read to its end. -/
theorem WellFormed.readBody_eq (h : response.WellFormed)
    (hspelled : response.Spelled offset length last) (hpart : response.Partial)
    (hsame : response.body.length = length.toNat) {cut : Nat → Nat} {initial left : List UInt8}
    (hbody : initial ++ left = response.body) (contentLength : Option UInt64) (turn : Nat) :
    readBody cut offset length last ⟨contentLength, response.readRangeField⟩ turn initial left =
      if ∀ line ∈ response.fieldLines, HasName contentRangeName line →
          isRequestedRange (line.drop contentRangeName.length) offset last = true then
        some (.accepted response.body [])
      else some .refused := by
  have hbodyLength := congrArg List.length hbody
  rw [List.length_append] at hbodyLength
  obtain ⟨next, hnext⟩ := (@receiveBody_eq cut length.toNat (left.length + 1) turn _ _ _ hbody
    (by omega) (Nat.lt_succ_self _)).2.1 hsame
  rw [readBody, if_neg (by omega), hnext]
  dsimp only
  exact if_congr (h.checkRange_iff hspelled hpart hsame contentLength) rfl rfl

/-- A body that is longer, behind a range that is seen and not requested, is refused. -/
theorem WellFormed.readBody_refused (h : response.WellFormed) {line : List UInt8}
    (hmem : line ∈ response.fieldLines) (hname : contentRangeName <+: line)
    (hother : isRequestedRange (line.drop contentRangeName.length) offset last = false)
    (hlong : length.toNat < response.body.length) {cut : Nat → Nat} {initial left : List UInt8}
    (hbody : initial ++ left = response.body) (contentLength : Option UInt64) (turn : Nat) :
    readBody cut offset length last ⟨contentLength, response.readRangeField⟩ turn initial left =
      some .refused := by
  have hcheck : checkRange offset last ⟨contentLength, response.readRangeField⟩ = false := by
    rcases h.readRangeField_cases with ⟨-, hnone⟩ | ⟨found, -, -, hvalue, hne, hunique⟩
    · exact absurd hname (hnone line hmem)
    · unfold checkRange
      rw [decide_eq_false_iff_not, not_or]
      refine ⟨hne, ?_⟩
      dsimp only
      rw [hvalue, ← hunique line hmem (hasName_of_exact hname), hother]
      exact Bool.false_ne_true
  unfold readBody
  split
  · rfl
  next hinitial =>
    have hwaits := (@receiveBody_eq cut length.toNat (left.length + 1) turn _ _ _ hbody
      (by omega) (Nat.lt_succ_self _)).2.2 hlong
    split
    next hwaiting => exact absurd hwaiting hwaits
    · rfl
    · rw [hcheck]
      rfl

/-- A call that finds its own response reads it to the end, however it is cut. -/
theorem WellFormed.readResponse_eq (h : response.WellFormed)
    (hspelled : response.Spelled offset length last) (cut : Nat → Nat) :
    readResponse cut offset length last (response.header ++ response.body) =
      response.expected offset length last := by
  have hfour := (bodyStart_append h.ends []).1
  obtain ⟨received, left, turn, hheader, hstream, hreached⟩ := @receiveHeader_eq cut
    response.header response.body h.ends h.short ((response.header ++ response.body).length + 1)
    0 [] (response.header ++ response.body) rfl (by rw [List.length_nil]; omega)
    (Nat.lt_succ_self _)
  obtain ⟨hbody, hread⟩ := @WellFormed.readResponse_of_header response offset length last h cut
    received left turn hheader hstream hreached
  rw [hread, expected]
  by_cases hpart : response.Partial
  swap
  · rw [if_neg (fun hboth => hpart hboth.1), if_pos (by simpa [Partial] using hpart)]
  have hstatus : ¬ isPartialContent ((headerLines response.header).headD []) = false := by
    simpa [Partial] using hpart
  by_cases hsees : response.seesLength length
  swap
  · -- The client sees another length than it has asked for.
    obtain ⟨hexact, hother⟩ := h.not_seesLength_iff.1 hsees
    rw [if_neg (fun hboth => hsees hboth.2), if_neg hstatus,
      if_neg (fun hboth => hother hboth.1), if_neg (fun hboth => hboth.2 hexact)]
  rw [if_pos ⟨hpart, hsees⟩, if_neg hstatus]
  -- Another length gets this far only unseen.
  have hunseen : response.body.length ≠ length.toNat →
      ¬ ∃ line ∈ response.fieldLines, contentLengthName <+: line := fun hother hexact =>
    h.not_seesLength_iff.2 ⟨hexact, hother⟩ hsees
  rcases Nat.lt_trichotomy response.body.length length.toNat with hshort | hsame | hlong
  · -- It waits for more than the server has sent.
    have hbodyLength := congrArg List.length hbody
    rw [List.length_append] at hbodyLength
    have hwaits := (@receiveBody_eq cut length.toNat (left.length + 1) turn _ _ _ hbody
      (by omega) (Nat.lt_succ_self _)).1 hshort
    rw [readBody, if_neg (by omega), hwaits, if_neg (fun hboth => by omega),
      if_pos ⟨hshort, hunseen (by omega)⟩]
  · -- The check of the range decides.
    rw [h.readBody_eq hspelled hpart hsame hbody]
    simp only [hsame, true_and, Nat.lt_irrefl, false_and, if_false]
  · -- What it sees of the range is not what it has asked for.
    obtain ⟨line, hmem, hname, hother⟩ :=
      (hspelled.lengthSpelled hpart hlong).resolve_left (hunseen (by omega))
    rw [h.readBody_refused hmem hname hother hlong hbody, if_neg (fun hboth => by omega),
      if_neg (fun hboth => by omega)]

/-- What an accepted call has read. -/
theorem WellFormed.accepted (h : response.WellFormed)
    (hspelled : response.Spelled offset length last) {bytes left : List UInt8}
    (haccepted : response.expected offset length last = some (.accepted bytes left)) :
    response.Partial ∧
      (∀ line ∈ response.fieldLines, HasName contentLengthName line →
        (readUnsigned (line.drop contentLengthName.length)).map Prod.fst = some length) ∧
      response.RangeRequested offset last ∧ bytes = response.body ∧ left = [] := by
  unfold expected at haccepted
  split at haccepted
  · cases haccepted
  next hpart =>
    split at haccepted
    next hbody =>
      cases haccepted
      have hstatus : response.Partial := by simpa [Partial] using hpart
      have hlength : UInt64.ofNat response.body.length = length := by
        rw [hbody.1, UInt64.ofNat_toNat]
      refine ⟨hstatus, ?_, ?_, rfl, rfl⟩
      · intro line hmem hname
        rw [← hlength]
        exact h.lengths line hmem hname
      · intro line hmem hname
        refine (hspelled.rangeSpelled hstatus hbody.1 line hmem hname).resolve_right ?_
        rintro ⟨-, hother⟩
        rw [hbody.2 line hmem hname] at hother
        cases hother
    next =>
      split at haccepted <;> cases haccepted

/-- A response of another spelling that is longer than the range, or of another range, is
accepted when it comes byte by byte. -/
theorem WellFormed.readResponse_bytes (h : response.WellFormed) (hpart : response.Partial)
    (hlong : length.toNat ≤ response.body.length)
    (hlength : response.body.length = length.toNat ∨
      ¬ ∃ line ∈ response.fieldLines, contentLengthName <+: line)
    (hrange : ∀ line ∈ response.fieldLines, contentRangeName <+: line →
      isRequestedRange (line.drop contentRangeName.length) offset last = true) :
    readResponse (fun _ => 1) offset length last (response.header ++ response.body) =
      some (.accepted (response.body.take length.toNat) (response.body.drop length.toNat)) := by
  have hfour := (bodyStart_append h.ends []).1
  obtain ⟨turn, hheader⟩ := @receiveHeader_bytes response.header response.body h.ends h.short
    ((response.header ++ response.body).length + 1) 0 [] (response.header ++ response.body) rfl
    (by rw [List.length_nil]; omega) (Nat.lt_succ_self _)
  obtain ⟨next, hbody⟩ := @receiveBody_bytes length.toNat (response.body.length + 1) turn
    response.body [] response.body rfl (Nat.zero_le _) hlong (Nat.lt_succ_self _)
  have hcheck : checkRange offset last ⟨response.readLengthField, response.readRangeField⟩ =
      true := by
    unfold checkRange
    rw [decide_eq_true_iff]
    rcases h.readRangeField_cases with ⟨hempty, -⟩ | ⟨line, hmem, hname, hvalue, -, -⟩
    · exact Or.inl hempty
    · right
      dsimp only
      rw [hvalue]
      exact hrange line hmem hname
  have hsees : response.seesLength length := by
    by_contra hother
    obtain ⟨hexact, hbodyLength⟩ := h.not_seesLength_iff.1 hother
    exact hlength.elim hbodyLength fun hnone => hnone hexact
  obtain ⟨-, hread⟩ := @WellFormed.readResponse_of_header response offset length last h
    (fun _ => 1) _ _ turn hheader rfl (Nat.le_refl _)
  rw [hread, if_pos ⟨hpart, hsees⟩, readBody, List.drop_length, if_neg (by simp), hbody]
  dsimp only
  rw [if_pos hcheck]

end HttpResponse

/-! ### Calls -/

/-- Every request gets a complete response with the fields spelled where it matters. -/
def InOrder (calls : List RangeCall) : Prop :=
  ∀ call ∈ calls, ∀ stop, checkedEnd call.offset call.length = some stop →
    call.response.WellFormed ∧ call.response.Spelled call.offset call.length (stop - 1)

/-- What the calls return. -/
def expectedResults : List RangeCall → List ReadResult
  | [] => []
  | call :: rest =>
      match checkedEnd call.offset call.length with
      | none => .refused :: expectedResults rest
      | some stop =>
          match call.response.expected call.offset call.length (stop - 1) with
          | none => []
          | some result => result :: expectedResults rest

/-- Each call finds the connection at its own response. -/
theorem readRanges_eq {calls : List RangeCall} (h : InOrder calls) (cut : Nat → Nat → Nat)
    (index : Nat) : readRanges cut index [] calls = expectedResults calls := by
  induction calls generalizing index with
  | nil => rfl
  | cons call rest ih =>
      have hrest : InOrder rest := fun other hmem => h other (List.mem_cons_of_mem call hmem)
      rw [readRanges, expectedResults]
      cases hstop : checkedEnd call.offset call.length with
      | none =>
          dsimp only
          rw [ih hrest]
      | some stop =>
          obtain ⟨hformed, hspelled⟩ := h call List.mem_cons_self stop hstop
          dsimp only
          rw [List.nil_append, hformed.readResponse_eq hspelled (cut index)]
          cases hresult : call.response.expected call.offset call.length (stop - 1) with
          | none => rfl
          | some result =>
              cases result with
              | refused =>
                  dsimp only
                  rw [ih hrest]
              | accepted bytes left =>
                  -- Nothing of the response is left for the next call.
                  obtain ⟨-, -, -, -, rfl⟩ := hformed.accepted hspelled hresult
                  dsimp only
                  rw [ih hrest]

/-- The calls stay in step with the responses, however these are cut. -/
structure InStep (calls : List RangeCall) : Prop where
  cuts : ∀ cut cut' : Nat → Nat → Nat, readRanges cut 0 [] calls = readRanges cut' 0 [] calls
  accepted : ∀ (cut : Nat → Nat → Nat) (i : Nat) (bytes left : List UInt8),
    (readRanges cut 0 [] calls)[i]? = some (.accepted bytes left) →
      ∃ call stop, calls[i]? = some call ∧ checkedEnd call.offset call.length = some stop ∧
        call.response.Partial ∧
        (∀ line ∈ call.response.fieldLines, HasName contentLengthName line →
          (readUnsigned (line.drop contentLengthName.length)).map Prod.fst = some call.length) ∧
        call.response.RangeRequested call.offset (stop - 1) ∧
        bytes = call.response.body ∧ left = []

theorem expectedResults_accepted {calls : List RangeCall} (h : InOrder calls) {i : Nat}
    {bytes left : List UInt8}
    (haccepted : (expectedResults calls)[i]? = some (.accepted bytes left)) :
    ∃ call stop, calls[i]? = some call ∧ checkedEnd call.offset call.length = some stop ∧
      call.response.WellFormed ∧ call.response.Spelled call.offset call.length (stop - 1) ∧
      call.response.expected call.offset call.length (stop - 1) = some (.accepted bytes left) := by
  induction calls generalizing i with
  | nil => cases haccepted
  | cons call rest ih =>
      have hrest : InOrder rest := fun other hmem => h other (List.mem_cons_of_mem call hmem)
      rw [expectedResults] at haccepted
      cases hstop : checkedEnd call.offset call.length with
      | none =>
          rw [hstop] at haccepted
          cases i with
          | zero => cases haccepted
          | succ i => exact ih hrest haccepted
      | some stop =>
          rw [hstop] at haccepted
          dsimp only at haccepted
          cases hresult : call.response.expected call.offset call.length (stop - 1) with
          | none =>
              rw [hresult] at haccepted
              cases haccepted
          | some result =>
              rw [hresult] at haccepted
              cases i with
              | zero =>
                  cases haccepted
                  have hcall := h call List.mem_cons_self stop hstop
                  exact ⟨call, stop, rfl, hstop, hcall.1, hcall.2, hresult⟩
              | succ i => exact ih hrest haccepted

theorem InOrder.inStep {calls : List RangeCall} (h : InOrder calls) : InStep calls := by
  constructor
  · intro cut cut'
    rw [readRanges_eq h, readRanges_eq h]
  · intro cut i bytes left haccepted
    rw [readRanges_eq h] at haccepted
    obtain ⟨call, stop, hcall, hstop, hformed, hspelled, hresult⟩ :=
      expectedResults_accepted h haccepted
    exact ⟨call, stop, hcall, hstop, hformed.accepted hspelled hresult⟩

/-- A call only stays in step if the fields are spelled where it matters. -/
theorem InStep.spelled {call : RangeCall} {stop : UInt64} (hstep : InStep [call])
    (hstop : checkedEnd call.offset call.length = some stop) (h : call.response.WellFormed) :
    call.response.Spelled call.offset call.length (stop - 1) := by
  -- What is accepted byte by byte has to be the response to its end.
  have haccepted : ∀ bytes left, readResponse (fun _ => 1) call.offset call.length (stop - 1)
      (call.response.header ++ call.response.body) = some (.accepted bytes left) →
      call.response.RangeRequested call.offset (stop - 1) ∧ left = [] := by
    intro bytes left hread
    have hresult : (readRanges (fun _ _ => 1) 0 [] [call])[0]? =
        some (.accepted bytes left) := by
      rw [readRanges, hstop]
      dsimp only
      rw [List.nil_append, hread]
      rfl
    obtain ⟨found, end', hfound, hend, -, -, hrange, -, hleft⟩ := hstep.accepted _ _ _ _ hresult
    cases hfound
    cases hstop.symm.trans hend
    exact ⟨hrange, hleft⟩
  constructor
  · intro hpart hlong
    by_contra hnot
    rw [not_or] at hnot
    obtain ⟨hlength, hrange⟩ := hnot
    obtain ⟨-, hleft⟩ := haccepted _ _ (h.readResponse_bytes hpart (Nat.le_of_lt hlong)
      (Or.inr hlength) fun line hmem hname => by
        rw [← Bool.not_eq_false]
        exact fun hother => hrange ⟨line, hmem, hname, hother⟩)
    rw [List.drop_eq_nil_iff] at hleft
    omega
  · intro hpart hsame line hmem hname
    by_contra hnot
    rw [not_or, not_and] at hnot
    obtain ⟨hrange, -⟩ := haccepted _ _ (h.readResponse_bytes hpart (by omega) (Or.inl hsame)
      fun other hother hspelled => by
        -- The only range field is this one, which the client does not refuse.
        rcases h.readRangeField_cases with ⟨-, hnone⟩ | ⟨found, -, -, -, -, hunique⟩
        · exact absurd hspelled (hnone other hother)
        · have hsame : other = line :=
            (hunique other hother (hasName_of_exact hspelled)).trans (hunique line hmem hname).symm
          rw [hsame] at hspelled ⊢
          exact Bool.eq_true_of_not_eq_false (hnot.2 hspelled))
    exact hnot.1 (hrange line hmem hname)

/-- Calls stay in step if every response spells its fields where it matters, and a call alone only
then. -/
theorem inStep_of_inOrder (calls : List RangeCall) :
    (InOrder calls → InStep calls) ∧
      ∀ call stop, calls = [call] → checkedEnd call.offset call.length = some stop →
        call.response.WellFormed →
          (InStep calls ↔ call.response.Spelled call.offset call.length (stop - 1)) := by
  refine ⟨fun h => h.inStep, ?_⟩
  rintro call stop rfl hstop hformed
  refine ⟨fun hstep => hstep.spelled hstop hformed, fun hspelled => InOrder.inStep ?_⟩
  intro other hother end' hend
  rw [List.mem_singleton] at hother
  subst hother
  cases hstop.symm.trans hend
  exact ⟨hformed, hspelled⟩

/-- A call for two bytes and its response. -/
def twoBytes : RangeCall where
  offset := 0
  length := 2
  response :=
    { header := utf8
        "HTTP/1.1 206 Partial Content\r\nContent-Length: 2\r\nContent-Range: bytes 0-1/9\r\n\r\n"
      body := [1, 2] }

theorem twoBytes_inOrder : InOrder [twoBytes, twoBytes] := by
  intro call hcall stop hstop
  obtain rfl : call = twoBytes := by simpa using hcall
  cases hstop
  refine ⟨⟨?_, ?_, ?_, ?_, ?_, ?_, ?_⟩, ?_, ?_⟩
  case refine_9 =>
    intro _ _ line hmem hname
    have hline : ∀ line ∈ twoBytes.response.fieldLines, HasName contentRangeName line →
        line = utf8 "Content-Range: bytes 0-1/9\r" := by decide +kernel
    rw [hline line hmem hname]
    refine Or.inl ⟨[32], [32], [48], [49], [57], [13], ?_, ?_, ?_, ?_, ⟨?_, ?_, ?_⟩, ⟨?_, ?_, ?_⟩,
      Or.inr ⟨9, ?_, ?_, ?_⟩, ?_⟩
    all_goals decide +kernel
  all_goals decide +kernel

theorem inStep_of_inOrder_twoBytes :
    InStep [twoBytes, twoBytes] ∧ InStep [twoBytes] ∧
      readRanges (fun _ _ => 50) 0 [] [twoBytes, twoBytes] =
        [.accepted [1, 2] [], .accepted [1, 2] []] := by
  have htwo := twoBytes_inOrder twoBytes List.mem_cons_self 2 rfl
  exact ⟨(inStep_of_inOrder [twoBytes, twoBytes]).1 twoBytes_inOrder,
    ((inStep_of_inOrder [twoBytes]).2 twoBytes 2 rfl rfl htwo.1).2 htwo.2, by decide +kernel⟩

/-- A call for two bytes, and a response of four that writes its fields in lower case. -/
def lowerCaseCall : RangeCall where
  offset := 0
  length := 2
  response :=
    { header := utf8 "HTTP/1.1 206 Partial Content\r\ncontent-length: 4\r\n\r\n"
      body := [1, 2, 3, 4] }

/-- Cut behind the header and in the middle of the body, the call returns true; in one piece, it
returns false. -/
theorem lowerCaseCall_not_inStep :
    lowerCaseCall.response.WellFormed ∧ ¬ InStep [lowerCaseCall] := by
  refine ⟨⟨?_, ?_, ?_, ?_, ?_, ?_, ?_⟩, fun h => ?_⟩
  case refine_8 =>
    have hcuts := h.cuts (fun _ _ => 4096)
      fun _ turn => if turn = 0 then lowerCaseCall.response.header.length else 2
    revert hcuts
    decide +kernel
  all_goals decide +kernel

end VBuf.Ggml.HttpRangeSource
