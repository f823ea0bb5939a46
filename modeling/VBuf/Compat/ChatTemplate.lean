import VBuf.Compat.TemplateExpression

/-!
# Chat templates

`render_chat_template` looks for the tags of a template by their bytes, and for every
message for the text of a comparison with its role.  It renders what the template means
when no text of the template looks like a tag where one is looked for, nothing but the
generation branch stands behind the loop, and no message is left to an else branch.
-/

namespace VBuf.Compat

open VBuf.Lib VBuf.Tokenizer

/-! ### The renderer -/

def loopBegin : List UInt8 := utf8 "\x7b% for message in messages %\x7d"

def loopEnd : List UInt8 := utf8 "\x7b% endfor %\x7d"

def elifTag : List UInt8 := utf8 "\x7b% elif"

def elseTag : List UInt8 := utf8 "\x7b% else"

def endifTag : List UInt8 := utf8 "\x7b% endif %\x7d"

def generationTag : List UInt8 := utf8 "\x7b% if add_generation_prompt %\x7d"

def tagEnd : List UInt8 := [0x25, 0x7d]

def openExpression : List UInt8 := [0x7b, 0x7b]

def closeExpression : List UInt8 := [0x7d, 0x7d]

/-- The text of a comparison with a role. -/
def roleMarker (role : List UInt8) : List UInt8 := utf8 "message['role'] == '" ++ (role ++ [0x27])

/-- The end of a branch. -/
def branchEnd (body : List UInt8) : Nat :=
  min ((offsetOf elifTag body).getD body.length) ((offsetOf elseTag body).getD body.length)

section Renderer

variable (tokens : SpecialTokens)

/-- The loop of `render_expressions`. -/
def renderExpressionsFrom (message : Option Message) :
    Nat → List UInt8 → Except String (List PromptPart)
  | 0, _ => .ok []
  | fuel + 1, source =>
      match offsetOf openExpression source with
      | none => .ok []
      | some start =>
          let inside := source.drop (start + 2)
          match offsetOf closeExpression inside with
          | none => .error "unterminated chat-template expression"
          | some stop => do
              let parts ← evaluateTemplateExpression tokens message (inside.take stop)
              let later ← renderExpressionsFrom message fuel (inside.drop (stop + 2))
              .ok (parts ++ later)

/-- `render_expressions`. -/
def renderExpressions (source : List UInt8) (message : Option Message) :
    Except String (List PromptPart) :=
  renderExpressionsFrom tokens message source.length source

/-- The body of the loop of `render_chat_template` over the messages. -/
def renderMessage (loop : List UInt8) (message : Message) : Except String (List PromptPart) :=
  match findFrom loop (roleMarker message.role) 0 with
  | none => .ok []
  | some branch =>
      match findFrom loop tagEnd branch with
      | none => .error "malformed chat-template branch"
      | some bodyStart =>
          let body := loop.drop (bodyStart + 2)
          renderExpressions tokens (body.take (branchEnd body)) (some message)

/-- The generation branch of `render_chat_template`. -/
def renderGeneration (templ : List UInt8) (afterLoop : Nat) : Except String (List PromptPart) :=
  match findFrom templ generationTag afterLoop with
  | none => .ok []
  | some generation =>
      match findFrom templ tagEnd generation with
      | none => .error "malformed generation-prompt branch"
      | some bodyStart =>
          match findFrom templ endifTag bodyStart with
          | none => .error "malformed generation-prompt branch"
          | some bodyEnd =>
              renderExpressions tokens ((templ.drop (bodyStart + 2)).take (bodyEnd - bodyStart - 2))
                none

/-- `render_chat_template`. -/
def renderChatTemplate (templ : List UInt8) (messages : List Message) :
    Except String (List PromptPart) :=
  match findFrom templ loopBegin 0 with
  | none => .error "model chat template is outside the supported runtime subset"
  | some loopStart =>
      match findFrom templ loopEnd loopStart with
      | none => .error "model chat template is outside the supported runtime subset"
      | some loopStop => do
          let before ← renderExpressions tokens (templ.take loopStart) none
          let loop := (templ.drop (loopStart + loopBegin.length)).take
            (loopStop - loopStart - loopBegin.length)
          let inside ← messages.mapM (renderMessage tokens loop)
          let generation ← renderGeneration tokens templ (loopStop + loopEnd.length)
          .ok (before ++ inside.flatten ++ generation)

end Renderer

/-! ### Templates -/

/-- A sequence of expressions. -/
def expressionsBytes (expressions : List Expression) : List UInt8 :=
  expressions.flatMap fun expression => openExpression ++ (expression.bytes ++ closeExpression)

/-- A branch of the chain, behind its keyword. -/
structure Branch where
  role : List LiteralPiece
  body : List Expression

namespace Branch

/-- The role that the branch is for. -/
def name (branch : Branch) : List UInt8 := branch.role.map LiteralPiece.meaning

/-- The role as it is written. -/
def written (branch : Branch) : List UInt8 := branch.role.flatMap LiteralPiece.bytes

def bytes (branch : Branch) : List UInt8 :=
  roleMarker branch.written ++ (0x20 :: (tagEnd ++ expressionsBytes branch.body))

end Branch

/-- What stands in front of the first comparison, and of every other. -/
def ifFront : List UInt8 := utf8 "\x7b% if "

def elifFront : List UInt8 := elifTag ++ [0x20]

/-- The branches of a chain; the first one has a keyword of its own. -/
def branchesBytes : List UInt8 → List Branch → List UInt8
  | _, [] => []
  | front, branch :: rest => front ++ (branch.bytes ++ branchesBytes elifFront rest)

/-- The generation branch. -/
def generationBytes : Option (List Expression) → List UInt8
  | none => []
  | some body => generationTag ++ (expressionsBytes body ++ endifTag)

/-- A template of the subset that the server supports. -/
structure ChatTemplate where
  before : List Expression
  first : Branch
  branches : List Branch
  otherwise : Option (List Expression)
  between : List Expression
  generation : Option (List Expression)
  after : List Expression

namespace ChatTemplate

variable (templ : ChatTemplate) (tokens : SpecialTokens)

/-- The end of the chain. -/
def chainEnd : List UInt8 :=
  match templ.otherwise with
  | none => endifTag
  | some body => elseTag ++ (0x20 :: (tagEnd ++ (expressionsBytes body ++ endifTag)))

/-- What is between the tags of the loop. -/
def loop : List UInt8 := branchesBytes ifFront (templ.first :: templ.branches) ++ templ.chainEnd

/-- What is behind the loop. -/
def behind : List UInt8 :=
  expressionsBytes templ.between ++
    (generationBytes templ.generation ++ expressionsBytes templ.after)

def bytes : List UInt8 :=
  expressionsBytes templ.before ++ (loopBegin ++ (templ.loop ++ (loopEnd ++ templ.behind)))

/-- The parts that a sequence of expressions means. -/
def expressionsParts (message : Option Message) (expressions : List Expression) : List PromptPart :=
  expressions.flatMap fun expression => expression.parts tokens message

/-- The branch of a message: the first that is for its role, or else the last one. -/
def branchOf (role : List UInt8) : List Expression :=
  (((templ.first :: templ.branches).find? fun branch => branch.name = role).map Branch.body).getD
    (templ.otherwise.getD [])

/-- The parts that the template means; the server asks for the generation branch. -/
def parts (messages : List Message) : List PromptPart :=
  expressionsParts tokens none templ.before ++
    (messages.flatMap fun message =>
      expressionsParts tokens (some message) (templ.branchOf message.role)) ++
    expressionsParts tokens none (templ.between ++ (templ.generation.getD [] ++ templ.after))

end ChatTemplate

/-! ### The condition -/

/-- A text in which a pattern is not found. -/
def Lacks (pattern text : List UInt8) : Prop := offsetOf pattern text = none

/-- The end of an expression is found, and its terms. -/
def Expression.Readable (expression : Expression) : Prop :=
  FirstBehind closeExpression expression.bytes ∧ expression.Splits

/-- A branch is read: its role is written without escapes and does not close the tag, and
its body has no text that looks like the tag of another branch. -/
structure Branch.Readable (branch : Branch) : Prop where
  written : branch.written = branch.name
  tag : FirstBehind tagEnd (roleMarker branch.written ++ [0x20])
  elif : Lacks elifTag (expressionsBytes branch.body)
  otherwise : Lacks elseTag (expressionsBytes branch.body)
  body : ∀ expression ∈ branch.body, expression.Readable

/-- The branch of a role is the first text that looks like it, or nothing looks like a
branch of the role and there is no else branch. -/
def RoleFound (role chainEnd : List UInt8) (hasElse : Bool) :
    List UInt8 → List UInt8 → List Branch → Prop
  | gap, _, [] => hasElse = false ∧ Lacks (roleMarker role) (gap ++ chainEnd)
  | gap, front, branch :: rest =>
      if branch.name = role then FirstBehind (roleMarker role) (gap ++ front) ∧ branch.Readable
      else RoleFound role chainEnd hasElse (gap ++ (front ++ branch.bytes)) elifFront rest

/-- Every search of the renderer finds the place that is meant. -/
structure ChatTemplate.Readable (templ : ChatTemplate) (messages : List Message) : Prop where
  start : Lacks loopBegin (expressionsBytes templ.before)
  stop : Lacks loopEnd (loopBegin ++ templ.loop)
  before : ∀ expression ∈ templ.before, expression.Readable
  role : ∀ message ∈ messages, RoleFound message.role templ.chainEnd templ.otherwise.isSome []
    ifFront (templ.first :: templ.branches)
  between : templ.between = []
  after : templ.after = []
  endif : ∀ body ∈ templ.generation, Lacks endifTag (expressionsBytes body)
  generation : ∀ body ∈ templ.generation, ∀ expression ∈ body, expression.Readable

/-! ### Tags -/

section Tags

variable {pattern gap rest : List UInt8}

/-- A pattern that has a brace at its start only. -/
def IsTag (pattern : List UInt8) : Prop := pattern.head? = some 0x7b ∧ 0x7b ∉ pattern.tail

instance (pattern : List UInt8) : Decidable (IsTag pattern) := inferInstanceAs (Decidable (_ ∧ _))

theorem IsTag.eq_cons (h : IsTag pattern) : ∃ tail, pattern = 0x7b :: tail ∧ 0x7b ∉ tail := by
  obtain ⟨hhead, htail⟩ := h
  cases pattern with
  | nil => cases hhead
  | cons byte tail =>
      obtain rfl := Option.some.inj hhead
      exact ⟨tail, rfl, htail⟩

theorem firstBehind_nil (pattern : List UInt8) : FirstBehind pattern [] := by
  cases pattern with
  | nil => rfl
  | cons byte pattern =>
      rw [FirstBehind, List.nil_append, offsetOf, if_pos]
      · rfl
      · exact List.isPrefixOf_iff_prefix.2 (List.prefix_refl _)

theorem offsetOf_self : offsetOf pattern (pattern ++ rest) = some 0 :=
  offsetOf_append (firstBehind_nil pattern)

/-- A tag does not stand across a brace, so it is looked for behind a text that lacks it. -/
theorem offsetOf_tag (hpattern : IsTag pattern) (h : Lacks pattern gap) :
    offsetOf pattern (gap ++ 0x7b :: rest) =
      (offsetOf pattern (0x7b :: rest)).map (gap.length + ·) := by
  obtain ⟨tail, rfl, htail⟩ := hpattern.eq_cons
  unfold Lacks at h
  induction gap with
  | nil =>
      have hid : (fun n : Nat => ([] : List UInt8).length + n) = id := by
        funext n
        exact Nat.zero_add n
      rw [hid, Option.map_id]
      rfl
  | cons first gap ih =>
      rw [offsetOf] at h
      split at h
      next => cases h
      next hnot =>
          rw [Option.map_eq_none_iff] at h
          have hnot' : ¬ (0x7b :: tail).isPrefixOf (first :: (gap ++ 0x7b :: rest)) = true := by
            intro hstarts
            rw [List.isPrefixOf_iff_prefix, List.cons_prefix_cons] at hstarts
            refine hnot (List.isPrefixOf_iff_prefix.2 (List.cons_prefix_cons.2 ⟨hstarts.1, ?_⟩))
            exact prefix_of_not_mem htail hstarts.2
          rw [List.cons_append, offsetOf, if_neg hnot', ih h, Option.map_map]
          congr 1
          funext n
          show gap.length + n + 1 = gap.length + 1 + n
          omega

theorem firstBehind_of_lacks (hpattern : IsTag pattern) (h : Lacks pattern gap) :
    FirstBehind pattern gap := by
  have hself : offsetOf pattern pattern = some 0 := firstBehind_nil pattern
  obtain ⟨tail, htail, -⟩ := hpattern.eq_cons
  have hborder := @offsetOf_tag pattern gap tail hpattern h
  rw [← htail, hself] at hborder
  exact hborder

theorem expressionsBytes_starts (expressions : List Expression) :
    expressionsBytes expressions = [] ∨ ∃ rest, expressionsBytes expressions = 0x7b :: rest := by
  cases expressions with
  | nil => exact Or.inl rfl
  | cons expression rest => exact Or.inr ⟨_, rfl⟩

end Tags

/-! ### Expressions -/

section Expressions

variable (tokens : SpecialTokens) (message : Option Message)

/-- A sequence of expressions is rendered, up to a text without one. -/
theorem renderExpressionsFrom_eq {fuel : Nat} {expressions : List Expression} {rest : List UInt8}
    (hfuel : expressions.length ≤ fuel) (h : ∀ expression ∈ expressions, expression.Readable)
    (hrest : Lacks openExpression rest) :
    renderExpressionsFrom tokens message fuel (expressionsBytes expressions ++ rest) =
      .ok (ChatTemplate.expressionsParts tokens message expressions) := by
  induction expressions generalizing fuel with
  | nil =>
      cases fuel with
      | zero => rfl
      | succ fuel =>
          have hnone : offsetOf openExpression (expressionsBytes [] ++ rest) = none := hrest
          rw [renderExpressionsFrom, hnone]
          rfl
  | cons expression later ih =>
      obtain ⟨fuel, rfl⟩ := Nat.exists_eq_succ_of_ne_zero
        (by rw [List.length_cons] at hfuel; omega : fuel ≠ 0)
      rw [List.length_cons] at hfuel
      rw [List.forall_mem_cons] at h
      have hsource : expressionsBytes (expression :: later) ++ rest = openExpression ++
          (expression.bytes ++ (closeExpression ++ (expressionsBytes later ++ rest))) := by
        rw [expressionsBytes, List.flatMap_cons, ← expressionsBytes]
        simp only [List.append_assoc]
      have hinside : (openExpression ++ (expression.bytes ++ (closeExpression ++
          (expressionsBytes later ++ rest)))).drop (0 + 2) = expression.bytes ++
            (closeExpression ++ (expressionsBytes later ++ rest)) := rfl
      have hbehind : (expression.bytes ++ (closeExpression ++ (expressionsBytes later ++ rest))).drop
          (expression.bytes.length + 2) = expressionsBytes later ++ rest := by
        rw [← List.drop_drop, List.drop_left]
        rfl
      rw [hsource, renderExpressionsFrom, offsetOf_self]
      simp only [hinside, offsetOf_append h.1.1, List.take_left, hbehind,
        evaluateTemplateExpression_eq tokens message expression h.1.2, bind, Except.bind,
        ih (Nat.le_of_succ_le_succ hfuel) h.2]
      rfl

theorem length_le_expressionsBytes (expressions : List Expression) :
    expressions.length ≤ (expressionsBytes expressions).length := by
  induction expressions with
  | nil => exact Nat.le_refl 0
  | cons expression later ih =>
      rw [expressionsBytes, List.flatMap_cons, ← expressionsBytes]
      simp only [List.length_append, List.length_cons, openExpression]
      omega

theorem renderExpressions_eq {expressions : List Expression} {rest : List UInt8}
    (h : ∀ expression ∈ expressions, expression.Readable) (hrest : Lacks openExpression rest) :
    renderExpressions tokens (expressionsBytes expressions ++ rest) message =
      .ok (ChatTemplate.expressionsParts tokens message expressions) := by
  refine renderExpressionsFrom_eq tokens message ?_ h hrest
  rw [List.length_append]
  exact Nat.le_trans (length_le_expressionsBytes expressions) (Nat.le_add_right _ _)

end Expressions

/-! ### Branches -/

section Branches

variable {templ : ChatTemplate}

/-- What stands behind a body. -/
theorem behind_body (rest : List Branch) :
    (∃ later, branchesBytes elifFront rest ++ templ.chainEnd = elifTag ++ later) ∨
      (∃ later, branchesBytes elifFront rest ++ templ.chainEnd = elseTag ++ later) ∨
      branchesBytes elifFront rest ++ templ.chainEnd = endifTag := by
  cases rest with
  | nil =>
      rw [branchesBytes, List.nil_append, ChatTemplate.chainEnd]
      cases templ.otherwise with
      | none => exact Or.inr (Or.inr rfl)
      | some body => exact Or.inr (Or.inl ⟨_, rfl⟩)
  | cons branch rest =>
      rw [branchesBytes, elifFront]
      simp only [List.append_assoc]
      exact Or.inl ⟨_, rfl⟩

theorem branchEnd_append {inner later : List UInt8} (helif : Lacks elifTag inner)
    (helse : Lacks elseTag inner) :
    branchEnd (inner ++ 0x7b :: later) = inner.length + branchEnd (0x7b :: later) := by
  have hgetD : ∀ (found : Option Nat) (default : Nat),
      (found.map (inner.length + ·)).getD (inner.length + default) =
        inner.length + found.getD default := by
    intro found default
    cases found with
    | none => rfl
    | some n => rfl
  rw [branchEnd, branchEnd, offsetOf_tag (by decide) helif,
    offsetOf_tag (by decide) helse, List.length_append, hgetD, hgetD]
  omega

/-- A body is cut off behind its expressions, or behind the end of the chain. -/
theorem take_branchEnd {inner : List UInt8} (rest : List Branch) (helif : Lacks elifTag inner)
    (helse : Lacks elseTag inner) :
    ∃ later, Lacks openExpression later ∧
      (inner ++ (branchesBytes elifFront rest ++ templ.chainEnd)).take
        (branchEnd (inner ++ (branchesBytes elifFront rest ++ templ.chainEnd))) = inner ++ later := by
  have htake : ∀ {behind : List UInt8} (later : List UInt8), behind.head? = some 0x7b →
      behind.take (branchEnd behind) = later →
      (inner ++ behind).take (branchEnd (inner ++ behind)) = inner ++ later := by
    rintro behind later hhead rfl
    obtain ⟨tail, rfl⟩ := List.head?_eq_some_iff.1 hhead
    rw [branchEnd_append helif helse, List.take_length_add_append]
  rcases @behind_body templ rest with ⟨later, hbehind⟩ | ⟨later, hbehind⟩ | hbehind
  · rw [hbehind]
    refine ⟨[], rfl, htake [] ?_ ?_⟩
    · rw [List.head?_append, show elifTag.head? = some 0x7b by decide]
      rfl
    · rw [branchEnd, offsetOf_self, Option.getD_some, Nat.zero_min, List.take_zero]
  · rw [hbehind]
    refine ⟨[], rfl, htake [] ?_ ?_⟩
    · rw [List.head?_append, show elseTag.head? = some 0x7b by decide]
      rfl
    · rw [branchEnd, offsetOf_self, Option.getD_some, Nat.min_zero, List.take_zero]
  · rw [hbehind]
    have hopen : offsetOf openExpression endifTag = none := by decide
    exact ⟨endifTag, hopen, htake endifTag (by decide) (by decide)⟩

/-- The branch of a message is rendered. -/
theorem renderMessage_eq (tokens : SpecialTokens) {loop gap front : List UInt8} {message : Message}
    {chain : List Branch}
    (h : RoleFound message.role templ.chainEnd templ.otherwise.isSome gap front chain)
    (hloop : loop = gap ++ (branchesBytes front chain ++ templ.chainEnd)) :
    renderMessage tokens loop message = .ok (ChatTemplate.expressionsParts tokens (some message)
      (((chain.find? fun branch => branch.name = message.role).map Branch.body).getD
        (templ.otherwise.getD []))) := by
  induction chain generalizing gap front with
  | nil =>
      obtain ⟨helse, hlacks⟩ := h
      have hnone : findFrom loop (roleMarker message.role) 0 = none := by
        rw [findFrom, List.drop_zero, hloop, branchesBytes, List.nil_append, hlacks]
        rfl
      rw [Option.isSome_eq_false_iff, Option.isNone_iff_eq_none] at helse
      rw [renderMessage, hnone, helse]
      rfl
  | cons branch rest ih =>
      rw [RoleFound] at h
      split at h
      next hname =>
          obtain ⟨hmarker, hbranch⟩ := h
          have hstart : loop.drop 0 = (gap ++ front) ++ (roleMarker message.role ++ (0x20 ::
              (tagEnd ++ (expressionsBytes branch.body ++
                (branchesBytes elifFront rest ++ templ.chainEnd))))) := by
            rw [List.drop_zero, hloop, branchesBytes, Branch.bytes, hbranch.written, hname]
            simp only [List.append_assoc, List.cons_append]
          have hbehind := @drop_behind loop 0 (gap ++ front) _ hstart
          have htag : loop.drop (0 + (gap ++ front).length) = (roleMarker message.role ++ [0x20]) ++
              (tagEnd ++ (expressionsBytes branch.body ++
                (branchesBytes elifFront rest ++ templ.chainEnd))) := by
            rw [hbehind, List.append_assoc]
            rfl
          have hclose := hbranch.tag
          rw [hbranch.written, hname] at hclose
          have hbody := @drop_behind loop _ tagEnd _ (drop_behind htag)
          obtain ⟨later, hopen, htake⟩ := @take_branchEnd templ (expressionsBytes branch.body) rest
            hbranch.elif hbranch.otherwise
          rw [renderMessage, findFrom_eq hmarker hstart]
          simp only [findFrom_eq hclose htag]
          rw [show (2 : Nat) = tagEnd.length from rfl, hbody, htake,
            renderExpressions_eq tokens (some message) hbranch.body hopen,
            List.find?_cons_of_pos (by rw [hname]; exact decide_eq_true rfl)]
          rfl
      next hname =>
          rw [List.find?_cons_of_neg (by rw [decide_eq_true_eq]; exact hname)]
          refine ih h ?_
          rw [hloop, branchesBytes]
          simp only [List.append_assoc]

/-- The branches of all messages are rendered. -/
theorem mapM_renderMessage (tokens : SpecialTokens) {messages : List Message}
    (h : ∀ message ∈ messages, RoleFound message.role templ.chainEnd templ.otherwise.isSome []
      ifFront (templ.first :: templ.branches)) :
    messages.mapM (renderMessage tokens templ.loop) = .ok (messages.map fun message =>
      ChatTemplate.expressionsParts tokens (some message) (templ.branchOf message.role)) := by
  have hloop : templ.loop = [] ++ (branchesBytes ifFront (templ.first :: templ.branches) ++
      templ.chainEnd) := rfl
  induction messages with
  | nil => rfl
  | cons message rest ih =>
      rw [List.forall_mem_cons] at h
      rw [List.mapM_cons, renderMessage_eq tokens h.1 hloop, ih h.2]
      rfl

end Branches

/-! ### The whole template -/

/-- The generation branch is rendered. -/
theorem renderGeneration_eq (tokens : SpecialTokens) {templ : List UInt8} {afterLoop : Nat}
    {generation : Option (List Expression)}
    (hendif : ∀ body ∈ generation, Lacks endifTag (expressionsBytes body))
    (hread : ∀ body ∈ generation, ∀ expression ∈ body, expression.Readable)
    (hdrop : templ.drop afterLoop = generationBytes generation) :
    renderGeneration tokens templ afterLoop =
      .ok (ChatTemplate.expressionsParts tokens none (generation.getD [])) := by
  cases generation with
  | none =>
      have hnone : findFrom templ generationTag afterLoop = none := by
        have hlacks : offsetOf generationTag [] = none := by decide
        rw [findFrom, hdrop, generationBytes, hlacks]
        rfl
      rw [renderGeneration, hnone]
      rfl
  | some body =>
      have hstart : templ.drop afterLoop =
          [] ++ (generationTag ++ (expressionsBytes body ++ endifTag)) := hdrop
      have hfront : generationTag = utf8 "\x7b% if add_generation_prompt " ++ tagEnd := by
        decide
      have hbehind := @drop_behind templ afterLoop [] _ hstart
      have htag : templ.drop (afterLoop + ([] : List UInt8).length) =
          utf8 "\x7b% if add_generation_prompt " ++ (tagEnd ++
            (expressionsBytes body ++ endifTag)) := by
        rw [hbehind, hfront, List.append_assoc]
      have hclose : FirstBehind tagEnd (utf8 "\x7b% if add_generation_prompt ") := by
        show offsetOf _ _ = some _
        decide
      have hbodyStart := drop_behind htag
      have hbody := drop_behind hbodyStart
      have hlacks : Lacks endifTag (tagEnd ++ expressionsBytes body) := by
        have hnone : Lacks endifTag tagEnd := by
          show offsetOf _ _ = none
          decide
        have hinner := hendif body rfl
        rcases expressionsBytes_starts body with hempty | ⟨later, hlater⟩
        · rw [hempty, List.append_nil]
          exact hnone
        · rw [hlater] at hinner ⊢
          rw [Lacks, offsetOf_tag (by decide) hnone, hinner]
          rfl
      have hend := findFrom_eq (firstBehind_of_lacks (by decide) hlacks)
        (show templ.drop _ = (tagEnd ++ expressionsBytes body) ++ (endifTag ++ []) by
          rw [hbodyStart, List.append_nil, List.append_assoc])
      have hlength : ∀ n, n + (tagEnd ++ expressionsBytes body).length - n - 2 =
          (expressionsBytes body).length := by
        intro n
        rw [List.length_append, show tagEnd.length = 2 from rfl]
        omega
      rw [renderGeneration, findFrom_eq (firstBehind_nil generationTag) hstart]
      simp only [findFrom_eq hclose htag, hend, hlength]
      rw [show (2 : Nat) = tagEnd.length from rfl, hbody, List.take_left]
      have hrender := renderExpressions_eq tokens none (hread body rfl)
        (show Lacks openExpression [] from rfl)
      rwa [List.append_nil] at hrender

/-- A template is rendered to the parts that it means. -/
theorem renderChatTemplate_of_readable (tokens : SpecialTokens) (templ : ChatTemplate)
    (messages : List Message) (h : templ.Readable messages) :
    renderChatTemplate tokens templ.bytes messages = .ok (templ.parts tokens messages) := by
  have hstart : templ.bytes.drop 0 = expressionsBytes templ.before ++ (loopBegin ++
      (templ.loop ++ (loopEnd ++ templ.behind))) := rfl
  have hbegin := drop_behind hstart
  have hstop : templ.bytes.drop (0 + (expressionsBytes templ.before).length) =
      (loopBegin ++ templ.loop) ++ (loopEnd ++ templ.behind) := by
    rw [hbegin, List.append_assoc]
  have hinside := drop_behind hbegin
  have hbehind := @drop_behind templ.bytes _ loopEnd _ (drop_behind hstop)
  have hlength : ∀ n, n + (loopBegin ++ templ.loop).length - n - loopBegin.length =
      templ.loop.length := by
    intro n
    rw [List.length_append]
    omega
  have hmessages := mapM_renderMessage tokens h.role
  have hgeneration := @renderGeneration_eq tokens templ.bytes _ templ.generation h.endif h.generation
    (by
      rw [hbehind, ChatTemplate.behind, h.between, h.after]
      exact List.append_nil _)
  have hbefore := renderExpressions_eq tokens none h.before (show Lacks openExpression [] from rfl)
  rw [List.append_nil] at hbefore
  have htake : templ.bytes.take (0 + (expressionsBytes templ.before).length) =
      expressionsBytes templ.before := by
    rw [Nat.zero_add]
    exact List.take_left
  rw [renderChatTemplate, findFrom_eq (firstBehind_of_lacks (by decide) h.start) hstart]
  simp only [findFrom_eq (firstBehind_of_lacks (by decide) h.stop) hstop, hlength, hinside,
    List.take_left, htake, hbefore, hmessages, hgeneration, bind, Except.bind]
  rw [ChatTemplate.parts, h.between, h.after, List.nil_append, List.append_nil, List.flatMap_def]

/-! ### Templates with plain literals -/

section Plain

theorem blanks_nil : ∀ byte ∈ ([] : List UInt8), isSpace byte = true := List.forall_mem_nil _

def noBlanks : Blanks := ⟨[], blanks_nil⟩

/-- The bytes of a text that may stand in a literal as they are. -/
def plainPieces (text : String) : List LiteralPiece :=
  (utf8 text).filterMap fun byte =>
    if h : byte ≠ 0x27 ∧ byte ≠ 0x5c then some (.raw byte h) else none

def plainTerm (word : TermWord) : Term := ⟨noBlanks, word, noBlanks⟩

/-- `'U' + message['content']`. -/
def userExpression : Expression :=
  ⟨plainTerm (.literal (plainPieces "U")), [plainTerm .content]⟩

def plainExpression (text : String) : Expression := ⟨plainTerm (.literal (plainPieces text)), []⟩

/-- A template with a branch for the user, and perhaps an else branch. -/
def userTemplate (otherwise : Option (List Expression)) : ChatTemplate where
  before := [⟨plainTerm .bos, []⟩]
  first := ⟨plainPieces "user", [userExpression]⟩
  branches := []
  otherwise := otherwise
  between := []
  generation := some [plainExpression "A"]
  after := []

theorem userExpression_readable : userExpression.Readable := by
  refine ⟨?_, ?_⟩
  · show offsetOf _ _ = some _
    decide
  · intro term hterm
    obtain rfl : term = plainTerm (.literal (plainPieces "U")) := List.mem_singleton.1 hterm
    rintro ⟨front, hfront⟩
    have hlast := congrArg List.getLast? hfront
    rw [List.getLast?_concat] at hlast
    exact absurd hlast (by decide)

theorem userTemplate_readable :
    (userTemplate none).Readable [⟨utf8 "user", utf8 "hi"⟩] where
  start := by
    show offsetOf _ _ = none
    decide
  stop := by
    show offsetOf _ _ = none
    decide +kernel
  before := by
    intro expression hmem
    obtain rfl : expression = ⟨plainTerm .bos, []⟩ := List.mem_singleton.1 hmem
    refine ⟨?_, List.forall_mem_nil _⟩
    show offsetOf _ _ = some _
    decide
  role := by
    intro message hmem
    obtain rfl := List.mem_singleton.1 hmem
    rw [RoleFound, if_pos (by decide)]
    refine ⟨?_, ?_, ?_, ?_, ?_, ?_⟩
    · show offsetOf _ _ = some _
      decide
    · decide
    · show offsetOf _ _ = some _
      decide
    · show offsetOf _ _ = none
      decide
    · show offsetOf _ _ = none
      decide
    · intro expression hmem
      obtain rfl : expression = userExpression := List.mem_singleton.1 hmem
      exact userExpression_readable
  between := rfl
  after := rfl
  endif := by
    rintro body ⟨⟩
    show offsetOf _ _ = none
    decide
  generation := by
    rintro body ⟨⟩ expression hmem
    obtain rfl : expression = plainExpression "A" := List.mem_singleton.1 hmem
    refine ⟨?_, List.forall_mem_nil _⟩
    show offsetOf _ _ = some _
    decide

def plainTokens : SpecialTokens := ⟨utf8 "<s>", utf8 "</s>", 1, 2⟩

/-- A template without an else branch is rendered for a message of the user. -/
theorem renderChatTemplate_user :
    renderChatTemplate plainTokens (userTemplate none).bytes [⟨utf8 "user", utf8 "hi"⟩] =
      .ok ((userTemplate none).parts plainTokens [⟨utf8 "user", utf8 "hi"⟩]) :=
  renderChatTemplate_of_readable plainTokens (userTemplate none) _ userTemplate_readable

/-- The else branch is passed over, and a literal that ends in an escaped backslash takes
the next one with it. -/
theorem renderChatTemplate_else_lost :
    (renderChatTemplate plainTokens (userTemplate (some [plainExpression "E"])).bytes
          [⟨utf8 "system", utf8 "hi"⟩] = .ok [⟨utf8 "<s>", some 1⟩, ⟨utf8 "A", none⟩] ∧
        (userTemplate (some [plainExpression "E"])).parts plainTokens
          [⟨utf8 "system", utf8 "hi"⟩] =
            [⟨utf8 "<s>", some 1⟩, ⟨utf8 "E", none⟩, ⟨utf8 "A", none⟩]) ∧
      evaluateTemplateExpression plainTokens none (utf8 "'a\\\\' + 'b'") =
        .ok [⟨utf8 "a\\' + 'b", none⟩] := by
  refine ⟨⟨?_, ?_⟩, ?_⟩
  · decide +kernel
  · decide
  · decide

end Plain

end VBuf.Compat
