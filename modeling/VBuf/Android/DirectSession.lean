import VBuf.Ggml.GenerationAgreement

/-!
# The direct session of the Android chat

`DirectSession::generate` over a tokenizer and a transformer that are parameters.
Prefill already selects a token; the decode loop feeds that token and appends the
ones after it.  Timing, progress and metrics are left out.
-/

namespace VBuf.Android

open VBuf.Lib VBuf.Runtime VBuf.Ggml

/-- `ByteBpeTokenizer`, as far as the session calls it. -/
structure DirectTokenizer where
  encode : List UInt8 → List UInt32
  decode : UInt32 → List UInt8
  eos : Option UInt32

/-- The transformer of the session: `run_step` without its selection, and the
batched prefill up to the logits of its last row. -/
structure DirectTransformer (σ F : Type) where
  initial : σ
  step : UInt32 → UInt32 → σ → Except String (List F × σ)
  prefillBatch : List UInt32 → σ → Except String (List F × σ)

/-- The answer, the token count that is kept, and the state of the transformer. -/
structure DirectGeneration (σ : Type) where
  text : List UInt8
  generatedTokens : Nat
  state : σ

/-- `MAX_CONTEXT`. -/
def maxContext : Nat := 128

/-- `"<empty>"`. -/
def emptyMarker : List UInt8 := [60, 101, 109, 112, 116, 121, 62]

/-- What is shown of an output. -/
def shown (output : List UInt8) : List UInt8 := if output = [] then emptyMarker else output

section Generate

variable {σ F : Type} [Zero F] [LinearOrder F] (transformer : DirectTransformer σ F)
  (tokenizer : DirectTokenizer) (cancelled : Nat → Bool)

/-- `run_step`, at a position. -/
def runStep (token : UInt32) (position : Nat) (s : σ) : Except String (UInt32 × σ) :=
  if cancelled position = true then .error "cancelled"
  else
    match transformer.step token (UInt32.ofNat position) s with
    | .error error => .error ("direct runtime execution failed: " ++ error)
    | .ok (logits, s) => .ok (greedy logits, s)

/-- The serial prefill: each prompt token is a step, and the last one selects. -/
def prefillSerial : List UInt32 → Nat → UInt32 → σ → Except String (UInt32 × Nat × σ)
  | [], position, input, s => .ok (input, position, s)
  | token :: rest, position, _, s =>
      match runStep transformer cancelled token position s with
      | .error error => .error error
      | .ok (next, s) => prefillSerial rest (position + 1) next s

/-- The batched prefill. -/
def prefillBatched (promptTokens : List UInt32) (s : σ) : Except String (UInt32 × Nat × σ) :=
  if (List.range promptTokens.length).any cancelled = true then .error "cancelled"
  else
    match transformer.prefillBatch promptTokens s with
    | .error error => .error error
    | .ok (logits, s) => .ok (greedy logits, promptTokens.length, s)

/-- The decode loop: a token that ends it is appended but not counted. -/
def decodeLoop : Nat → Nat → UInt32 → Nat → List UInt8 → σ → Except String (DirectGeneration σ)
  | 0, generated, _, _, output, s => .ok ⟨output, generated, s⟩
  | left + 1, generated, input, position, output, s =>
      match runStep transformer cancelled input position s with
      | .error error => .error error
      | .ok (next, s) =>
          let output := output ++ tokenizer.decode next
          if tokenizer.eos = some next then .ok ⟨output, generated, s⟩
          else decodeLoop left (generated + 1) next (position + 1) output s

/-- `DirectSession::generate`. -/
def generate (batchedPrefill : Bool) (prompt : List UInt8) (maxTokens : UInt32) :
    Except String (DirectGeneration σ) :=
  if prompt = [] then .error "prompt is empty"
  else if maxTokens = 0 ∨ maxTokens > 64 then .error "invalid token limit"
  else
    match tokenizer.encode prompt with
    | [] => .error "prompt produced no tokens"
    | first :: rest =>
        if (first :: rest).length + maxTokens.toNat > maxContext then
          .error "prompt exceeds bounded context"
        else
          let prefill := if batchedPrefill = true then
              prefillBatched transformer cancelled (first :: rest) transformer.initial
            else prefillSerial transformer cancelled (first :: rest) 0 first transformer.initial
          match prefill with
          | .error error => .error error
          | .ok (input, position, s) =>
              match decodeLoop transformer tokenizer cancelled maxTokens.toNat 0 input position []
                s with
              | .error error => .error error
              | .ok generation => .ok { generation with text := shown generation.text }

end Generate

/-! ### An abstract model -/

section Model

variable {F : Type} [Zero F] [LinearOrder F] (model : List UInt32 → GenericTensor F)

/-- A transformer whose logits depend on the tokens it was fed. -/
def directModel : DirectTransformer (List UInt32) F where
  initial := []
  step := fun token _ fed => .ok (lastRow (model (fed ++ [token])), fed ++ [token])
  prefillBatch := fun tokens fed => .ok (lastRow (model (fed ++ tokens)), fed ++ tokens)

variable {model} {tokenizer : DirectTokenizer}

theorem runStep_model (token : UInt32) (position : Nat) (fed : List UInt32) :
    runStep (directModel model) (fun _ => false) token position fed =
      .ok (nextToken model (fed ++ [token]), fed ++ [token]) := by
  rw [runStep, if_neg Bool.false_ne_true]
  simp only [directModel, greedy_eq_argmax]
  rfl

theorem prefillSerial_model (tokens : List UInt32) (position : Nat) (input : UInt32)
    (fed : List UInt32) (hinput : tokens = [] → input = nextToken model fed) :
    prefillSerial (directModel model) (fun _ => false) tokens position input fed =
      .ok (nextToken model (fed ++ tokens), position + tokens.length, fed ++ tokens) := by
  induction tokens generalizing position input fed with
  | nil =>
      rw [prefillSerial, hinput rfl, List.append_nil]
      rfl
  | cons token rest ih =>
      rw [prefillSerial, runStep_model]
      simp only
      rw [ih (position + 1) _ (fed ++ [token]) (fun _ => rfl), List.append_assoc, List.length_cons,
        List.singleton_append, Nat.add_right_comm, Nat.add_assoc]

theorem prefillBatched_model (tokens : List UInt32) :
    prefillBatched (directModel model) (fun _ => false) tokens [] =
      .ok (nextToken model tokens, tokens.length, tokens) := by
  have hnone : (List.range tokens.length).any (fun _ => false) = false := by
    simp
  rw [prefillBatched, hnone, if_neg Bool.false_ne_true]
  simp only [directModel, List.nil_append, greedy_eq_argmax]
  rfl

/-- The decode loop appends what follows its input, and counts it without the end. -/
theorem decodeLoop_model (left generated : Nat) (input : UInt32) (position : Nat)
    (output : List UInt8) (fed : List UInt32) :
    ∃ state, decodeLoop (directModel model) tokenizer (fun _ => false) left generated input position
      output fed = .ok ⟨output ++ (continuationWithStop (nextToken model) tokenizer.eos left
        (fed ++ [input])).flatMap tokenizer.decode, generated + (continuation (nextToken model)
          tokenizer.eos left (fed ++ [input])).length, state⟩ := by
  induction left generalizing generated input position output fed with
  | zero =>
      refine ⟨fed, ?_⟩
      rw [decodeLoop]
      simp [continuationWithStop, continuation, reachesStop]
  | succ left ih =>
      rw [decodeLoop, runStep_model, continuationWithStop_succ, continuation]
      simp only
      by_cases hstop : tokenizer.eos = some (nextToken model (fed ++ [input]))
      · rw [if_pos hstop, if_pos hstop, if_pos hstop]
        refine ⟨fed ++ [input], ?_⟩
        simp
      · rw [if_neg hstop, if_neg hstop, if_neg hstop]
        obtain ⟨state, hstate⟩ := ih (generated + 1) (nextToken model (fed ++ [input]))
          (position + 1) (output ++ tokenizer.decode (nextToken model (fed ++ [input])))
          (fed ++ [input])
        refine ⟨state, ?_⟩
        rw [hstate, List.flatMap_cons, List.length_cons, List.append_assoc]
        congr 2
        omega

/-- The session returns what follows the first token after the prompt. -/
theorem generate_model {prompt : List UInt8} {maxTokens : UInt32} (batchedPrefill : Bool)
    (hprompt : prompt ≠ []) (hmax : maxTokens ≠ 0 ∧ maxTokens ≤ 64)
    (htokens : tokenizer.encode prompt ≠ [])
    (hcontext : (tokenizer.encode prompt).length + maxTokens.toNat ≤ maxContext) :
    let fed := tokenizer.encode prompt ++ [nextToken model (tokenizer.encode prompt)]
    ∃ state, generate (directModel model) tokenizer (fun _ => false) batchedPrefill prompt maxTokens =
      .ok ⟨shown ((continuationWithStop (nextToken model) tokenizer.eos maxTokens.toNat fed).flatMap
        tokenizer.decode), (continuation (nextToken model) tokenizer.eos maxTokens.toNat fed).length,
        state⟩ := by
  obtain ⟨first, rest, hfirst⟩ := List.exists_cons_of_ne_nil htokens
  have hlimit : ¬ (maxTokens = 0 ∨ maxTokens > 64) := by
    rw [not_or]
    exact ⟨hmax.1, UInt32.not_lt.2 hmax.2⟩
  have hprefill : (if batchedPrefill = true then
        prefillBatched (directModel model) (fun _ => false) (first :: rest) (directModel model).initial
      else prefillSerial (directModel model) (fun _ => false) (first :: rest) 0 first
        (directModel model).initial) =
      .ok (nextToken model (first :: rest), (first :: rest).length, first :: rest) := by
    split
    · exact prefillBatched_model (first :: rest)
    · have hserial := @prefillSerial_model F _ _ model (first :: rest) 0 first [] (fun h => by cases h)
      rw [List.nil_append, Nat.zero_add] at hserial
      exact hserial
  rw [hfirst] at hcontext ⊢
  obtain ⟨state, hloop⟩ := @decodeLoop_model F _ _ model tokenizer maxTokens.toNat 0
    (nextToken model (first :: rest)) (first :: rest).length [] (first :: rest)
  refine ⟨state, ?_⟩
  unfold generate
  rw [if_neg hprompt, if_neg hlimit, hfirst]
  simp only
  rw [if_neg (Nat.not_lt.2 hcontext), hprefill]
  simp only
  rw [hloop, List.nil_append, Nat.zero_add]

end Model

/-! ### The tokens after the prompt -/

section Stream

variable {next : List UInt32 → UInt32} {stop : Option UInt32}

/-- The tokens that follow, without an end. -/
def greedyTokens (next : List UInt32 → UInt32) (count : Nat) (fed : List UInt32) : List UInt32 :=
  continuation next none count fed

theorem greedyTokens_succ (count : Nat) (fed : List UInt32) :
    greedyTokens next (count + 1) fed =
      next fed :: greedyTokens next count (fed ++ [next fed]) := by
  unfold greedyTokens
  rw [continuation, if_neg (by simp)]

theorem greedyTokens_ne_nil (count : Nat) (fed : List UInt32) :
    greedyTokens next (count + 1) fed ≠ [] := by
  rw [greedyTokens_succ]
  exact List.cons_ne_nil _ _

theorem dropLast_greedyTokens (count : Nat) (fed : List UInt32) :
    (greedyTokens next (count + 1) fed).dropLast = greedyTokens next count fed := by
  induction count generalizing fed with
  | zero => rfl
  | succ count ih =>
      rw [greedyTokens_succ, List.dropLast_cons_of_ne_nil (greedyTokens_ne_nil count _), ih,
        greedyTokens_succ count]

/-- The tokens of a list before the first that ends it. -/
def beforeStop (stop : Option UInt32) (tokens : List UInt32) : List UInt32 :=
  tokens.takeWhile (fun token => stop ≠ some token)

/-- The tokens of a list up to the first that ends it, and with it. -/
def throughStop (stop : Option UInt32) : List UInt32 → List UInt32
  | [] => []
  | token :: rest => token :: if stop = some token then [] else throughStop stop rest

theorem continuation_eq_beforeStop (count : Nat) (fed : List UInt32) :
    continuation next stop count fed = beforeStop stop (greedyTokens next count fed) := by
  induction count generalizing fed with
  | zero => rfl
  | succ count ih =>
      rw [continuation, greedyTokens_succ, beforeStop, List.takeWhile_cons]
      by_cases hstop : stop = some (next fed)
      · rw [if_pos hstop]
        simp [hstop]
      · rw [if_neg hstop, if_pos (by simpa using hstop), ih]
        rfl

theorem continuationWithStop_eq_throughStop (count : Nat) (fed : List UInt32) :
    continuationWithStop next stop count fed = throughStop stop (greedyTokens next count fed) := by
  induction count generalizing fed with
  | zero => rfl
  | succ count ih => rw [continuationWithStop_succ, greedyTokens_succ, throughStop, ih]

theorem beforeStop_cons (token : UInt32) (rest : List UInt32) :
    beforeStop stop (token :: rest) =
      if stop = some token then [] else token :: beforeStop stop rest := by
  rw [beforeStop, List.takeWhile_cons]
  by_cases hstop : stop = some token
  · rw [if_pos hstop]
    simp [hstop]
  · rw [if_neg hstop, if_pos (by simpa using hstop)]
    rfl

theorem stops_eq_self {tokens : List UInt32} (h : ∀ token ∈ tokens, stop ≠ some token) :
    beforeStop stop tokens = tokens ∧ throughStop stop tokens = tokens := by
  induction tokens with
  | nil => exact ⟨rfl, rfl⟩
  | cons token rest ih =>
      obtain ⟨hbefore, hthrough⟩ := ih (fun t ht => h t (List.mem_cons_of_mem token ht))
      have htoken := h token List.mem_cons_self
      rw [beforeStop_cons, throughStop, if_neg htoken, if_neg htoken, hbefore, hthrough]
      exact ⟨rfl, rfl⟩

theorem length_beforeStop_le_throughStop (tokens : List UInt32) :
    (beforeStop stop tokens).length ≤ (throughStop stop tokens).length := by
  induction tokens with
  | nil => exact Nat.le_refl 0
  | cons token rest ih =>
      rw [beforeStop_cons, throughStop]
      split
      · exact Nat.zero_le _
      · exact Nat.succ_le_succ ih

/-- When a token ends a list, its last token is not needed for those before the end. -/
theorem length_beforeStop_le_dropLast {tokens : List UInt32}
    (h : ∃ token ∈ tokens, stop = some token) :
    (beforeStop stop tokens).length ≤ (beforeStop stop tokens.dropLast).length := by
  induction tokens with
  | nil =>
      obtain ⟨_, hmem, _⟩ := h
      cases hmem
  | cons token rest ih =>
      obtain ⟨ending, hmem, hending⟩ := h
      rw [beforeStop_cons]
      split
      next => exact Nat.zero_le _
      next hne =>
          have hrest : ending ∈ rest := by
            rcases List.mem_cons.1 hmem with heq | hrest
            · exact absurd (heq ▸ hending) hne
            · exact hrest
          rw [List.dropLast_cons_of_ne_nil (List.ne_nil_of_mem hrest), beforeStop_cons, if_neg hne]
          exact Nat.succ_le_succ (ih ⟨ending, hrest, hending⟩)

/-- A list that is its own tail and its own front repeats one item. -/
theorem eq_replicate_of_dropLast_eq_tail {α : Type} {l : List α} (first : α)
    (hhead : l.head? = some first) (h : l.dropLast = l.tail) : l = List.replicate l.length first := by
  induction l with
  | nil => rfl
  | cons a rest ih =>
      obtain rfl : a = first := Option.some.inj hhead
      cases rest with
      | nil => rfl
      | cons b later =>
          rw [List.dropLast_cons_of_ne_nil (List.cons_ne_nil b later), List.tail_cons] at h
          obtain ⟨rfl, hlater⟩ := List.cons.inj h
          have hrest := ih rfl (by rw [List.tail_cons]; exact hlater)
          rw [List.length_cons, List.replicate_succ, ← hrest]

end Stream

/-! ### The continuation of the prompt -/

section Claim

variable {F : Type} [Zero F] [LinearOrder F] (model : List UInt32 → GenericTensor F)

/-- The greedy continuation of a prompt, as `run` of the generation session gives it,
with the end-of-sequence token that ends it or without. -/
def promptContinuation (withEnd : Bool) (tokenizer : DirectTokenizer) (prompt : List UInt8)
    (maxTokens : UInt32) : List UInt32 :=
  if withEnd = true then
    continuationWithStop (nextToken model) tokenizer.eos maxTokens.toNat (tokenizer.encode prompt)
  else continuation (nextToken model) tokenizer.eos maxTokens.toNat (tokenizer.encode prompt)

/-- The session returns the decodings of the continuation, and counts its tokens. -/
def ReturnsContinuation (withEnd batchedPrefill : Bool) (tokenizer : DirectTokenizer)
    (prompt : List UInt8) (maxTokens : UInt32) : Prop :=
  ∃ state, generate (directModel model) tokenizer (fun _ => false) batchedPrefill prompt maxTokens =
    .ok ⟨shown ((promptContinuation model withEnd tokenizer prompt maxTokens).flatMap
      tokenizer.decode), (promptContinuation model withEnd tokenizer prompt maxTokens).length, state⟩

/-- The tokens after the prompt, one more than are asked for. -/
def promptTokens (tokenizer : DirectTokenizer) (prompt : List UInt8) (maxTokens : UInt32) :
    List UInt32 :=
  greedyTokens (nextToken model) (maxTokens.toNat + 1) (tokenizer.encode prompt)

/-- Tokens read the same from the first as from the second: none of them ends the
sequence and both decode alike; or the first ends it, and what follows up to the
next end decodes like what is returned of it. -/
def DecodesAlike (withEnd : Bool) (tokenizer : DirectTokenizer) (tokens : List UInt32) : Prop :=
  ((∀ token ∈ tokens, tokenizer.eos ≠ some token) ∧
    shown (tokens.dropLast.flatMap tokenizer.decode) =
      shown (tokens.tail.flatMap tokenizer.decode)) ∨
  ∃ first second later, tokens = first :: second :: later ∧ tokenizer.eos = some first ∧
    if withEnd = true then
      second ≠ first ∧
        ((later = [] ∧ shown (tokenizer.decode second) = shown (tokenizer.decode first)) ∨
          (later.head? = some first ∧
            shown (tokenizer.decode second ++ tokenizer.decode first) =
              shown (tokenizer.decode first)))
    else second = first ∧ shown (tokenizer.decode first) = shown []

/-- The bytes of a token id, most significant first: a decoding that tells all tokens
apart. -/
def idBytes (token : UInt32) : List UInt8 :=
  [(token >>> 24).toUInt8, (token >>> 16).toUInt8, (token >>> 8).toUInt8, token.toUInt8]

theorem idBytes_injective {a b : UInt32} (h : idBytes a = idBytes b) : a = b := by
  simp only [idBytes, List.cons.injEq, and_true] at h
  obtain ⟨h3, h2, h1, h0⟩ := h
  have hbyte : ∀ (c : UInt32) (k : Nat), k < 32 →
      (c >>> UInt32.ofNat k).toUInt8.toNat = c.toNat / 2 ^ k % 256 := by
    intro c k hk
    rw [UInt32.toNat_toUInt8, UInt32.toNat_shiftRight, Nat.shiftRight_eq_div_pow,
      UInt32.toNat_ofNat_of_lt' (Nat.lt_trans hk (by decide)), Nat.mod_eq_of_lt hk]
  have h3' : a.toNat / 2 ^ 24 % 256 = b.toNat / 2 ^ 24 % 256 := by
    rw [← hbyte a 24 (by decide), ← hbyte b 24 (by decide)]
    exact congrArg UInt8.toNat h3
  have h2' : a.toNat / 2 ^ 16 % 256 = b.toNat / 2 ^ 16 % 256 := by
    rw [← hbyte a 16 (by decide), ← hbyte b 16 (by decide)]
    exact congrArg UInt8.toNat h2
  have h1' : a.toNat / 2 ^ 8 % 256 = b.toNat / 2 ^ 8 % 256 := by
    rw [← hbyte a 8 (by decide), ← hbyte b 8 (by decide)]
    exact congrArg UInt8.toNat h1
  have h0' : a.toNat % 256 = b.toNat % 256 := by
    rw [← UInt32.toNat_toUInt8, ← UInt32.toNat_toUInt8, h0]
  have ha := a.toNat_lt
  have hb := b.toNat_lt
  apply UInt32.toNat_inj.1
  omega

theorem flatMap_idBytes_injective {l l' : List UInt32} (h : l.flatMap idBytes = l'.flatMap idBytes) :
    l = l' := by
  induction l generalizing l' with
  | nil =>
      cases l' with
      | nil => rfl
      | cons b rest => simp [idBytes] at h
  | cons a rest ih =>
      cases l' with
      | nil => simp [idBytes] at h
      | cons b rest' =>
          rw [List.flatMap_cons, List.flatMap_cons] at h
          obtain ⟨hhead, htail⟩ := List.append_inj h rfl
          rw [idBytes_injective hhead, ih htail]

theorem length_flatMap_idBytes (l : List UInt32) : (l.flatMap idBytes).length = 4 * l.length := by
  induction l with
  | nil => rfl
  | cons a rest ih =>
      rw [List.flatMap_cons, List.length_append, ih, List.length_cons]
      show 4 + _ = _
      omega

theorem eq_of_shown_idBytes {l l' : List UInt32}
    (h : shown (l.flatMap idBytes) = shown (l'.flatMap idBytes)) : l = l' := by
  have hmarker : ∀ l : List UInt32, emptyMarker ≠ l.flatMap idBytes := by
    intro l heq
    have hlength := congrArg List.length heq
    rw [length_flatMap_idBytes] at hlength
    have hseven : emptyMarker.length = 7 := rfl
    omega
  unfold shown at h
  split at h
  next hnil =>
      split at h
      next hnil' => exact flatMap_idBytes_injective (hnil.trans hnil'.symm)
      next => exact absurd h (hmarker l')
  next =>
      split at h
      next => exact absurd h.symm (hmarker l)
      next => exact flatMap_idBytes_injective h

/-- Decodings that tell all tokens apart leave only one token, over and over. -/
theorem decodesAlike_idBytes {withEnd : Bool} {encode : List UInt8 → List UInt32}
    {eos : Option UInt32} {first : UInt32} {rest : List UInt32}
    (h : DecodesAlike withEnd ⟨encode, idBytes, eos⟩ (first :: rest)) :
    eos ≠ some first ∧ first :: rest = List.replicate (rest.length + 1) first := by
  rcases h with ⟨hnone, halike⟩ | ⟨first', second, later, htokens, hfirst, hcase⟩
  · exact ⟨hnone first List.mem_cons_self,
      eq_replicate_of_dropLast_eq_tail first rfl (eq_of_shown_idBytes halike)⟩
  · exfalso
    have hone : ∀ a, shown (idBytes a) = shown ([a].flatMap idBytes) := fun _ => rfl
    split at hcase
    · obtain ⟨hne, ⟨_, halike⟩ | ⟨_, halike⟩⟩ := hcase
      · have hsame : [second] = [first'] := eq_of_shown_idBytes halike
        exact hne (List.cons.inj hsame).1
      · have hsame : [second, first'] = [first'] := eq_of_shown_idBytes halike
        cases hsame
    · have hsame : [first'] = [] := eq_of_shown_idBytes hcase.2
      cases hsame

theorem decodesAlike_replicate (withEnd : Bool) (tokenizer : DirectTokenizer) (count : Nat)
    {token : UInt32} (h : tokenizer.eos ≠ some token) :
    DecodesAlike withEnd tokenizer (List.replicate (count + 1) token) := by
  refine Or.inl ⟨?_, ?_⟩
  · intro t ht
    rw [List.eq_of_mem_replicate ht]
    exact h
  · rw [List.dropLast_replicate, List.tail_replicate]

/-- Whatever they decode to, tokens decode alike only when they are one token that does
not end the sequence. -/
theorem decodesAlike_forall_iff (withEnd : Bool) (encode : List UInt8 → List UInt32)
    (eos : Option UInt32) (first : UInt32) (rest : List UInt32) :
    (∀ decode, DecodesAlike withEnd ⟨encode, decode, eos⟩ (first :: rest)) ↔
      eos ≠ some first ∧ first :: rest = List.replicate (rest.length + 1) first := by
  constructor
  · exact fun h => decodesAlike_idBytes (h idBytes)
  · rintro ⟨hfirst, hreplicate⟩ decode
    rw [hreplicate]
    exact decodesAlike_replicate withEnd _ rest.length hfirst

/-- When the first token ends the sequence, the session goes on to the next end. -/
theorem decodesAlike_iff_of_stop (withEnd : Bool) {tokenizer : DirectTokenizer} {first : UInt32}
    (second : UInt32) (later : List UInt32) (hfirst : tokenizer.eos = some first) :
    let front := (first :: second :: later).dropLast
    let returned := if withEnd = true then throughStop tokenizer.eos front
      else beforeStop tokenizer.eos front
    (shown ((throughStop tokenizer.eos (second :: later)).flatMap tokenizer.decode) =
        shown (returned.flatMap tokenizer.decode) ∧
      (beforeStop tokenizer.eos (second :: later)).length = returned.length) ↔
    DecodesAlike withEnd tokenizer (first :: second :: later) := by
  intro front returned
  have hfront : front = first :: (second :: later).dropLast :=
    List.dropLast_cons_of_ne_nil (List.cons_ne_nil second later)
  have hends : ∀ {token : UInt32}, tokenizer.eos = some token ↔ token = first := by
    intro token
    rw [hfirst, Option.some.injEq]
    exact eq_comm
  have hnever : ¬ ∀ token ∈ first :: second :: later, tokenizer.eos ≠ some token :=
    fun hall => hall first List.mem_cons_self hfirst
  have hreturned : returned = if withEnd = true then [first] else [] := by
    show (if withEnd = true then throughStop tokenizer.eos front
      else beforeStop tokenizer.eos front) = _
    rw [hfront, throughStop, beforeStop_cons, if_pos hfirst, if_pos hfirst]
  have hsame : DecodesAlike withEnd tokenizer (first :: second :: later) ↔
      if withEnd = true then
        second ≠ first ∧
          ((later = [] ∧ shown (tokenizer.decode second) = shown (tokenizer.decode first)) ∨
            (later.head? = some first ∧
              shown (tokenizer.decode second ++ tokenizer.decode first) =
                shown (tokenizer.decode first)))
      else second = first ∧ shown (tokenizer.decode first) = shown [] := by
    constructor
    · rintro (⟨hnone, _⟩ | ⟨first', second', later', htokens, _, hcase⟩)
      · exact absurd hnone hnever
      · obtain ⟨rfl, hrest⟩ := List.cons.inj htokens
        obtain ⟨rfl, rfl⟩ := List.cons.inj hrest
        exact hcase
    · exact fun hcase => Or.inr ⟨first, second, later, rfl, hfirst, hcase⟩
  rw [hsame, hreturned, throughStop, beforeStop_cons]
  by_cases hsecond : second = first
  · -- The second token ends what the session appends.
    rw [if_pos (hends.2 hsecond), if_pos (hends.2 hsecond), hsecond]
    cases withEnd with
    | true => simp
    | false => simp
  · rw [if_neg (mt hends.1 hsecond), if_neg (mt hends.1 hsecond)]
    cases withEnd with
    | false => simp [hsecond]
    | true =>
        cases later with
        | nil => simp [throughStop, beforeStop, hsecond]
        | cons third rest =>
            rw [throughStop, beforeStop_cons]
            by_cases hthird : third = first
            · rw [if_pos (hends.2 hthird), if_pos (hends.2 hthird)]
              simp [hsecond, hthird]
            · rw [if_neg (mt hends.1 hthird), if_neg (mt hends.1 hthird)]
              simp [hthird]

/-- When another token ends it, the session counts too few tokens. -/
theorem length_beforeStop_lt {stop : Option UInt32} {first second : UInt32} {later : List UInt32}
    (withEnd : Bool) (hfirst : stop ≠ some first)
    (hends : ∃ token ∈ second :: later, stop = some token) :
    (beforeStop stop (second :: later)).length <
      (if withEnd = true then throughStop stop (first :: second :: later).dropLast
        else beforeStop stop (first :: second :: later).dropLast).length := by
  have hle := length_beforeStop_le_dropLast hends
  rw [List.dropLast_cons_of_ne_nil (List.cons_ne_nil second later), throughStop,
    beforeStop_cons first, if_neg hfirst, if_neg hfirst]
  cases withEnd with
  | true =>
      exact Nat.lt_succ_of_le (Nat.le_trans hle (length_beforeStop_le_throughStop _))
  | false => exact Nat.lt_succ_of_le hle

/-- The appended tokens against those of the continuation. -/
theorem decodesAlike_iff (withEnd : Bool) (tokenizer : DirectTokenizer) (first second : UInt32)
    (later : List UInt32) :
    let front := (first :: second :: later).dropLast
    let returned := if withEnd = true then throughStop tokenizer.eos front
      else beforeStop tokenizer.eos front
    (shown ((throughStop tokenizer.eos (second :: later)).flatMap tokenizer.decode) =
        shown (returned.flatMap tokenizer.decode) ∧
      (beforeStop tokenizer.eos (second :: later)).length = returned.length) ↔
    DecodesAlike withEnd tokenizer (first :: second :: later) := by
  by_cases hfirst : tokenizer.eos = some first
  · exact decodesAlike_iff_of_stop withEnd second later hfirst
  · intro front returned
    by_cases hends : ∃ token ∈ second :: later, tokenizer.eos = some token
    · have hlt := length_beforeStop_lt withEnd hfirst hends
      constructor
      · exact fun h => absurd h.2 (Nat.ne_of_lt hlt)
      · rintro (⟨hnone, _⟩ | ⟨_, _, _, htokens, hend, _⟩)
        · obtain ⟨token, hmem, hend⟩ := hends
          exact absurd hend (hnone token (List.mem_cons_of_mem first hmem))
        · exact absurd ((List.cons.inj htokens).1 ▸ hend) hfirst
    · have hnone : ∀ token ∈ first :: second :: later, tokenizer.eos ≠ some token := by
        intro token hmem hend
        rcases List.mem_cons.1 hmem with rfl | hrest
        · exact hfirst hend
        · exact hends ⟨token, hrest, hend⟩
      have hreturned : returned = front := by
        obtain ⟨hbefore, hthrough⟩ := @stops_eq_self tokenizer.eos front
          (fun token hmem => hnone token (List.dropLast_subset _ hmem))
        show (if withEnd = true then throughStop tokenizer.eos front
          else beforeStop tokenizer.eos front) = _
        rw [hbefore, hthrough, ite_self]
      obtain ⟨hbefore, hthrough⟩ := @stops_eq_self tokenizer.eos (second :: later)
        (fun token hmem => hnone token (List.mem_cons_of_mem first hmem))
      have hlength : (second :: later).length = front.length := by
        rw [List.length_dropLast]
        rfl
      rw [hreturned, hbefore, hthrough]
      constructor
      · exact fun h => Or.inl ⟨hnone, h.1.symm⟩
      · rintro (⟨_, halike⟩ | ⟨_, _, _, htokens, hend, _⟩)
        · exact ⟨halike.symm, hlength⟩
        · exact absurd ((List.cons.inj htokens).1 ▸ hend) hfirst

variable {model}

/-- The session returns the continuation of the prompt exactly when the tokens after
the prompt read the same from the second one on. -/
theorem generate_returns_continuation_iff (withEnd batchedPrefill : Bool)
    (tokenizer : DirectTokenizer) (prompt : List UInt8) (maxTokens : UInt32) (hprompt : prompt ≠ [])
    (hmax : maxTokens ≠ 0 ∧ maxTokens ≤ 64) (htokens : tokenizer.encode prompt ≠ [])
    (hcontext : (tokenizer.encode prompt).length + maxTokens.toNat ≤ maxContext) :
    ReturnsContinuation model withEnd batchedPrefill tokenizer prompt maxTokens ↔
      DecodesAlike withEnd tokenizer (promptTokens model tokenizer prompt maxTokens) := by
  obtain ⟨state, hgenerate⟩ := @generate_model F _ _ model tokenizer prompt maxTokens batchedPrefill
    hprompt hmax htokens hcontext
  obtain ⟨count, hcount⟩ : ∃ count, maxTokens.toNat = count + 1 :=
    Nat.exists_eq_succ_of_ne_zero (fun hzero => hmax.1 (UInt32.toNat_inj.1 hzero))
  -- The tokens after the prompt, with those that the session appends as their tail.
  have htail : promptTokens model tokenizer prompt maxTokens =
      nextToken model (tokenizer.encode prompt) :: greedyTokens (nextToken model) maxTokens.toNat
        (tokenizer.encode prompt ++ [nextToken model (tokenizer.encode prompt)]) :=
    greedyTokens_succ _ _
  have hfront : (promptTokens model tokenizer prompt maxTokens).dropLast =
      greedyTokens (nextToken model) maxTokens.toNat (tokenizer.encode prompt) :=
    dropLast_greedyTokens _ _
  obtain ⟨second, later, hcons⟩ := List.exists_cons_of_ne_nil (by
    rw [hcount]
    exact greedyTokens_ne_nil _ _ : greedyTokens (nextToken model) maxTokens.toNat
      (tokenizer.encode prompt ++ [nextToken model (tokenizer.encode prompt)]) ≠ [])
  have hiff := decodesAlike_iff withEnd tokenizer (nextToken model (tokenizer.encode prompt)) second
    later
  rw [← hcons, ← htail, hfront] at hiff
  simp only [← continuationWithStop_eq_throughStop, ← continuation_eq_beforeStop] at hiff
  rw [← hiff]
  unfold ReturnsContinuation promptContinuation
  rw [hgenerate]
  constructor
  · rintro ⟨_, hsame⟩
    rw [Except.ok.injEq, DirectGeneration.mk.injEq] at hsame
    exact ⟨hsame.1, hsame.2.1⟩
  · rintro ⟨htext, hlength⟩
    refine ⟨state, ?_⟩
    rw [htext, hlength]

end Claim

/-- Each byte is a token, and none ends a sequence. -/
def exampleTokenizer : DirectTokenizer where
  encode := List.map (fun byte => byte.toUInt32)
  decode := fun token => [token.toUInt8]
  eos := none

/-- A model that always selects token one. -/
def constantModel (_ : List UInt32) : GenericTensor ℚ := ⟨[1, 2], [0, 1]⟩

/-- Every token is the same. -/
theorem generate_returns_continuation_constant :
    ReturnsContinuation constantModel false true exampleTokenizer [5, 6] 3 := by
  have htokens : promptTokens constantModel exampleTokenizer [5, 6] 3 = List.replicate 4 1 := by
    decide +kernel
  refine (generate_returns_continuation_iff false true exampleTokenizer [5, 6] 3 (by decide)
    (by decide) (by decide) (by decide)).2 ?_
  rw [htokens]
  exact decodesAlike_replicate false exampleTokenizer 3 (by simp [exampleTokenizer])

/-- After two tokens, the model continues with 2, 0 and 1: the session returns 0 and 1. -/
theorem generate_loses_first_token :
    ¬ ReturnsContinuation exampleModel false true exampleTokenizer [5, 6] 2 ∧
      ¬ ReturnsContinuation exampleModel false false exampleTokenizer [5, 6] 2 ∧
      ¬ ReturnsContinuation exampleModel true true exampleTokenizer [5, 6] 2 ∧
      ¬ ReturnsContinuation exampleModel true false exampleTokenizer [5, 6] 2 := by
  have hgenerated : ∀ batchedPrefill, (generate (directModel exampleModel) exampleTokenizer
      (fun _ => false) batchedPrefill [5, 6] 2).toOption.map (fun generation => generation.text) =
        some [0, 1] := by
    decide +kernel
  have hcontinuation : ∀ withEnd, promptContinuation exampleModel withEnd exampleTokenizer [5, 6] 2 =
      [2, 0] := by
    decide +kernel
  have hnot : ∀ withEnd batchedPrefill, ¬ ReturnsContinuation exampleModel withEnd batchedPrefill
      exampleTokenizer [5, 6] 2 := by
    rintro withEnd batchedPrefill ⟨state, h⟩
    have htext := hgenerated batchedPrefill
    rw [h, hcontinuation] at htext
    have hbytes : [2, 0] = ([0, 1] : List UInt8) := Option.some.inj htext
    exact absurd hbytes (by decide)
  exact ⟨hnot false true, hnot false false, hnot true true, hnot true false⟩

end VBuf.Android
