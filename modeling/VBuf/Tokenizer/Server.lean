import VBuf.Tokenizer.Runtime

/-!
# The tokenizer of the server

`VbufTokenizer` of the compatibility server over the same metadata, which it reads
through the consumer interface into its own tables.
-/

namespace VBuf.Tokenizer

open VBuf.Lib

/-! ### UTF-8 -/

/-- `append_utf8`; the bits that are joined do not overlap. -/
def appendUtf8 (codepoint : Nat) : List UInt8 :=
  if codepoint ≤ 0x7f then [UInt8.ofNat codepoint]
  else if codepoint ≤ 0x7ff then
    [UInt8.ofNat (0xc0 + codepoint / 64), UInt8.ofNat (0x80 + codepoint % 64)]
  else if codepoint ≤ 0xffff then
    [UInt8.ofNat (0xe0 + codepoint / 4096), UInt8.ofNat (0x80 + codepoint / 64 % 64),
      UInt8.ofNat (0x80 + codepoint % 64)]
  else
    [UInt8.ofNat (0xf0 + codepoint / 262144), UInt8.ofNat (0x80 + codepoint / 4096 % 64),
      UInt8.ofNat (0x80 + codepoint / 64 % 64), UInt8.ofNat (0x80 + codepoint % 64)]

/-- The continuation bytes of `next_utf8`. -/
def continuationBytes : Nat → Nat → List UInt8 → Option (Nat × List UInt8)
  | 0, result, rest => some (result, rest)
  | _ + 1, _, [] => none
  | count + 1, result, byte :: rest =>
      if byte.toNat / 64 ≠ 2 then none
      else continuationBytes count (result * 64 + byte.toNat % 64) rest

/-- `next_utf8`, from an offset on: the code point and what is behind it. -/
def nextUtf8 : List UInt8 → Option (Nat × List UInt8)
  | [] => none
  | byte :: rest =>
      let value := byte.toNat
      if value < 0x80 then some (value, rest)
      else if value ≥ 0xf0 then continuationBytes 3 (value % 8) rest
      else if value ≥ 0xe0 then continuationBytes 2 (value % 16) rest
      else continuationBytes 1 (value % 32) rest

/-! ### The byte alphabet -/

/-- The bytes with a character of their own. -/
def directBytes : List Nat :=
  List.range' 0x21 (0x7f - 0x21) ++ List.range' 0xa1 (0xad - 0xa1) ++ List.range' 0xae (0x100 - 0xae)

/-- `mapping`, of all bytes: the others follow from 256 on. -/
def byteMapping : List Nat :=
  ((List.range 256).foldl (fun (mapping, next) value =>
    if directBytes.contains value then (mapping ++ [value], next)
    else (mapping ++ [256 + next], next + 1)) ([], 0)).1

/-- `byte_encoded`. -/
def byteEncoded (input : List UInt8) : List UInt8 :=
  input.flatMap fun byte => appendUtf8 (byteMapping.getD byte.toNat 0)

/-- `reverse_byte_`. -/
def reverseByte (codepoint : Nat) : Option UInt8 :=
  ((List.range 256).find? (fun value => byteMapping.getD value 0 == codepoint)).map UInt8.ofNat

/-! ### The tokenizer -/

structure VbufTokenizer where
  tokenTexts : List (List UInt8)
  merges : List (UInt32 × UInt32)
  bos : Option UInt32
  unk : Option UInt32

namespace VbufTokenizer

/-- The constructor: a text is copied to a buffer of 8192 bytes, up to its first zero. -/
def ofMetadata (metadata : TokenizerMetadata) : Except String VbufTokenizer :=
  if ∃ text ∈ metadata.texts, (utf8 text).length + 1 > 8192 then
    .error "vBuf token text lookup failed"
  else
    .ok
      { tokenTexts := metadata.texts.map (fun text => (utf8 text).takeWhile (fun byte => byte ≠ 0))
        merges := metadata.merges
        bos := metadata.bos
        unk := metadata.unk }

variable (tokenizer : VbufTokenizer)

/-- The token of a symbol. -/
def symbolId (symbol : List UInt8) : Except String UInt32 :=
  match tokenIndex tokenizer.tokenTexts symbol with
  | some id => .ok id
  | none =>
      match tokenizer.unk with
      | some unk => .ok unk
      | none => .error "vBuf tokenizer cannot represent input byte"

/-- The loop over the symbols of an encoded text. -/
def symbolIds : Nat → List UInt8 → Except String (List UInt32)
  | _, [] => .ok []
  | 0, _ => .error "vBuf tokenizer produced invalid UTF-8"
  | fuel + 1, encoded =>
      match nextUtf8 encoded with
      | none => .error "vBuf tokenizer produced invalid UTF-8"
      | some (_, rest) => do
          let id ← tokenizer.symbolId (encoded.take (encoded.length - rest.length))
          let ids ← symbolIds fuel rest
          .ok (id :: ids)

/-- A step of the scan for the best pair. -/
def betterPair (ids : List UInt32) (best : Nat × Nat) (index : Nat) : Nat × Nat :=
  match pairRank (mergeRank tokenizer.merges) ids index with
  | some rank => if rank < best.2 then (index, rank) else best
  | none => best

/-- The scan for the best pair: the position, or the length, and its rank. -/
def bestRank (ids : List UInt32) : Nat × Nat :=
  (List.range (ids.length - 1)).foldl (tokenizer.betterPair ids) (ids.length, 2 ^ 32 - 1)

/-- The position of the best pair, unless none has a rank. -/
def bestPair (ids : List UInt32) : Option Nat :=
  if (tokenizer.bestRank ids).1 = ids.length then none else some (tokenizer.bestRank ids).1

/-- A part of a prompt: a special token or a text. -/
inductive PromptPart
  | special (id : UInt32)
  | text (bytes : List UInt8)

/-- A part of `encode_parts`. -/
def encodePart : PromptPart → Except String (List UInt32)
  | .special id => .ok [id]
  | .text bytes => do
      let encoded := byteEncoded bytes
      let ids ← tokenizer.symbolIds encoded.length encoded
      mergeLoop tokenizer.bestPair (mergedToken tokenizer.tokenTexts)
        (fun _ _ => "vBuf tokenizer merge result is absent") ids.length ids

/-- `encode_parts`. -/
def encodeParts (parts : List PromptPart) : Except String (List UInt32) := do
  let outputs ← parts.mapM tokenizer.encodePart
  .ok outputs.flatten

/-- `encode_text`. -/
def encodeText (text : List UInt8) (includeBos : Bool) : Except String (List UInt32) :=
  match includeBos, tokenizer.bos with
  | true, some bos => tokenizer.encodeParts [.special bos, .text text]
  | _, _ => tokenizer.encodeParts [.text text]

/-- The code points of a token text, back to bytes. -/
def decodeText : Nat → List UInt8 → List UInt8
  | 0, _ => []
  | fuel + 1, text =>
      match nextUtf8 text with
      | none => []
      | some (codepoint, rest) =>
          (match reverseByte codepoint with
            | some byte => [byte]
            | none => appendUtf8 codepoint) ++ decodeText fuel rest

/-- `decode`. -/
def decode (tokens : List UInt32) : List UInt8 :=
  tokens.flatMap fun token =>
    match tokenizer.tokenTexts[token.toNat]? with
    | none => []
    | some text => decodeText text.length text

end VbufTokenizer

end VBuf.Tokenizer
