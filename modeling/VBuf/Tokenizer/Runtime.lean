import VBuf.Lib.PairMerge
import VBuf.Lib.Result
import VBuf.Lib.Utf8

/-!
# The tokenizer of the runtime

`Gpt2ByteLevelTokenizer` over validated tokenizer metadata.  The regular expression
that splits a text is a parameter.
-/

namespace VBuf.Tokenizer

open VBuf.Lib

/-! ### Metadata -/

inductive TokenizerKind
  | vocabularyOnly
  | gpt2BpeQwen2
  | gpt2BpeByteLevel
  deriving DecidableEq, Repr

inductive PreTokenizerKind
  | qwen2
  | deepSeek
  | gpt2ByteLevel
  deriving DecidableEq, Repr

/-- `TokenizerMetadata`, with what its parser has validated of the texts and ids. -/
structure TokenizerMetadata where
  kind : TokenizerKind
  hasModel : Bool
  preTokenizer : Option PreTokenizerKind
  texts : List String
  merges : List (UInt32 × UInt32)
  bos : Option UInt32
  unk : Option UInt32
  specialIds : Option (List UInt32)
  addBos : Option Bool
  ignoreMerges : Option Bool
  count_le : texts.length ≤ 10000000
  merges_le : merges.length ≤ 10000000
  text_length : ∀ text ∈ texts, (utf8 text).length ≤ 4096
  text_ne_zero : ∀ text ∈ texts, ∀ byte ∈ utf8 text, byte ≠ 0
  specialIds_lt : ∀ ids, specialIds = some ids → ∀ id ∈ ids, id.toNat < texts.length

/-- `TokenIndex::lookup`: the last token of the bytes. -/
def tokenIndex (texts : List (List UInt8)) (bytes : List UInt8) : Option UInt32 :=
  ((texts.zipIdx.reverse).find? (fun entry => entry.1 = bytes)).map
    (fun entry => UInt32.ofNat entry.2)

/-- `MergeRankIndex::lookup`: the last rank of the pair. -/
def mergeRank (merges : List (UInt32 × UInt32)) (left right : UInt32) : Option Nat :=
  ((merges.zipIdx.reverse).find? (fun entry => entry.1 = (left, right))).map (fun entry => entry.2)

/-- The token of the text of two tokens. -/
def mergedToken (texts : List (List UInt8)) (left right : UInt32) : Option UInt32 :=
  match texts[left.toNat]?, texts[right.toNat]? with
  | some leftText, some rightText => tokenIndex texts (leftText ++ rightText)
  | _, _ => none

namespace TokenizerMetadata

variable (metadata : TokenizerMetadata)

/-- `token_bytes`, of all tokens. -/
def tokenBytes : List (List UInt8) := metadata.texts.map utf8

end TokenizerMetadata

/-! ### The byte alphabet -/

/-- `is_direct_byte`. -/
def isDirectByte (value : Nat) : Bool :=
  (0x21 ≤ value && value ≤ 0x7e) || (0xa1 ≤ value && value ≤ 0xac) || (0xae ≤ value && value ≤ 0xff)

/-- The bytes before a byte that have no character of their own. -/
def extra (value : Nat) : Nat := ((List.range value).filter (fun v => !isDirectByte v)).length

/-- `byte_to_unicode`. -/
def byteToUnicode (byte : UInt8) : Char :=
  if isDirectByte byte.toNat then Char.ofNat byte.toNat
  else Char.ofNat (256 + extra byte.toNat)

/-- `unicode_to_byte`. -/
def unicodeToByte (character : Char) : Option UInt8 :=
  if character.toNat ≤ 255 ∧ isDirectByte character.toNat = true then
    some (UInt8.ofNat character.toNat)
  else
    ((List.range 256).find? (fun value =>
      !isDirectByte value && 256 + extra value == character.toNat)).map UInt8.ofNat

/-- The bytes of the character of a byte. -/
def byteSymbol (byte : UInt8) : List UInt8 := String.utf8EncodeChar (byteToUnicode byte)

/-! ### Encoding -/

/-- The regular expression that splits a text: a match starts at the cursor or behind
it, is not empty and ends in the text. -/
structure PreTokenizer where
  findAt : List UInt8 → Nat → Option (Nat × Nat)
  cursor_le : ∀ text cursor start stop, findAt text cursor = some (start, stop) → cursor ≤ start
  start_lt : ∀ text cursor start stop, findAt text cursor = some (start, stop) → start < stop
  stop_le : ∀ text cursor start stop, findAt text cursor = some (start, stop) → stop ≤ text.length

structure Gpt2ByteLevelTokenizer where
  metadata : TokenizerMetadata
  pretokenizer : PreTokenizer

namespace Gpt2ByteLevelTokenizer

/-- `build`. -/
def build (metadata : TokenizerMetadata) (pretokenizer : PreTokenizer) :
    Except String Gpt2ByteLevelTokenizer :=
  if metadata.kind ≠ .gpt2BpeByteLevel ∨ metadata.hasModel = false ∨
      metadata.preTokenizer ≠ some .gpt2ByteLevel then
    .error "tokenizer is not the persistent GPT-2 byte-level profile"
  else .ok ⟨metadata, pretokenizer⟩

variable (tokenizer : Gpt2ByteLevelTokenizer)

/-- `max_by_key` over the lengths: the last of the longest. -/
def longerSpecial (best : Option (UInt32 × Nat)) (entry : UInt32 × Nat) : Option (UInt32 × Nat) :=
  match best with
  | none => some entry
  | some b => if entry.2 ≥ b.2 then some entry else some b

/-- `special_at`: the last of the longest special tokens that start at the cursor.  The
cursor is always between two characters. -/
def specialAt (text : List UInt8) (cursor : Nat) : Option (UInt32 × Nat) :=
  let found := (tokenizer.metadata.specialIds.getD []).filterMap fun id =>
    match tokenizer.metadata.texts[id.toNat]? with
    | some token =>
        if (utf8 token).isPrefixOf (text.drop cursor) then some (id, (utf8 token).length) else none
    | none => none
  found.foldl longerSpecial none

/-- The tokens of the bytes of a piece. -/
def byteSymbols (bytes : List UInt8) : Except String (List UInt32) :=
  bytes.mapM fun byte =>
    okOr (tokenIndex tokenizer.metadata.tokenBytes (byteSymbol byte)) "byte token is absent"

/-- The position of the first pair of least rank. -/
def bestPair (symbols : List UInt32) : Option Nat :=
  (leftmostMin (pairRank (mergeRank tokenizer.metadata.merges) symbols)
    (symbols.length - 1)).map Prod.fst

/-- The error of a pair whose text is not a token. -/
def mergeError (symbols : List UInt32) (position : Nat) : String :=
  match tokenizer.metadata.tokenBytes[(symbols.getD position 0).toNat]?,
      tokenizer.metadata.tokenBytes[(symbols.getD (position + 1) 0).toNat]? with
  | none, _ => "merge-left token is absent"
  | some _, none => "merge-right token is absent"
  | some _, some _ => "merged token is absent"

/-- `merge_symbols`. -/
def mergeSymbols (symbols : List UInt32) : Except String (List UInt32) :=
  mergeLoop tokenizer.bestPair (mergedToken tokenizer.metadata.tokenBytes) tokenizer.mergeError
    symbols.length symbols

/-- The loop of `encode`, from a cursor; a step that makes no progress has no result. -/
def encodeFrom (text : List UInt8) : Nat → Nat → Except String (List UInt32)
  | fuel, cursor =>
      if text.length ≤ cursor then .ok []
      else
        match fuel with
        | 0 => .error "no progress"
        | fuel + 1 =>
            match tokenizer.specialAt text cursor with
            | some (id, length) => do
                let rest ← encodeFrom text fuel (cursor + length)
                .ok (id :: rest)
            | none =>
                match tokenizer.pretokenizer.findAt text cursor with
                | none => .error "GPT-2 pre-tokenization made no progress"
                | some (start, stop) =>
                    if start ≠ cursor then
                      .error "GPT-2 pre-tokenizer left an uncovered input span"
                    else do
                      let symbols ← tokenizer.byteSymbols ((text.drop cursor).take (stop - cursor))
                      let symbols ← (if tokenizer.metadata.ignoreMerges.getD false = true then
                          .ok symbols
                        else tokenizer.mergeSymbols symbols)
                      let rest ← encodeFrom text fuel stop
                      .ok (symbols ++ rest)

/-- `encode`. -/
def encode (text : List UInt8) : Except String (List UInt32) := do
  let output ← tokenizer.encodeFrom text text.length 0
  match tokenizer.metadata.addBos, tokenizer.metadata.bos with
  | some true, some bos => .ok (bos :: output)
  | _, _ => .ok output

/-! ### Decoding -/

/-- The bytes of a token: those of its text when it is special. -/
def decodeToken (token : UInt32) : Except String (List UInt8) :=
  match tokenizer.metadata.texts[token.toNat]? with
  | none => .error "token ID is outside vocabulary"
  | some text =>
      if (tokenizer.metadata.specialIds.getD []).contains token = true then .ok (utf8 text)
      else
        text.toList.mapM fun character =>
          okOr (unicodeToByte character) "token is not GPT-2 byte-level text"

/-- `decode`. -/
def decode (tokens : List UInt32) : Except String String := do
  let bytes ← tokens.mapM tokenizer.decodeToken
  okOr (fromUtf8 bytes.flatten) "decoded bytes are not UTF-8"

end Gpt2ByteLevelTokenizer

end VBuf.Tokenizer
