import Mathlib.Data.List.Infix
import VBuf.Lib.Slice

/-!
# Range reads over a kept connection

`HttpRangeSource::read_range`: a request, the header of its response, and then the body.  A
function cuts what `recv` returns.  The server sends the response to a request when it has the
request, and nothing else, so a `recv` behind it waits and the call does not return.  Connecting
and sending succeed, and an exception ends the run.
-/

namespace VBuf.Ggml.HttpRangeSource

open VBuf.Lib

/-! ### Text -/

/-- `isspace`. -/
def isSpace (byte : UInt8) : Bool := byte == 32 || (9 ≤ byte && byte ≤ 13)

def isDigit (byte : UInt8) : Bool := 48 ≤ byte && byte ≤ 57

/-- The number of leading decimal digits. -/
def digitsValue (digits : List UInt8) : Nat :=
  digits.foldl (fun value digit => value * 10 + (digit.toNat - 48)) 0

/-- `stoull`, and `>>` of a `uint64_t`: the number, and the text behind it. -/
def readUnsigned (text : List UInt8) : Option (UInt64 × List UInt8) :=
  let trimmed := text.dropWhile isSpace
  let negative := trimmed.head? = some 45
  let unsigned := if negative ∨ trimmed.head? = some 43 then trimmed.tail else trimmed
  let digits := unsigned.takeWhile isDigit
  let value := digitsValue digits
  if digits = [] ∨ UInt64.size ≤ value then none
  else
    some (if negative then -UInt64.ofNat value else UInt64.ofNat value,
      unsigned.dropWhile isDigit)

/-- `>>` of a string. -/
def readToken (text : List UInt8) : Option (List UInt8 × List UInt8) :=
  let trimmed := text.dropWhile isSpace
  if trimmed = [] then none
  else
    some (trimmed.takeWhile fun byte => !isSpace byte,
      trimmed.dropWhile fun byte => !isSpace byte)

/-- Whether the status of a status line is 206. -/
def isPartialContent (statusLine : List UInt8) : Bool :=
  match readToken statusLine with
  | none => false
  | some (_, rest) =>
      let trimmed := rest.dropWhile isSpace
      let unsigned := if trimmed.head? = some 43 then trimmed.tail else trimmed
      digitsValue (unsigned.takeWhile isDigit) = 206

/-- `bytes`. -/
def bytesUnit : List UInt8 := [98, 121, 116, 101, 115]

/-- The check of a `Content-Range`. -/
def isRequestedRange (value : List UInt8) (start last : UInt64) : Bool :=
  match readToken value with
  | none => false
  | some (unit, rest) =>
      match readUnsigned rest with
      | none => false
      | some (first, rest) =>
          match rest.dropWhile isSpace with
          | [] => false
          | _ :: rest =>
              match readUnsigned rest with
              | none => false
              | some (final, _) => bytesUnit <:+: unit ∧ first = start ∧ final = last

/-! ### Headers -/

/-- The end of a header. -/
def crlfCrlf : List UInt8 := [13, 10, 13, 10]

/-- `std::search`: where the body starts. -/
def bodyStart : List UInt8 → Option Nat
  | [] => none
  | byte :: rest =>
      if crlfCrlf <+: byte :: rest then some 4 else (bodyStart rest).map (· + 1)

/-- `Content-Length:`. -/
def contentLengthName : List UInt8 :=
  [67, 111, 110, 116, 101, 110, 116, 45, 76, 101, 110, 103, 116, 104, 58]

/-- `Content-Range:`. -/
def contentRangeName : List UInt8 :=
  [67, 111, 110, 116, 101, 110, 116, 45, 82, 97, 110, 103, 101, 58]

/-- The fields that are read of a header. -/
structure HeaderFields where
  contentLength : Option UInt64
  contentRange : List UInt8
  deriving DecidableEq, Repr

/-- The loop over the lines; none if `stoull` throws. -/
def readFields : List (List UInt8) → HeaderFields → Option HeaderFields
  | [], fields => some fields
  | line :: rest, fields =>
      if contentLengthName <+: line then
        match readUnsigned (line.drop contentLengthName.length) with
        | none => none
        | some (length, _) => readFields rest { fields with contentLength := some length }
      else if contentRangeName <+: line then
        readFields rest { fields with contentRange := line.drop contentRangeName.length }
      else readFields rest fields

/-- `std::getline` until the end. -/
def headerLines (header : List UInt8) : List (List UInt8) := header.splitOn 10

/-! ### A read -/

/-- `checked_end`. -/
def checkedEnd (offset length : UInt64) : Option UInt64 :=
  if length = 0 ∨ offset > 0xFFFFFFFFFFFFFFFF - length then none else some (offset + length)

/-- How a loop over `recv` ends. -/
inductive Received
  | waiting
  | closed
  | done (bytes left : List UInt8) (turn : Nat)
  deriving DecidableEq

section Receive

variable (cut : Nat → Nat)

/-- The loop over the header, with what was received and what is still to come. -/
def receiveHeader : Nat → Nat → List UInt8 → List UInt8 → Received
  | 0, _, _, _ => .waiting
  | fuel + 1, turn, seen, rest =>
      if rest = [] then .waiting
      else if 65536 < seen.length then .closed
      else
        let count := min 4096 (max 1 (cut turn))
        let seen := seen ++ rest.take count
        match bodyStart seen with
        | some _ => .done seen (rest.drop count) (turn + 1)
        | none => receiveHeader fuel (turn + 1) seen (rest.drop count)

/-- The loop over the body. -/
def receiveBody (length : Nat) : Nat → Nat → List UInt8 → List UInt8 → Received
  | 0, _, _, _ => .waiting
  | fuel + 1, turn, received, rest =>
      if length ≤ received.length then .done received rest turn
      else if rest = [] then .waiting
      else
        let remaining := length - received.length
        let chunk := rest.take (min (min 4096 (remaining + 1)) (max 1 (cut turn)))
        if remaining < chunk.length then .closed
        else receiveBody length fuel (turn + 1) (received ++ chunk) (rest.drop chunk.length)

end Receive

/-- What a call returns: true, with the bytes at the destination and those left on the
connection, or false, which closes it. -/
inductive ReadResult
  | accepted (bytes left : List UInt8)
  | refused
  deriving DecidableEq

/-- The checks of a header; none if `stoull` throws. -/
def checkHeader (length : UInt64) (header : List UInt8) : Option (Option HeaderFields) :=
  let lines := headerLines header
  match readFields lines.tail ⟨none, []⟩ with
  | none => none
  | some fields =>
      if isPartialContent (lines.headD []) = false then some none
      else if fields.contentLength ≠ none ∧ fields.contentLength ≠ some length then some none
      else some (some fields)

/-- The check behind the body. -/
def checkRange (offset last : UInt64) (fields : HeaderFields) : Bool :=
  fields.contentRange = [] ∨ isRequestedRange fields.contentRange offset last

/-- `read_range` behind the header, with what came with it; none if it waits. -/
def readBody (cut : Nat → Nat) (offset length last : UInt64) (fields : HeaderFields) (turn : Nat)
    (initial rest : List UInt8) : Option ReadResult :=
  if length.toNat < initial.length then some .refused
  else
    match receiveBody cut length.toNat (rest.length + 1) turn initial rest with
    | .waiting => none
    | .closed => some .refused
    | .done bytes left _ =>
        if checkRange offset last fields = true then some (.accepted bytes left)
        else some .refused

/-- `read_range` behind the request; none if it waits or throws. -/
def readResponse (cut : Nat → Nat) (offset length last : UInt64) (stream : List UInt8) :
    Option ReadResult :=
  match receiveHeader cut (stream.length + 1) 0 [] stream with
  | .waiting => none
  | .closed => some .refused
  | .done received rest turn =>
      let start := (bodyStart received).getD 0
      match checkHeader length (received.take start) with
      | none => none
      | some none => some .refused
      | some (some fields) =>
          readBody cut offset length last fields turn (received.drop start) rest

/-! ### Calls -/

/-- The response to a request. -/
structure HttpResponse where
  header : List UInt8
  body : List UInt8
  deriving DecidableEq, Repr

/-- A call, with the response that the server gives to its request. -/
structure RangeCall where
  offset : UInt64
  length : UInt64
  response : HttpResponse
  deriving DecidableEq, Repr

/-- The calls one after another, with what is left on the connection; a call that waits or
throws is the last. -/
def readRanges (cut : Nat → Nat → Nat) :
    Nat → List UInt8 → List RangeCall → List ReadResult
  | _, _, [] => []
  | index, left, call :: rest =>
      match checkedEnd call.offset call.length with
      | none => .refused :: readRanges cut (index + 1) left rest
      | some stop =>
          match readResponse (cut index) call.offset call.length (stop - 1)
              (left ++ call.response.header ++ call.response.body) with
          | none => []
          | some .refused => .refused :: readRanges cut (index + 1) [] rest
          | some (.accepted bytes left) =>
              .accepted bytes left :: readRanges cut (index + 1) left rest

end VBuf.Ggml.HttpRangeSource
