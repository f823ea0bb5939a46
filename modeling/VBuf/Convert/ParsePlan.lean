import VBuf.Lib.Reader
import VBuf.Lib.Utf8
import VBuf.Ml.Representation

/-!
# The conversion plan as the native converter reads it

`parse_plan` takes the fields of a plan from a cursor, one after another, and
accepts no byte behind the last of them.
-/

namespace VBuf.Convert

open VBuf.Lib VBuf.Lib.Reader VBuf.V06 VBuf.Ml

/-- `Meta`. -/
structure Meta where
  key : Nat
  required : Bool
  kind : Nat
  bytes : List UInt8
  deriving DecidableEq, Repr

/-- `Tensor`. -/
structure Tensor where
  name : String
  dims : List Nat
  repr : TensorRepresentation
  offset : Nat
  bytes : Nat
  order : Nat
  deriving DecidableEq, Repr

/-- `MoeParameters`. -/
structure MoeParameters where
  expertCount : Nat
  activeExpertCount : Nat
  layerCount : Nat
  sharedExperts : Bool
  sharedExpertCount : Nat
  normalizeTopkProb : Bool
  routingGroupCount : Nat
  routingTopkGroupCount : Nat
  routedScalingFactorBits : Nat
  deriving DecidableEq, Repr

/-- `Plan`. -/
structure Plan where
  baseShift : Nat
  sourceSize : Nat
  sourceHash : List UInt8
  metadata : List Meta
  text : List UInt8
  offsets : List Nat
  types : List Nat
  left : List Nat
  right : List Nat
  addBos : Bool
  preTokenizer : Nat
  specials : List (Nat × Nat)
  chat : List UInt8
  tensors : List Tensor
  moe : Option MoeParameters
  deriving DecidableEq, Repr

namespace Plan

/-- `PLAN_MAGIC`. -/
def magic : List UInt8 := [0x56, 0x42, 0x55, 0x46, 0x32, 0x30, 0x50, 0x4c]

/-- `PLAN_VERSION`. -/
def version : Nat := 2

/-- `take`. -/
def take (count : Nat) : Reader String (List UInt8) := fun bytes cursor => do
  rejectIf (u64Bound ≤ cursor + count) "plan cursor overflow"
  rejectIf (bytes.length < cursor + count) "truncated conversion plan"
  pure ((bytes.drop cursor).take count, cursor + count)

/-- `u8v`, `u16v`, `u32v` and `u64v`. -/
def uintv (width : Nat) : Reader String Nat := do
  let bytes ← take width
  pure (ofLeBytes bytes)

/-- `blob`; every u64 length is a `usize` of the 64-bit host. -/
def blob : Reader String (List UInt8) := do
  let length ← uintv 8
  take length

/-- `text`. -/
def readText : Reader String String := do
  let bytes ← blob
  require (fromUtf8 bytes) "plan text is not UTF-8"

/-- `u8v(bytes, c)? != 0`. -/
def boolv : Reader String Bool := do
  let value ← uintv 1
  pure (decide (value ≠ 0))

/-- The entry of a metadata row. -/
def readMeta : Reader String Meta := do
  let key ← uintv 2
  let required ← boolv
  let kind ← uintv 1
  let bytes ← blob
  pure { key, required, kind, bytes }

/-- The entry of a special token. -/
def readSpecial : Reader String (Nat × Nat) := do
  let role ← uintv 1
  let value ← uintv 8
  pure (role, value)

/-- The representation of a code. -/
def representation : Nat → Option TensorRepresentation
  | 0 => some .canonicalPrimitive
  | 1 => some .bf16
  | 2 => some .ggmlQ8_0
  | 3 => some .ggmlQ4_0
  | 4 => some .ggmlQ2_K
  | 5 => some .ggmlIQ1_S
  | 6 => some .ggmlQ4_K
  | 7 => some .ggmlIQ4_NL
  | 8 => some .ggmlIQ4_XS
  | 9 => some .ggmlQ3_K
  | 10 => some .ggmlIQ2_XXS
  | 11 => some .ggmlIQ2_XS
  | 12 => some .ggmlIQ2_S
  | 13 => some .ggmlQ5_K
  | 14 => some .ggmlQ6_K
  | 15 => some .f8E4M3
  | _ => none

/-- The entry of a tensor. -/
def readTensor : Reader String Tensor := do
  let name ← readText
  let rank ← uintv 1
  let dims ← many (uintv 8) rank
  let code ← uintv 1
  let repr ← require (representation code) "unknown tensor representation in plan"
  let offset ← uintv 8
  let bytes ← uintv 8
  let order ← uintv 4
  pure { name, dims, repr, offset, bytes, order }

/-- The parameters of the experts after a nonzero presence flag. -/
def readMoeParameters : Reader String MoeParameters := do
  let expertCount ← uintv 4
  let activeExpertCount ← uintv 4
  let layerCount ← uintv 4
  let sharedExpertCount ← uintv 4
  let sharedExperts ← boolv
  pure
    { expertCount
      activeExpertCount
      layerCount
      sharedExperts
      sharedExpertCount
      normalizeTopkProb := false
      routingGroupCount := 0
      routingTopkGroupCount := 0
      routedScalingFactorBits := 0x3f800000 }

/-- The optional parameters of the experts. -/
def readMoe : Reader String (Option MoeParameters) := do
  let present ← boolv
  if present then do
    let parameters ← readMoeParameters
    pure (some parameters)
  else pure none

/-- The fields of a plan. -/
def fields : Reader String Plan := do
  let found ← take 8
  check (found ≠ magic) "conversion plan magic mismatch"
  let version ← uintv 4
  check (version ≠ Plan.version) "unsupported conversion plan version"
  let baseShift ← uintv 1
  let flags ← uintv 1
  check (flags ≠ 0) "conversion plan flags are nonzero"
  let reserved ← uintv 2
  check (reserved ≠ 0) "conversion plan flags are nonzero"
  let sourceSize ← uintv 8
  let sourceHash ← take 32
  let metadataCount ← uintv 2
  let metadata ← many readMeta metadataCount
  let textPool ← blob
  let offsetCount ← uintv 8
  let offsets ← many (uintv 8) offsetCount
  let typeCount ← uintv 8
  let types ← many (uintv 4) typeCount
  let mergeCount ← uintv 8
  let left ← many (uintv 4) mergeCount
  let right ← many (uintv 4) mergeCount
  let addBos ← boolv
  let preTokenizer ← uintv 1
  let specialCount ← uintv 1
  let specials ← many readSpecial specialCount
  let chat ← blob
  let tensorCount ← uintv 4
  let tensors ← many readTensor tensorCount
  let moe ← readMoe
  pure
    { baseShift
      sourceSize
      sourceHash
      metadata
      text := textPool
      offsets
      types
      left
      right
      addBos
      preTokenizer
      specials
      chat
      tensors
      moe }

end Plan

/-- `parse_plan`. -/
def parsePlan (bytes : List UInt8) : Except String Plan := do
  let (plan, cursor) ← Plan.fields bytes 0
  rejectIf (cursor ≠ bytes.length) "conversion plan has trailing bytes"
  pure plan

end VBuf.Convert
