import VBuf.Ml.Layout
import VBuf.Ml.Metadata
import VBuf.Ml.Quantization

/-!
# Safetensors headers

What the metadata-only half of the importer reads: JSON documents and the tensor
table of a shard header.  The JSON parser itself is a parameter.
-/

namespace VBuf.Import

open VBuf.Lib VBuf.V06 VBuf.Ml

/-- `serde_json::Value`.  A number carries the results of `as_u64` and of
`as_f64`, the latter by its bits; the keys of an object stand in map order. -/
inductive Json
  | null
  | bool (value : Bool)
  | number (asU64 : Option UInt64) (asF64 : Option UInt64)
  | string (value : String)
  | array (items : List Json)
  | object (fields : List (String × Json))

namespace Json

/-- `Value::as_object`. -/
def asObject : Json → Option (List (String × Json))
  | .object fields => some fields
  | _ => none

/-- `Value::as_array`. -/
def asArray : Json → Option (List Json)
  | .array items => some items
  | _ => none

/-- `Value::as_str`. -/
def asStr : Json → Option String
  | .string value => some value
  | _ => none

/-- `Value::as_u64`. -/
def asU64 : Json → Option Nat
  | .number value _ => value.map UInt64.toNat
  | _ => none

/-- `Map::get`. -/
def field (fields : List (String × Json)) (key : String) : Option Json :=
  (fields.find? (fun pair => pair.1 = key)).map Prod.snd

/-- `Value::get` of a key. -/
def get (value : Json) (key : String) : Option Json :=
  value.asObject.bind (fun fields => field fields key)

theorem asU64_lt {value : Json} {n : Nat} (h : value.asU64 = some n) : n < u64Bound := by
  cases value with
  | number asU64 asF64 =>
      obtain ⟨word, -, rfl⟩ := Option.map_eq_some_iff.1 (show asU64.map UInt64.toNat = some n from h)
      exact word.toNat_lt
  | _ => cases h

end Json

/-- `ImportError`.  An error of another layer keeps its value instead of its
text; `panicked` stands for an unwinding panic. -/
inductive ImportError
  | invalid (text : String)
  | io (text : String)
  | transport (text : String)
  | range (text : String)
  | identityMismatch (text : String)
  | ofMl (error : MlError)
  | ofLayout (error : LayoutError)
  | ofV06 (error : V06.Error)
  | panicked (text : String)
  deriving DecidableEq, Repr

/-- `TensorRepresentationId`. -/
inductive TensorRepresentationId
  | canonicalPrimitive
  | bf16
  | f8E4M3
  deriving DecidableEq, Repr

/-- `SourceTensor`. -/
structure SourceTensor where
  name : String
  shard : String
  sourceBegin : Nat
  sourceEnd : Nat
  dtype : String
  shape : List Nat
  representation : Option TensorRepresentationId
  deriving DecidableEq, Repr

/-- `MAX_HEADER_BYTES`. -/
def maxHeaderBytes : Nat := 64 * 1024 * 1024

/-- `checked_add`. -/
def importAdd (a b : Nat) (label : String) : Except ImportError Nat :=
  if a + b < u64Bound then .ok (a + b) else .error (.invalid (label ++ " overflows u64"))

/-- `checked_mul`. -/
def importMul (a b : Nat) (label : String) : Except ImportError Nat :=
  if a * b < u64Bound then .ok (a * b) else .error (.invalid (label ++ " overflows u64"))

/-- The representation and the bytes for each element of a data type. -/
def dtypeLayout (dtype : String) : Option TensorRepresentationId × Nat :=
  if dtype = "F32" then (some .canonicalPrimitive, 4)
  else if dtype = "BF16" then (some .bf16, 2)
  else if dtype = "F8_E4M3" then (some .f8E4M3, 1)
  else (none, 0)

/-- The element count of `parse_dtype`; a shape without dimensions is a scalar. -/
def elementCount (shape : List Nat) : Except ImportError Nat :=
  if shape = [] then .ok 1 else mapErr .ofMl (logicalElements shape)

/-- `parse_dtype`. -/
def parseDtype (dtype : String) (shape : List Nat) :
    Except ImportError (Option TensorRepresentationId × Nat) := do
  let elements ← elementCount shape
  let expected ← importMul elements (dtypeLayout dtype).2 "Safetensors tensor byte length"
  pure ((dtypeLayout dtype).1, expected)

/-- One tensor of the header object. -/
def parseSourceTensor (shard : String) (fileSize dataStart : Nat) (name : String) (value : Json) :
    Except ImportError SourceTensor := do
  let object ← okOr value.asObject (.invalid "tensor metadata is not an object")
  let dtype ← okOr ((Json.field object "dtype").bind Json.asStr) (.invalid "tensor dtype is missing")
  let shapeValue ← okOr ((Json.field object "shape").bind Json.asArray)
    (.invalid "tensor shape is missing")
  let shape ← shapeValue.mapM fun dimension =>
    okOr dimension.asU64 (.invalid "tensor shape dimension is not a non-negative integer")
  let offsets ← okOr ((Json.field object "data_offsets").bind Json.asArray)
    (.invalid "tensor data_offsets is missing")
  rejectIf (offsets.length ≠ 2) (.invalid "tensor data_offsets must contain two values")
  let first ← okOr (offsets[0]?.bind Json.asU64) (.invalid "tensor data offset is invalid")
  let last ← okOr (offsets[1]?.bind Json.asU64) (.invalid "tensor data offset is invalid")
  rejectIf (last < first) (.invalid "tensor data_offsets are reversed")
  let sourceBegin ← importAdd dataStart first "Safetensors source offset"
  let sourceEnd ← importAdd dataStart last "Safetensors source end"
  rejectIf (fileSize < sourceEnd) (.invalid "tensor range exceeds Safetensors file")
  let (representation, expected) ← parseDtype dtype shape
  rejectIf (representation.isSome = true ∧ expected ≠ last - first)
    (.invalid ("tensor " ++ name ++ " byte length does not match dtype and shape"))
  pure { name, shard, sourceBegin, sourceEnd, dtype, shape, representation }

/-- The loop over the header object, with the names seen. -/
def parseSourceTensors (shard : String) (fileSize dataStart : Nat) :
    List String → List (String × Json) → Except ImportError (List SourceTensor)
  | _, [] => .ok []
  | names, (name, value) :: rest =>
      if name = "__metadata__" then parseSourceTensors shard fileSize dataStart names rest
      else do
        rejectIf (name ∈ names) (.invalid "duplicate Safetensors tensor name")
        let tensor ← parseSourceTensor shard fileSize dataStart name value
        let tensors ← parseSourceTensors shard fileSize dataStart (name :: names) rest
        pure (tensor :: tensors)

/-- The sort key `(shard, begin, name)`. -/
def SourceTensor.SortsBefore (a b : SourceTensor) : Prop :=
  byteKey a.shard < byteKey b.shard ∨
    a.shard = b.shard ∧ (a.sourceBegin < b.sourceBegin ∨
      a.sourceBegin = b.sourceBegin ∧ byteKey a.name ≤ byteKey b.name)

instance : DecidableRel SourceTensor.SortsBefore :=
  fun a b => inferInstanceAs (Decidable (byteKey a.shard < byteKey b.shard ∨
    a.shard = b.shard ∧ (a.sourceBegin < b.sourceBegin ∨
      a.sourceBegin = b.sourceBegin ∧ byteKey a.name ≤ byteKey b.name)))

/-- The overlap loop, with `previous_end`. -/
def rejectOverlap : Nat → List SourceTensor → Except ImportError Unit
  | _, [] => .ok ()
  | previousEnd, tensor :: rest => do
      rejectIf (tensor.sourceBegin < previousEnd) (.invalid "Safetensors tensor ranges overlap")
      rejectOverlap tensor.sourceEnd rest

/-- `parse_safetensors_header`, over the JSON parser `fromSlice`. -/
def parseSafetensorsHeader (fromSlice : List UInt8 → Except String Json) (shard : String) (fileSize : Nat)
    (firstEight header : List UInt8) : Except ImportError (List SourceTensor) := do
  rejectIf (firstEight.length ≠ 8 ∨ maxHeaderBytes < header.length)
    (.invalid "invalid Safetensors header framing")
  let headerLength := ofLeBytes firstEight
  rejectIf (headerLength = 0 ∨ maxHeaderBytes < headerLength)
    (.invalid "Safetensors header length is outside bounds")
  rejectIf (headerLength ≠ header.length) (.invalid "Safetensors header length mismatch")
  rejectIf (fromUtf8 header = none) (.invalid "Safetensors header is not UTF-8")
  let value ← mapErr (fun text => .invalid ("Safetensors header JSON: " ++ text))
    (fromSlice header)
  let object ← okOr value.asObject (.invalid "Safetensors header is not an object")
  let dataStart ← importAdd 8 headerLength "Safetensors data start"
  rejectIf (fileSize < dataStart) (.invalid "Safetensors header exceeds file size")
  let tensors ← parseSourceTensors shard fileSize dataStart [] object
  let tensors := tensors.insertionSort SourceTensor.SortsBefore
  rejectOverlap dataStart tensors
  pure tensors

end VBuf.Import
