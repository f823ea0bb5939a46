import Mathlib.Data.List.AList

/-!
# The materializer contract

A tensor reference is requested, becomes ready, is obtained and released.  The
backing of a materializer is a parameter with a state of its own.
-/

namespace VBuf.Ggml

/-- `MaterializationState`. -/
inductive MaterializationState
  | notRequested
  | inFlight
  | ready
  | released
  | failed
  deriving DecidableEq, Repr

/-- `VbufTensorView`, with the payload it points to. -/
structure TensorView where
  representation : UInt8
  dimensions : List UInt64
  payload : List UInt8
  payloadLen : UInt64
  deriving DecidableEq, Repr

/-- `PersistentTensorRef`. -/
structure PersistentTensorRef where
  tensorId : UInt64
  name : String
  view : TensorView
  sourceOffset : UInt64
  deriving DecidableEq, Repr

/-- `MaterializedTensor`: the geometry, the payload kept alive by its lease, and
the size it is accounted with. -/
structure MaterializedTensor where
  representation : UInt8
  dimensions : List UInt64
  payload : List UInt8
  bytes : UInt64
  deriving DecidableEq, Repr

/-- `TensorMaterializer`: its calls, over the state `β` of the object. -/
structure TensorMaterializer (β : Type) where
  request : UInt32 → PersistentTensorRef → UInt64 → β → Bool × β
  state : UInt32 → β → MaterializationState
  obtainReadyTensor : UInt32 → β → Option MaterializedTensor × β
  release : UInt32 → β → β

end VBuf.Ggml
