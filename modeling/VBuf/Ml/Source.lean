import VBuf.Layout.Range
import VBuf.Ml.Error

/-!
# Byte sources

A tensor payload is a range of a registered source; source `0` is the artifact
itself.  A `TensorRef` is only made through a check against the declared size.
-/

namespace VBuf.Ml

open VBuf.Lib VBuf.Layout VBuf.V06

/-- `SourceId`. -/
structure SourceId where
  value : Nat
  deriving DecidableEq, Repr

/-- `SourceId::SELF`. -/
def SourceId.self : SourceId := ⟨0⟩

/-- `SourceLocator`. -/
inductive SourceLocator
  | selfArtifact
  | file (value : String)
  | http (value : String)
  deriving DecidableEq, Repr

/-- `SourceHash`. -/
structure SourceHash where
  algorithm : Nat
  value : List UInt8
  deriving DecidableEq, Repr

/-- `SourceDescriptor`. -/
structure SourceDescriptor where
  id : SourceId
  declaredSize : Option Nat
  locator : SourceLocator
  hashes : List SourceHash
  deriving DecidableEq, Repr

/-- `SourceRangeError`. -/
inductive SourceRangeError
  | range (error : RangeError)
  | unknownSource
  | unknownSize
  | outsideSource
  deriving DecidableEq, Repr

/-- `SourceRegistryError`. -/
inductive SourceRegistryError
  | duplicateSource
  | invalidSelfSource
  | selfSourceMissing
  | malformedDescriptor
  deriving DecidableEq, Repr

/-- `TensorRef`. -/
@[ext] structure TensorRef where
  sourceId : SourceId
  range : ByteRange
  deriving DecidableEq

namespace TensorRef

def offset (reference : TensorRef) : Nat := reference.range.offset

def length (reference : TensorRef) : Nat := reference.range.length

end TensorRef

namespace SourceDescriptor

/-- `SourceDescriptor::self_artifact`. -/
def selfArtifact (declaredSize : Nat) : SourceDescriptor where
  id := .self
  declaredSize := some declaredSize
  locator := .selfArtifact
  hashes := []

/-- `SourceDescriptor::checked_range` and `tensor_ref`. -/
def tensorRef (descriptor : SourceDescriptor) (offset length : Nat) :
    Except SourceRangeError TensorRef := do
  let range ← mapErr .range (ByteRange.new offset length)
  let size ← okOr descriptor.declaredSize .unknownSize
  rejectIf (size < range.stop) .outsideSource
  pure { sourceId := descriptor.id, range }

/-- The descriptor names no empty location and no empty hash. -/
def WellNamed (descriptor : SourceDescriptor) : Prop :=
  descriptor.locator ≠ .file "" ∧ descriptor.locator ≠ .http "" ∧
    ∀ hash ∈ descriptor.hashes, hash.algorithm ≠ 0 ∧ hash.value ≠ []

instance (descriptor : SourceDescriptor) : Decidable descriptor.WellNamed :=
  inferInstanceAs (Decidable (_ ∧ _ ∧ _))

/-- `SourceDescriptor::validate`. -/
def validate (descriptor : SourceDescriptor) : Except SourceRegistryError Unit :=
  rejectIf (¬ descriptor.WellNamed) .malformedDescriptor

end SourceDescriptor

/-- `SourceRegistry`. -/
structure SourceRegistry where
  descriptors : List SourceDescriptor
  deriving DecidableEq, Repr

namespace SourceRegistry

/-- The loop of `SourceRegistry::new` over the descriptors, with the ids seen. -/
def register : List SourceId → List SourceDescriptor → Except SourceRegistryError (List SourceId)
  | ids, [] => .ok ids
  | ids, descriptor :: rest => do
      descriptor.validate
      rejectIf (descriptor.locator = .selfArtifact ∧ descriptor.id ≠ .self) .invalidSelfSource
      rejectIf (descriptor.id ∈ ids) .duplicateSource
      register (ids ++ [descriptor.id]) rest

/-- `SourceRegistry::new`. -/
def new (descriptors : List SourceDescriptor) : Except SourceRegistryError SourceRegistry := do
  let ids ← register [] descriptors
  rejectIf (.self ∉ ids) .selfSourceMissing
  pure { descriptors }

/-- `SourceRegistry::get`. -/
def get (registry : SourceRegistry) (id : SourceId) : Option SourceDescriptor :=
  registry.descriptors.find? (fun source => source.id = id)

/-- The registry of an artifact without external sources. -/
def ofSelf (declaredSize : Nat) : SourceRegistry :=
  { descriptors := [.selfArtifact declaredSize] }

end SourceRegistry

end VBuf.Ml
