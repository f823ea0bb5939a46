import Mathlib.Data.List.Sort
import Mathlib.Data.Prod.Lex
import VBuf.Lib.Reader
import VBuf.Ml.TensorDirectory

/-!
# The expert catalogue

`encode_payload` writes two wire versions: the first has no routing parameters and
no tensor identities, the second has both.  Writer and reader check different
parts of what they write and read.
-/

namespace VBuf.Ml

open VBuf.Lib VBuf.Lib.Reader VBuf.V06

/-- `MoeParameters`. -/
structure MoeParameters where
  expertCount : UInt32
  activeExpertCount : UInt32
  layerCount : UInt32
  sharedExperts : Bool
  sharedExpertCount : UInt32
  normalizeTopkProb : Bool
  routingGroupCount : UInt32
  routingTopkGroupCount : UInt32
  routedScalingFactorBits : UInt32
  deriving DecidableEq, Repr

/-- `MoeEntry`. -/
structure MoeEntry where
  layerIndex : UInt32
  expertIndex : UInt32
  role : UInt16
  childName : String
  tensorOrdinal : Option UInt16
  scaleOrdinal : Option UInt16
  deriving DecidableEq, Repr

namespace MoeParameters

/-- The expert counts that both sides accept. -/
def Valid (parameters : MoeParameters) : Prop :=
  parameters.expertCount ≠ 0 ∧ parameters.activeExpertCount ≠ 0 ∧
    parameters.activeExpertCount ≤ parameters.expertCount ∧ parameters.layerCount ≠ 0 ∧
    (parameters.sharedExperts = true → parameters.sharedExpertCount ≠ 0) ∧
    (parameters.sharedExperts = false → parameters.sharedExpertCount = 0)

instance (parameters : MoeParameters) : Decidable parameters.Valid :=
  inferInstanceAs (Decidable (_ ∧ _ ∧ _ ∧ _ ∧ _ ∧ _))

/-- `f32::from_bits(bits).is_finite()`: the exponent is not all ones. -/
def ScalingFinite (parameters : MoeParameters) : Prop :=
  parameters.routedScalingFactorBits.toNat / 2 ^ 23 % 256 ≠ 255

/-- `f32::from_bits(bits) > 0.0` of a finite number: no sign, and not zero. -/
def ScalingPositive (parameters : MoeParameters) : Prop :=
  0 < parameters.routedScalingFactorBits.toNat ∧
    parameters.routedScalingFactorBits.toNat < 2 ^ 31

/-- The routing parameters that the reader of the second version accepts. -/
def RoutingValid (parameters : MoeParameters) : Prop :=
  parameters.routingGroupCount ≠ 0 ∧ parameters.routingTopkGroupCount ≠ 0 ∧
    parameters.routingTopkGroupCount ≤ parameters.routingGroupCount ∧
    parameters.ScalingFinite ∧ parameters.ScalingPositive

instance (parameters : MoeParameters) : Decidable parameters.RoutingValid :=
  inferInstanceAs (Decidable (_ ≠ _ ∧ _ ≠ _ ∧ _ ≤ _ ∧ _ ≠ _ ∧ _ < _ ∧ _ < _))

/-- The routing parameters that the reader of the first version supplies. -/
def RoutingDefault (parameters : MoeParameters) : Prop :=
  parameters.normalizeTopkProb = false ∧ parameters.routingGroupCount = 0 ∧
    parameters.routingTopkGroupCount = 0 ∧ parameters.routedScalingFactorBits = 0x3f800000

instance (parameters : MoeParameters) : Decidable parameters.RoutingDefault :=
  inferInstanceAs (Decidable (_ ∧ _ ∧ _ ∧ _))

end MoeParameters

namespace MoeProfile

/-- `MOE_DIRECTORY_MAGIC`: the bytes `VBTMOE` and two zeros. -/
def magic : List UInt8 := [0x56, 0x42, 0x54, 0x4d, 0x4f, 0x45, 0, 0]

/-- `(layer_index, expert_index, role)`. -/
def key (entry : MoeEntry) : Nat ×ₗ Nat ×ₗ Nat :=
  toLex (entry.layerIndex.toNat, toLex (entry.expertIndex.toNat, entry.role.toNat))

/-- `sort_by_key`. -/
def ordered (entries : List MoeEntry) : List MoeEntry :=
  entries.insertionSort (fun a b => key a ≤ key b)

/-- An entry carries an identity of the tensor directory. -/
def hasOrdinal (entry : MoeEntry) : Bool :=
  entry.tensorOrdinal.isSome || entry.scaleOrdinal.isSome

/-- The version that `encode_payload` selects. -/
def versionOf (entries : List MoeEntry) : Nat := if entries.any hasOrdinal then 2 else 1

/-! ### Writing -/

/-- The identities of an entry of the second version. -/
def ordinalBytes (version : Nat) (entry : MoeEntry) : Except MlError (List UInt8) :=
  if version = 2 then do
    let tensor ← okOr entry.tensorOrdinal
      ⟨.moeExpertReferenceMissing, "version 2 MoE entry has no tensor identity"⟩
    pure (leBytes 2 tensor.toNat ++ leBytes 2 (entry.scaleOrdinal.getD 65535).toNat)
  else .ok []

/-- One iteration of the entry loop of `encode_payload`. -/
def encodeEntry (parameters : MoeParameters) (version : Nat) (entry : MoeEntry) :
    Except MlError (List UInt8) := do
  rejectIf (parameters.layerCount ≤ entry.layerIndex ∨
      parameters.expertCount ≤ entry.expertIndex ∨ entry.childName = "" ∨
      4294967295 < (utf8 entry.childName).length)
    ⟨.moeExpertIndexInvalid, "MoE entry is invalid"⟩
  let ordinals ← ordinalBytes version entry
  pure (leBytes 4 entry.layerIndex.toNat ++ leBytes 4 entry.expertIndex.toNat ++
    leBytes 2 entry.role.toNat ++ leBytes 2 0 ++ ordinals ++
    leBytes 4 (utf8 entry.childName).length ++ utf8 entry.childName)

/-- The 36 bytes of the header. -/
def headerBytes (parameters : MoeParameters) (version count : Nat) : List UInt8 :=
  magic ++ leBytes 2 version ++ leBytes 2 0 ++ leBytes 4 parameters.expertCount.toNat ++
    leBytes 4 parameters.activeExpertCount.toNat ++ leBytes 4 parameters.layerCount.toNat ++
    leBytes 4 (if parameters.sharedExperts then 1 else 0) ++
    leBytes 4 parameters.sharedExpertCount.toNat ++ leBytes 4 count

/-- The routing extension of the second version. -/
def extensionBytes (parameters : MoeParameters) (version : Nat) : List UInt8 :=
  if version = 2 then
    leBytes 4 (if parameters.normalizeTopkProb then 1 else 0) ++
      leBytes 4 parameters.routingGroupCount.toNat ++
      leBytes 4 parameters.routingTopkGroupCount.toNat ++
      leBytes 4 parameters.routedScalingFactorBits.toNat
  else []

/-- `encode_payload`. -/
def encodePayload (parameters : MoeParameters) (entries : List MoeEntry) :
    Except MlError (List UInt8) := do
  rejectIf (¬ parameters.Valid) ⟨.moeExpertIndexInvalid, "MoE parameters are invalid"⟩
  rejectIf (hasEqualNeighbours ((ordered entries).map key) = true)
    ⟨.malformedMoeDirectory, "duplicate MoE entry"⟩
  let version := versionOf (ordered entries)
  let table ← concat ((ordered entries).map (encodeEntry parameters version))
  pure (headerBytes parameters version (ordered entries).length ++
    extensionBytes parameters version ++ table)

/-! ### Reading -/

/-- The identities that an entry of a version carries. -/
def readOrdinals (version : Nat) (fixed : List UInt8) : Option UInt16 × Option UInt16 :=
  if version = 2 then
    (some (UInt16.ofNat (leAt fixed 12 2)),
      if leAt fixed 14 2 ≠ 65535 then some (UInt16.ofNat (leAt fixed 14 2)) else none)
  else (none, none)

/-- One iteration of the entry loop of `parse_payload`. -/
def readEntry (version : Nat) : Reader MlError MoeEntry := do
  let fixed ← takeBytes (if version = 2 then 20 else 16)
    ⟨.malformedMoeDirectory, "truncated MoE entry"⟩
  let nameBytes ← takeBytes (leAt fixed (if version = 2 then 16 else 12) 4)
    ⟨.malformedMoeDirectory, "truncated MoE child name"⟩
  let childName ← require (fromUtf8 nameBytes)
    ⟨.malformedMoeDirectory, "MoE child name is not UTF-8"⟩
  pure
    { layerIndex := UInt32.ofNat (leAt fixed 0 4)
      expertIndex := UInt32.ofNat (leAt fixed 4 4)
      role := UInt16.ofNat (leAt fixed 8 2)
      childName
      tensorOrdinal := (readOrdinals version fixed).1
      scaleOrdinal := (readOrdinals version fixed).2 }

/-- The parameters of a header and the extension behind it. -/
def readParameters (bytes extension : List UInt8) : MoeParameters where
  expertCount := UInt32.ofNat (leAt bytes 12 4)
  activeExpertCount := UInt32.ofNat (leAt bytes 16 4)
  layerCount := UInt32.ofNat (leAt bytes 20 4)
  sharedExperts := decide (leAt bytes 24 4 % 2 ≠ 0)
  sharedExpertCount := UInt32.ofNat (leAt bytes 28 4)
  normalizeTopkProb := decide (extension ≠ [] ∧ leAt extension 0 1 ≠ 0)
  routingGroupCount := if extension = [] then 0 else UInt32.ofNat (leAt extension 4 4)
  routingTopkGroupCount := if extension = [] then 0 else UInt32.ofNat (leAt extension 8 4)
  routedScalingFactorBits :=
    if extension = [] then 0x3f800000 else UInt32.ofNat (leAt extension 12 4)

/-- The extension of a version, between the header and the entries. -/
def readExtension (version : Nat) (bytes : List UInt8) : Except MlError (List UInt8) :=
  if version = 2 then
    okOr (range? bytes 36 52)
      ⟨.malformedMoeDirectory, "MoE v2 routing extension is truncated"⟩
  else .ok []

/-- `parse_payload`. -/
def parsePayload (bytes : List UInt8) : Except MlError (MoeParameters × List MoeEntry) := do
  rejectIf (bytes.length < 36 ∨ slice bytes 0 8 ≠ magic ∨
      (leAt bytes 8 2 ≠ 1 ∧ leAt bytes 8 2 ≠ 2) ∨ leAt bytes 10 2 ≠ 0)
    ⟨.unsupportedMoeDirectoryVersion, "MoE directory header is invalid"⟩
  rejectIf (1 < leAt bytes 24 4)
    ⟨.malformedMoeDirectory, "MoE directory flags are invalid"⟩
  let version := leAt bytes 8 2
  let extension ← readExtension version bytes
  let parameters := readParameters bytes extension
  rejectIf (version = 2 ∧ (1 < leAt extension 0 1 ∨
      anyNonzero (slice extension 1 3) = true ∨ ¬ parameters.RoutingValid))
    ⟨.malformedMoeDirectory, "MoE v2 routing extension is invalid"⟩
  rejectIf (¬ parameters.Valid) ⟨.moeExpertIndexInvalid, "MoE parameters are invalid"⟩
  let (entries, cursor) ← many (readEntry version) (leAt bytes 32 4) bytes (36 + extension.length)
  rejectIf (cursor ≠ bytes.length)
    ⟨.malformedMoeDirectory, "MoE directory has trailing bytes"⟩
  pure (parameters, entries)

end MoeProfile

end VBuf.Ml
