import Mathlib.Tactic.Tauto
import VBuf.Ggml.TensorGeometry
import VBuf.Ggml.TopK

/-!
# The members of an indexed expert bank

`lower_indexed_expert_bank` cuts a rank-three bank into one rank-two member for each
selected expert.  The size of a member is the payload divided by the expert count.
-/

namespace VBuf.Ggml.IndexedExpert

open VBuf.Lib VBuf.Ggml.Geometry
open VBuf.Ggml.TopK (F32)

/-- `PersistentTensorRef`. -/
structure PersistentTensorRef where
  tensorId : UInt64 := 0
  name : String := ""
  view : VbufTensorView := ⟨0, 0, none, none, 0⟩
  sourceOffset : UInt64 := 0
  deriving DecidableEq, Repr

/-- `IndexedExpertExecutionCapability`. -/
inductive IndexedExpertExecutionCapability
  | rank2Only
  | indexedBank
  deriving DecidableEq, Repr

/-- `IndexedExpertExecutionPath`. -/
inductive IndexedExpertExecutionPath
  | rank2Fallback
  | indexedBank
  deriving DecidableEq, Repr

/-- `IndexedExpertMember`. -/
structure IndexedExpertMember where
  bankTensorId : UInt64
  bankName : String
  expertId : UInt32
  topkRank : UInt32
  sourceOffset : UInt64
  payloadOffset : UInt64
  representation : UInt8
  dimensions : List UInt64
  payload : Option Nat
  payloadLen : UInt64
  deriving DecidableEq, Repr

/-- `IndexedExpertMember::view`. -/
def IndexedExpertMember.view (member : IndexedExpertMember) : VbufTensorView :=
  ⟨member.representation, 2, some member.dimensions, member.payload, member.payloadLen⟩

/-- `IndexedExpertLowering`; its defaults are the empty output. -/
structure IndexedExpertLowering where
  path : IndexedExpertExecutionPath := .rank2Fallback
  bank : PersistentTensorRef := {}
  members : List IndexedExpertMember := []
  scores : List F32 := []
  weights : List F32 := []
  deriving DecidableEq, Repr

/-- `add_overflows`. -/
def addOverflows (left right : UInt64) : Prop := uint64Max - left < right

instance (left right : UInt64) : Decidable (addOverflows left right) :=
  inferInstanceAs (Decidable (uint64Max - left < right))

/-- The member of one selected expert. -/
def lowerMember (bank : PersistentTensorRef) (dimensions : List UInt64)
    (expertCount memberBytes : UInt64) (expertId : UInt32) (score weight : F32) (rank : Nat) :
    Except String IndexedExpertMember := do
  rejectIf (expertCount ≤ expertId.toUInt64) "indexed expert ID is outside the bank"
  rejectIf (¬ score.isFinite ∨ ¬ weight.isFinite) "indexed expert score or weight is non-finite"
  rejectIf (memberBytes ≠ 0 ∧ uint64Max / memberBytes < expertId.toUInt64)
    "indexed expert payload offset overflows"
  let payloadOffset := expertId.toUInt64 * memberBytes
  rejectIf (addOverflows bank.sourceOffset payloadOffset ∨
    bank.view.payloadLen - memberBytes < payloadOffset) "indexed expert source offset overflows"
  pure
    { bankTensorId := bank.tensorId
      bankName := bank.name
      expertId
      topkRank := UInt32.ofNat rank
      sourceOffset := bank.sourceOffset + payloadOffset
      payloadOffset
      representation := bank.view.representation
      dimensions := [dimensions.getD 0 0, dimensions.getD 1 0, 0, 0]
      payload := bank.view.payload.map (· + payloadOffset.toNat)
      payloadLen := memberBytes }

/-- The result of a lowering, or the message of its error. -/
def lowerBank (bank : PersistentTensorRef) (selection : TopK.TopKSelection) (weights : List F32)
    (capability : IndexedExpertExecutionCapability) : Except String IndexedExpertLowering := do
  rejectIf (bank.view.rank ≠ 3) "expert bank must be a rank-three tensor"
  let dimensions ← okOr bank.view.dimensions "expert bank must be a rank-three tensor"
  let expertCount := dimensions.getD 2 0
  rejectIf (expertCount = 0 ∨ 4294967295 < expertCount) "expert bank has an invalid expert count"
  rejectIf (dimensions.getD 0 0 = 0 ∨ dimensions.getD 1 0 = 0)
    "expert bank has an invalid member shape"
  rejectIf (bank.view.payloadLen = 0 ∨ bank.view.payloadLen % expertCount ≠ 0)
    "expert bank payload is not evenly divisible by expert count"
  rejectIf (selection.ids = [] ∨ selection.ids.length ≠ selection.scores.length ∨
    selection.ids.length ≠ weights.length) "indexed expert selection and weights differ"
  let memberBytes := bank.view.payloadLen / expertCount
  let members ← (List.range selection.ids.length).mapM fun rank =>
    lowerMember bank dimensions expertCount memberBytes (selection.ids.getD rank 0)
      (selection.scores.getD rank F32.positiveZero) (weights.getD rank F32.positiveZero) rank
  pure
    { path :=
        if capability = .indexedBank then IndexedExpertExecutionPath.indexedBank
        else IndexedExpertExecutionPath.rank2Fallback
      bank
      members
      scores := selection.scores
      weights }

/-- `lower_indexed_expert_bank`: the result of the call, and what its output holds
afterwards. -/
def lowerIndexedExpertBank (bank : PersistentTensorRef) (selection : TopK.TopKSelection)
    (weights : List F32) (capability : IndexedExpertExecutionCapability) :
    Except String Unit × IndexedExpertLowering :=
  match lowerBank bank selection weights capability with
  | .error message => (.error message, {})
  | .ok result => (.ok (), result)

/-! ### What a lowering promises -/

/-- The bytes of one member of a bank. -/
def memberBytes (bank : PersistentTensorRef) (expertCount : Nat) : Nat :=
  bank.view.payloadLen.toNat / expertCount

/-- Every byte of the payload lies in the range of exactly one expert. -/
def Partitions (bank : PersistentTensorRef) (expertCount : Nat) : Prop :=
  ∀ place < bank.view.payloadLen.toNat, ∃! id, id < expertCount ∧
    id * memberBytes bank expertCount ≤ place ∧
    place < id * memberBytes bank expertCount + memberBytes bank expertCount

/-- What is promised of the member of a selection rank: it is a view of its expert with the
bank's representation and first two extents, over its own range of the payload, it has a
geometry, and neither end of its source range wraps. -/
structure SafeMember (bank : PersistentTensorRef) (array : List UInt64) (expertCount rank : Nat)
    (expertId : UInt32) (member : IndexedExpertMember) : Prop where
  bank_eq : member.bankTensorId = bank.tensorId ∧ member.bankName = bank.name
  expertId_eq : member.expertId = expertId
  rank_eq : member.topkRank = UInt32.ofNat rank
  representation_eq : member.representation = bank.view.representation
  dimensions_eq : member.dimensions.take 2 = array.take 2
  geometry : ∃ geometry, deriveTensorGeometry member.view = .ok geometry
  offset : member.payloadOffset.toNat = expertId.toNat * memberBytes bank expertCount
  payload_eq : member.payload =
    bank.view.payload.map (· + expertId.toNat * memberBytes bank expertCount)
  length : member.payloadLen.toNat = memberBytes bank expertCount
  inside : expertId.toNat < expertCount
  start : member.sourceOffset.toNat = bank.sourceOffset.toNat + member.payloadOffset.toNat
  stop : member.sourceOffset.toNat + member.payloadLen.toNat < 2 ^ 64

/-- What is promised of a lowering. -/
structure SafeLowering (bank : PersistentTensorRef) (array : List UInt64) (expertCount : Nat)
    (selection : TopK.TopKSelection) (weights : List F32) (lowering : IndexedExpertLowering) :
    Prop where
  partitions : Partitions bank expertCount
  members : List.Forall₂ (fun pair => SafeMember bank array expertCount pair.2 pair.1)
    selection.ids.zipIdx lowering.members
  weights_eq : lowering.weights = weights ∧ weights.length = selection.ids.length

/-- The source range of every selected member ends below the largest number. -/
def EndsFit (bank : PersistentTensorRef) (expertCount : Nat) (selection : TopK.TopKSelection) : Prop :=
  ∀ id ∈ selection.ids,
    bank.sourceOffset.toNat + (id.toNat + 1) * memberBytes bank expertCount < 2 ^ 64

/-- A relation between two lists that says something of the left items only. -/
theorem forall₂_iff_forall {α β : Type*} {R S : α → β → Prop} {P : α → Prop} {xs : List α}
    {ys : List β} (h : List.Forall₂ R xs ys) (hiff : ∀ x y, R x y → (S x y ↔ P x)) :
    List.Forall₂ S xs ys ↔ ∀ x ∈ xs, P x := by
  induction h with
  | nil => simp
  | cons hhead _ ih => rw [List.forall₂_cons, List.forall_mem_cons, ih, hiff _ _ hhead]

theorem forall_mem_zipIdx_iff {α : Type*} {P : α → Prop} {xs : List α} :
    (∀ pair ∈ xs.zipIdx, P pair.1) ↔ ∀ x ∈ xs, P x := by
  rw [← List.forall_mem_map (f := Prod.fst), List.zipIdx_map_fst]

section Lowering

variable {bank : PersistentTensorRef} {array : List UInt64} {selection : TopK.TopKSelection}
  {weights : List F32} {capability : IndexedExpertExecutionCapability}
  {lowering : IndexedExpertLowering} {member : IndexedExpertMember} {expertId : UInt32}
  {score weight : F32} {rank expertCount : Nat}

theorem not_addOverflows_iff {left right : UInt64} :
    ¬ addOverflows left right ↔ left.toNat + right.toNat < 2 ^ 64 := by
  have hleft := left.toNat_lt
  have hmax : uint64Max.toNat = 2 ^ 64 - 1 := rfl
  rw [addOverflows, UInt64.not_lt, UInt64.le_iff_toNat_le,
    UInt64.toNat_sub_of_le _ _ (UInt64.le_iff_toNat_le.2 (by omega)), hmax]
  omega

/-- A payload of whole members is cut without gaps. -/
theorem partitions (hpos : 0 < memberBytes bank expertCount)
    (hlength : bank.view.payloadLen.toNat = expertCount * memberBytes bank expertCount) :
    Partitions bank expertCount := by
  intro place hplace
  refine ⟨place / memberBytes bank expertCount, ⟨?_, ?_, ?_⟩, ?_⟩
  · rw [Nat.div_lt_iff_lt_mul hpos, ← hlength]
    exact hplace
  · exact Nat.div_mul_le_self _ _
  · exact Nat.lt_div_mul_add hpos
  · rintro id ⟨-, hle, hlt⟩
    exact (Nat.div_eq_of_lt_le hle (by rwa [Nat.succ_mul])).symm

/-- The first two extents of an accepted bank take the payload of one member. -/
theorem member_fits {spec : RepresentationSpec} {a b n : UInt64} {size : UInt64}
    (h : Fits spec [a, b, n] bank.view.payloadLen)
    (hsize : size.toNat = memberBytes bank n.toNat) : Fits spec [a, b] size := by
  have hn := (h.valid n (by simp)).pos
  refine ⟨List.cons_ne_nil _ _, by simp, fun d hd => h.valid d (by simp at hd ⊢; tauto), h.row, ?_⟩
  have hwhole := h.size
  simp only [List.tail_cons, List.headD_cons, elements_cons, elements_nil, Nat.mul_one] at hwhole ⊢
  rw [hsize, memberBytes, hwhole]
  refine Nat.div_eq_of_eq_mul_left hn ?_
  ring

theorem lowerMember_ok {count size : UInt64}
    (h : lowerMember bank array count size expertId score weight rank = .ok member) :
    expertId.toNat < count.toNat ∧
      member.payloadOffset.toNat = expertId.toNat * size.toNat ∧
      member.sourceOffset.toNat = bank.sourceOffset.toNat + member.payloadOffset.toNat ∧
      member =
        { bankTensorId := bank.tensorId
          bankName := bank.name
          expertId
          topkRank := UInt32.ofNat rank
          sourceOffset := member.sourceOffset
          payloadOffset := member.payloadOffset
          representation := bank.view.representation
          dimensions := [array.getD 0 0, array.getD 1 0, 0, 0]
          payload := bank.view.payload.map (· + member.payloadOffset.toNat)
          payloadLen := size } := by
  simp only [lowerMember, bind_eq_ok_iff, rejectIf_eq_ok_iff, not_or] at h
  obtain ⟨_, hinside, _, -, _, hproduct, _, ⟨hoverflow, -⟩, h⟩ := h
  have hid : expertId.toUInt64.toNat = expertId.toNat := UInt32.toNat_toUInt64 _
  rw [UInt64.not_le, UInt64.lt_iff_toNat_lt, hid] at hinside
  rw [not_addOverflows_iff] at hoverflow
  have hmul : checkedMul expertId.toUInt64 size = some (expertId.toUInt64 * size) := by
    unfold checkedMul
    rw [if_neg hproduct]
  have hoffset := checkedMul_eq_some_iff.1 hmul
  rw [hid] at hoffset
  cases h
  refine ⟨hinside, hoffset, ?_, rfl⟩
  exact (UInt64.toNat_add _ _).trans (Nat.mod_eq_of_lt hoverflow)

/-- What a successful lowering has checked. -/
theorem lowerBank_ok (hdims : bank.view.dimensions = some array)
    (h : lowerBank bank selection weights capability = .ok lowering) :
    array.getD 2 0 ≠ 0 ∧ 0 < bank.view.payloadLen.toNat ∧
      (array.getD 2 0).toNat ∣ bank.view.payloadLen.toNat ∧
      weights.length = selection.ids.length ∧ lowering.weights = weights ∧
      List.Forall₂ (fun pair member => ∃ score weight,
        lowerMember bank array (array.getD 2 0) (bank.view.payloadLen / array.getD 2 0) pair.1
          score weight pair.2 = .ok member) selection.ids.zipIdx lowering.members := by
  simp only [lowerBank, bind_eq_ok_iff, okOr_eq_ok_iff, rejectIf_eq_ok_iff, hdims,
    Option.some.injEq, not_or, not_not, mapM_eq_ok_iff] at h
  obtain ⟨_, -, _, rfl, _, ⟨hcount, -⟩, _, -, _, ⟨hlength, hmod⟩, _, ⟨-, -, hweights⟩, members,
    hmembers, h⟩ := h
  cases h
  refine ⟨hcount, Nat.pos_of_ne_zero fun hzero => hlength (UInt64.toNat_inj.1 hzero), ?_,
    hweights.symm, rfl, ?_⟩
  · have := congrArg UInt64.toNat hmod
    rw [UInt64.toNat_mod] at this
    exact Nat.dvd_of_mod_eq_zero this
  · have hids : (List.range selection.ids.length).map
        (fun rank => (selection.ids.getD rank 0, rank)) = selection.ids.zipIdx := by
      refine List.ext_getElem (by simp) ?_
      intro place hplace hplace'
      rw [List.length_zipIdx] at hplace'
      rw [List.getElem_map, List.getElem_range, List.getElem_zipIdx, List.getD_eq_getElem?_getD,
        List.getElem?_eq_getElem hplace', Option.getD_some, Nat.zero_add]
    rw [← hids, List.forall₂_map_left_iff]
    exact hmembers.imp fun rank member hmember => ⟨_, _, hmember⟩

/-- Every member of a bank with a geometry keeps what is promised exactly when its source
range ends below the largest number. -/
theorem safeMember_iff {geometry : TensorGeometry} (hdims : bank.view.dimensions = some array)
    (hrank : bank.view.rank = 3) (hgeometry : deriveTensorGeometry bank.view = .ok geometry)
    (hcount : array.getD 2 0 ≠ 0)
    (h : lowerMember bank array (array.getD 2 0) (bank.view.payloadLen / array.getD 2 0) expertId
      score weight rank = .ok member) :
    SafeMember bank array (array.getD 2 0).toNat rank expertId member ↔
      bank.sourceOffset.toNat + (expertId.toNat + 1) * memberBytes bank (array.getD 2 0).toNat <
        2 ^ 64 := by
  obtain ⟨hinside, hoffset, hstart, hmember⟩ := lowerMember_ok h
  have hlength : member.payloadLen = bank.view.payloadLen / array.getD 2 0 := by rw [hmember]
  have hsize : (bank.view.payloadLen / array.getD 2 0).toNat =
      memberBytes bank (array.getD 2 0).toNat := UInt64.toNat_div _ _
  rw [hsize] at hoffset
  have hend : member.sourceOffset.toNat + member.payloadLen.toNat =
      bank.sourceOffset.toNat + (expertId.toNat + 1) * memberBytes bank (array.getD 2 0).toNat := by
    rw [hstart, hoffset, hlength, hsize, Nat.succ_mul, Nat.add_assoc]
  rw [← hend]
  refine ⟨SafeMember.stop, fun hstop => ?_⟩
  -- The array of a bank with a count has all three extents.
  obtain ⟨a, b, n, rest, rfl⟩ : ∃ a b n rest, array = a :: b :: n :: rest := by
    rcases array with _ | ⟨a, _ | ⟨b, _ | ⟨n, rest⟩⟩⟩
    · exact absurd rfl hcount
    · exact absurd rfl hcount
    · exact absurd rfl hcount
    · exact ⟨a, b, n, rest, rfl⟩
  have hthree : bank.view.rank.toNat = 3 := by rw [hrank]; rfl
  obtain ⟨hpayload, spec, hspec, hfits, -⟩ :=
    deriveTensorGeometry_sound hdims (by rw [hthree]; simp) hgeometry
  rw [hthree] at hfits
  have hfit : Fits spec [a, b] (bank.view.payloadLen / n) := member_fits hfits hsize
  have hderived : ∃ geometry, deriveTensorGeometry member.view = .ok geometry := by
    rw [hmember]
    refine deriveTensorGeometry_complete rfl (Nat.le_add_left 2 2) ?_ hspec hfit
    exact fun hnone => hpayload (Option.map_eq_none_iff.1 hnone)
  refine
    { bank_eq := ?_, expertId_eq := ?_, rank_eq := ?_, representation_eq := ?_
      dimensions_eq := ?_, geometry := hderived, offset := hoffset, payload_eq := ?_
      length := hlength ▸ hsize, inside := hinside, start := hstart, stop := hstop }
  · rw [hmember]
    exact ⟨rfl, rfl⟩
  · rw [hmember]
  · rw [hmember]
  · rw [hmember]
  · rw [hmember]
    rfl
  · rw [← hoffset, hmember]

end Lowering

/-- A lowering of a bank with a geometry is safe exactly when the source ranges of the
selected members end below the largest number, and one that fails leaves nothing behind. -/
theorem lowerIndexedExpertBank_safe_iff {bank : PersistentTensorRef} {array : List UInt64}
    {geometry : TensorGeometry} (selection : TopK.TopKSelection) (weights : List F32)
    (capability : IndexedExpertExecutionCapability) (hdims : bank.view.dimensions = some array)
    (hrank : bank.view.rank = 3) (hgeometry : deriveTensorGeometry bank.view = .ok geometry) :
    (∀ lowering,
      lowerIndexedExpertBank bank selection weights capability = (.ok (), lowering) →
      (SafeLowering bank array (array.getD 2 0).toNat selection weights lowering ↔
        EndsFit bank (array.getD 2 0).toNat selection)) ∧
    ∀ message lowering,
      lowerIndexedExpertBank bank selection weights capability = (.error message, lowering) →
      lowering = {} := by
  unfold lowerIndexedExpertBank
  cases hlower : lowerBank bank selection weights capability with
  | error message =>
    refine ⟨fun _ h => ?_, fun _ _ h => ?_⟩
    · cases h
    · cases h
      rfl
  | ok result =>
    refine ⟨fun lowering h => ?_, fun _ _ h => ?_⟩
    · cases h
      obtain ⟨hcount, hpos, hdvd, hlength, hweights, hmembers⟩ := lowerBank_ok hdims hlower
      have hmember : List.Forall₂
          (fun pair => SafeMember bank array (array.getD 2 0).toNat pair.2 pair.1)
          selection.ids.zipIdx result.members ↔
            EndsFit bank (array.getD 2 0).toNat selection := by
        let EndFits (id : UInt32) : Prop :=
          bank.sourceOffset.toNat + (id.toNat + 1) * memberBytes bank (array.getD 2 0).toNat < 2 ^ 64
        have hpairs := forall₂_iff_forall hmembers (P := fun pair => EndFits pair.1)
          (S := fun pair => SafeMember bank array (array.getD 2 0).toNat pair.2 pair.1) (by
            rintro pair member ⟨score, weight, hmember⟩
            exact safeMember_iff hdims hrank hgeometry hcount hmember)
        exact hpairs.trans (forall_mem_zipIdx_iff (P := EndFits))
      refine ⟨fun hsafe => hmember.1 hsafe.members, fun hends => ⟨?_, hmember.2 hends, hweights,
        hlength⟩⟩
      have hwhole : bank.view.payloadLen.toNat =
          (array.getD 2 0).toNat * memberBytes bank (array.getD 2 0).toNat :=
        (Nat.mul_div_cancel' hdvd).symm
      refine partitions ?_ hwhole
      exact Nat.pos_of_mul_pos_left (hwhole ▸ hpos)
    · cases h

/-- A bank of one element for each of two experts, at a place of its source. -/
def exampleBank (sourceOffset : UInt64) : PersistentTensorRef where
  tensorId := 1
  name := "bank"
  view := ⟨0, 3, some [1, 1, 2], some 0, 8⟩
  sourceOffset := sourceOffset

def exampleSelection : TopK.TopKSelection := ⟨[1], [F32.positiveZero]⟩

/-- A bank of two rows of three elements for each of four experts. -/
def rowsBank : PersistentTensorRef where
  tensorId := 1
  name := "bank"
  view := ⟨0, 3, some [3, 2, 4], some 4096, 96⟩
  sourceOffset := 64

def rowsSelection : TopK.TopKSelection :=
  ⟨[3, 0, 1], [F32.positiveZero, F32.positiveZero, F32.positiveZero]⟩

def rowsWeights : List F32 := [F32.positiveZero, F32.positiveZero, F32.positiveZero]

theorem lowerIndexedExpertBank_safe_iff_rows :
    (∀ lowering,
      lowerIndexedExpertBank rowsBank rowsSelection rowsWeights .indexedBank =
        (.ok (), lowering) →
      (SafeLowering rowsBank [3, 2, 4] 4 rowsSelection rowsWeights lowering ↔
        EndsFit rowsBank 4 rowsSelection)) ∧
    ∀ message lowering,
      lowerIndexedExpertBank rowsBank rowsSelection rowsWeights .indexedBank =
        (.error message, lowering) → lowering = {} :=
  lowerIndexedExpertBank_safe_iff rowsSelection rowsWeights .indexedBank
    (rfl : rowsBank.view.dimensions = some [3, 2, 4]) rfl
    (rfl : deriveTensorGeometry rowsBank.view = .ok _)

/-- The member starts four bytes before the end of the address range and is lowered, though
its source range ends at `2 ^ 64`. -/
theorem lowerIndexedExpertBank_wraps :
    (∃ geometry, deriveTensorGeometry (exampleBank 18446744073709551608).view = .ok geometry) ∧
    ∃ lowering member,
      lowerIndexedExpertBank (exampleBank 18446744073709551608) exampleSelection
        [F32.positiveZero] .indexedBank = (.ok (), lowering) ∧
      member ∈ lowering.members ∧ member.sourceOffset + member.payloadLen = 0 := by
  refine ⟨⟨_, rfl⟩, _, _, rfl, List.mem_cons_self, ?_⟩
  decide

end VBuf.Ggml.IndexedExpert
