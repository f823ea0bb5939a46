import Mathlib.Logic.Relation
import VBuf.Lib.Align
import VBuf.Lib.Loop
import VBuf.V06.Grammar

/-!
# Column lookup in a legacy file

`vbuf_get_col_ptr` walks over the columns of a file without a check of what it adds and
multiplies.  The walk advances and ends in the file exactly when the end of no column that
it passes wraps around to the column itself, and the wanted one ends in the file.
-/

namespace VBuf.Legacy

open VBuf.Lib VBuf.V06

/-! ### Words -/

/-- Arithmetic of 64-bit words wraps around. -/
def wrap (value : Nat) : Nat := value % 2 ^ 64

/-- The complement of a word. -/
def complement (value : Nat) : Nat := 2 ^ 64 - 1 - value

/-- `alignment - 1`. -/
def lowBits (alignment : Nat) : Nat := wrap (alignment + (2 ^ 64 - 1))

/-! ### The file -/

/-- `VBufInstance`; an alignment beyond 32 bits is truncated. -/
structure VBufInstance where
  mem : List UInt8
  alignment : Nat
  deriving DecidableEq, Repr

/-- `VBufInstance::open`; the mapping of a file has less than `2 ^ 63` bytes. -/
def VBufInstance.open (bytes : List UInt8) : Option VBufInstance :=
  if 2 ^ 63 ≤ bytes.length then none
  else if bytes.length < 16 ∨ leAt bytes 0 4 ≠ 0x46554256 then none
  else if 64 ≤ leAt bytes 8 1 then none
  else some { mem := bytes, alignment := 2 ^ leAt bytes 8 1 % 2 ^ 32 }

/-- The header of a column. -/
structure ColumnHeader where
  id : Nat
  bitWidth : Nat
  n : Nat
  headerSize : Nat
  deriving DecidableEq, Repr

/-- The anchor at a cursor. -/
def anchorAt (mem : List UInt8) (curr : Nat) : Nat := leAt mem curr 8

/-- The header that the anchor at a cursor starts. -/
def headerAt (mem : List UInt8) (curr : Nat) : ColumnHeader :=
  let anchor := anchorAt mem curr
  { id := bitField anchor 16 16
    bitWidth := bitField anchor 32 16
    n := if bitField anchor 9 1 ≠ 0 then leAt mem (curr + 8) 8 else bitField anchor 48 16
    headerSize := if bitField anchor 9 1 ≠ 0 then 16 else 8 }

/-! ### The lookup -/

/-- How a lookup ends. -/
inductive ColumnPointer
  | null
  | found (dataStart n bitWidth : Nat)
  | panicked
  deriving DecidableEq, Repr

variable (file : VBufInstance)

/-- `data_start`. -/
def dataStart (curr : Nat) : Nat :=
  wrap (curr + (headerAt file.mem curr).headerSize + lowBits file.alignment) &&&
    complement (lowBits file.alignment)

/-- Where the data of a column ends, without wrapping around. -/
def dataEnd (curr : Nat) : Nat :=
  dataStart file curr + (headerAt file.mem curr).n * ((headerAt file.mem curr).bitWidth / 8)

/-- The cursor after a column. -/
def nextCursor (curr : Nat) : Nat :=
  let dataBytes := wrap ((headerAt file.mem curr).n * ((headerAt file.mem curr).bitWidth / 8))
  wrap (wrap (dataStart file curr + dataBytes) + 7) &&& complement 7

/-- One iteration of the loop of `vbuf_get_col_ptr`. -/
def lookupStep (id curr : Nat) : Iteration Nat ColumnPointer :=
  if file.mem.length < wrap (curr + 16) then .done .null
  else if file.mem.length < curr + 16 then .done .panicked
  else if anchorAt file.mem curr = 0 then .next (wrap (curr + 8))
  else if (headerAt file.mem curr).id = id then
    -- Slicing the file behind its end panics.
    if file.mem.length < dataStart file curr then .done .panicked
    else .done (.found (dataStart file curr) (headerAt file.mem curr).n
      (headerAt file.mem curr).bitWidth)
  else .next (nextCursor file curr)

/-- The cursors that the loop comes to. -/
def Visits (id curr : Nat) : Prop :=
  Relation.ReflTransGen (fun curr next => lookupStep file id curr = .next next) 16 curr

/-- What a pointer and a count describe is in the file. -/
def ColumnPointer.InBounds : ColumnPointer → Prop
  | .null => True
  | .found dataStart n bitWidth => dataStart + n * (bitWidth / 8) ≤ file.mem.length
  | .panicked => False

/-- The lookup ends, its cursor increases, and its result is in the file. -/
structure LookupSafe (id : Nat) : Prop where
  increasing : ∀ curr next, Visits file id curr → lookupStep file id curr = .next next → curr < next
  returns : ∃ result, Returns (lookupStep file id) 16 result ∧ result.InBounds file

/-- A column starts at the cursor. -/
def ColumnAt (curr : Nat) : Prop := curr + 16 ≤ file.mem.length ∧ anchorAt file.mem curr ≠ 0

/-- Modulo `2 ^ 64` a column that is passed ends behind its header and not in the last words
of the address space, and the wanted column ends in the file. -/
structure WellSized (id : Nat) : Prop where
  passed : ∀ curr, Visits file id curr → ColumnAt file curr → (headerAt file.mem curr).id ≠ id →
    curr < dataEnd file curr % 2 ^ 64 ∧ dataEnd file curr % 2 ^ 64 ≤ 2 ^ 64 - 24
  wanted : ∀ curr, Visits file id curr → ColumnAt file curr → (headerAt file.mem curr).id = id →
    dataEnd file curr ≤ file.mem.length

/-! ### Steps -/

section Steps

variable {file} {id curr : Nat}

/-- The cursor behind a column is the wrapped end of its data, rounded up to a word. -/
theorem nextCursor_eq : nextCursor file curr = (dataEnd file curr % 2 ^ 64 + 7) % 2 ^ 64 / 8 * 8 := by
  have hend : wrap (dataStart file curr +
      wrap ((headerAt file.mem curr).n * ((headerAt file.mem curr).bitWidth / 8))) =
      dataEnd file curr % 2 ^ 64 := by
    rw [wrap, wrap, dataEnd, Nat.add_mod_mod]
  rw [nextCursor, hend]
  exact @and_complement_mask 64 3 _ (by decide) (Nat.mod_lt _ (by decide))

theorem step_null (h : file.mem.length < wrap (curr + 16)) : lookupStep file id curr = .done .null :=
  if_pos h

theorem step_panicked (h : ¬ file.mem.length < wrap (curr + 16)) (hout : file.mem.length < curr + 16) :
    lookupStep file id curr = .done .panicked := by
  rw [lookupStep, if_neg h, if_pos hout]

theorem step_padding (hsize : file.mem.length < 2 ^ 63) (hinside : curr + 16 ≤ file.mem.length)
    (hzero : anchorAt file.mem curr = 0) : lookupStep file id curr = .next (curr + 8) := by
  have hfits : wrap (curr + 16) = curr + 16 := Nat.mod_eq_of_lt (by omega)
  have hnext : wrap (curr + 8) = curr + 8 := Nat.mod_eq_of_lt (by omega)
  rw [lookupStep, hfits, if_neg (by omega), if_neg (by omega), if_pos hzero, hnext]

theorem step_passed (hsize : file.mem.length < 2 ^ 63) (hcolumn : ColumnAt file curr)
    (hid : (headerAt file.mem curr).id ≠ id) :
    lookupStep file id curr = .next (nextCursor file curr) := by
  obtain ⟨hinside, hanchor⟩ := hcolumn
  have hfits : wrap (curr + 16) = curr + 16 := Nat.mod_eq_of_lt (by omega)
  rw [lookupStep, hfits, if_neg (by omega), if_neg (by omega), if_neg hanchor, if_neg hid]

theorem step_wanted (hsize : file.mem.length < 2 ^ 63) (hcolumn : ColumnAt file curr)
    (hid : (headerAt file.mem curr).id = id) :
    lookupStep file id curr =
      if file.mem.length < dataStart file curr then .done .panicked
      else .done (.found (dataStart file curr) (headerAt file.mem curr).n
        (headerAt file.mem curr).bitWidth) := by
  obtain ⟨hinside, hanchor⟩ := hcolumn
  have hfits : wrap (curr + 16) = curr + 16 := Nat.mod_eq_of_lt (by omega)
  rw [lookupStep, hfits, if_neg (by omega), if_neg (by omega), if_neg hanchor, if_pos hid]

/-- What one iteration can do of a cursor. -/
theorem step_cases (file : VBufInstance) (id curr : Nat) :
    file.mem.length < wrap (curr + 16) ∨
      (¬ file.mem.length < wrap (curr + 16) ∧ file.mem.length < curr + 16) ∨
      (curr + 16 ≤ file.mem.length ∧ anchorAt file.mem curr = 0) ∨
      (ColumnAt file curr ∧ (headerAt file.mem curr).id ≠ id) ∨
      ColumnAt file curr ∧ (headerAt file.mem curr).id = id := by
  by_cases hnull : file.mem.length < wrap (curr + 16)
  · exact .inl hnull
  by_cases hout : file.mem.length < curr + 16
  · exact .inr (.inl ⟨hnull, hout⟩)
  by_cases hzero : anchorAt file.mem curr = 0
  · exact .inr (.inr (.inl ⟨Nat.le_of_not_lt hout, hzero⟩))
  by_cases hid : (headerAt file.mem curr).id = id
  · exact .inr (.inr (.inr (.inr ⟨⟨Nat.le_of_not_lt hout, hzero⟩, hid⟩)))
  · exact .inr (.inr (.inr (.inl ⟨⟨Nat.le_of_not_lt hout, hzero⟩, hid⟩)))

/-- The loop goes on behind padding or behind a column that is not the wanted one. -/
theorem next_cases (hsize : file.mem.length < 2 ^ 63) {next : Nat}
    (hstep : lookupStep file id curr = .next next) :
    (curr + 16 ≤ file.mem.length ∧ next = curr + 8) ∨
      (ColumnAt file curr ∧ (headerAt file.mem curr).id ≠ id ∧ next = nextCursor file curr) := by
  rcases step_cases file id curr with hnull | ⟨hnull, hout⟩ | ⟨hinside, hzero⟩ | ⟨hcolumn, hid⟩ |
    ⟨hcolumn, hid⟩
  · cases (step_null hnull).symm.trans hstep
  · cases (step_panicked hnull hout).symm.trans hstep
  · cases (step_padding hsize hinside hzero).symm.trans hstep
    exact .inl ⟨hinside, rfl⟩
  · cases (step_passed hsize hcolumn hid).symm.trans hstep
    exact .inr ⟨hcolumn, hid, rfl⟩
  · -- The wanted column ends the loop, behind the end of the file with a panic.
    rw [step_wanted hsize hcolumn hid] at hstep
    split at hstep <;> cases hstep

end Steps

/-! ### The walk -/

section Walk

variable {file} {id curr : Nat}

/-- The loop returns from every cursor that it comes to what it returns from the first. -/
theorem returns_of_visits {result : ColumnPointer} (h : Visits file id curr)
    (hreturns : Returns (lookupStep file id) 16 result) :
    Returns (lookupStep file id) curr result := by
  unfold Visits at h
  induction h with
  | refl => exact hreturns
  | tail _ hstep ih =>
      cases ih with
      | done hdone => cases hstep.symm.trans hdone
      | next hnext hrest => exact Iteration.next.inj (hnext.symm.trans hstep) ▸ hrest

/-- The cursor stays a multiple of eight. -/
theorem visits_mod (hsize : file.mem.length < 2 ^ 63) (h : Visits file id curr) : curr % 8 = 0 := by
  unfold Visits at h
  induction h with
  | refl => rfl
  | @tail curr next _ hstep ih =>
      rcases next_cases hsize hstep with ⟨-, rfl⟩ | ⟨-, -, rfl⟩
      · omega
      · rw [nextCursor_eq]
        omega

/-- A passed column moves the cursor forward exactly when its wrapped end does. -/
theorem lt_nextCursor_iff (hcurr : curr % 8 = 0) :
    curr < nextCursor file curr ↔
      curr < dataEnd file curr % 2 ^ 64 ∧ dataEnd file curr % 2 ^ 64 ≤ 2 ^ 64 - 8 := by
  rw [nextCursor_eq]
  omega

theorem wellSized_of_lookupSafe (hsize : file.mem.length < 2 ^ 63) (h : LookupSafe file id) :
    WellSized file id := by
  obtain ⟨result, hreturns, hbounds⟩ := h.returns
  constructor
  · intro curr hvisits hcolumn hid
    have hstep := step_passed hsize hcolumn hid
    obtain ⟨hlt, hle⟩ :=
      (lt_nextCursor_iff (visits_mod hsize hvisits)).1 (h.increasing curr _ hvisits hstep)
    refine ⟨hlt, ?_⟩
    -- A cursor in the last two words is read there, and the slice panics.
    by_contra hlast
    have hnext := returns_of_visits (hvisits.tail hstep) hreturns
    have hcursor := @nextCursor_eq file curr
    have hwrapped : wrap (nextCursor file curr + 16) < 16 := by
      unfold wrap
      omega
    obtain ⟨hinside, -⟩ := hcolumn
    have hpanic : lookupStep file id (nextCursor file curr) = .done .panicked :=
      step_panicked (by omega) (by omega)
    cases hnext with
    | done hdone =>
        cases hpanic.symm.trans hdone
        exact hbounds
    | next hagain _ => cases hpanic.symm.trans hagain
  · intro curr hvisits hcolumn hid
    have hstep := step_wanted hsize hcolumn hid
    have hreturned := returns_of_visits hvisits hreturns
    cases hreturned with
    | done hdone =>
        rw [hdone] at hstep
        split at hstep
        · cases hstep
          exact hbounds.elim
        · cases hstep
          exact hbounds
    | next hagain _ =>
        rw [hagain] at hstep
        split at hstep <;> cases hstep

/-- Every step of a walk over well-sized columns advances and stays off the last words. -/
theorem step_increases (hsize : file.mem.length < 2 ^ 63) (h : WellSized file id) {next : Nat}
    (hvisits : Visits file id curr) (hstep : lookupStep file id curr = .next next) :
    curr < next ∧ next ≤ 2 ^ 64 - 24 := by
  have hmod := visits_mod hsize hvisits
  rcases next_cases hsize hstep with ⟨hinside, rfl⟩ | ⟨hcolumn, hid, rfl⟩
  · omega
  · obtain ⟨hlt, hle⟩ := h.passed curr hvisits hcolumn hid
    refine ⟨(lt_nextCursor_iff hmod).2 ⟨hlt, by omega⟩, ?_⟩
    rw [nextCursor_eq]
    omega

/-- A walk over well-sized columns ends in the file. -/
theorem inBounds_of_returns (hsize : file.mem.length < 2 ^ 63) (h : WellSized file id)
    {result : ColumnPointer} (hvisits : Visits file id curr) (hlast : curr ≤ 2 ^ 64 - 24)
    (hreturns : Returns (lookupStep file id) curr result) : result.InBounds file := by
  induction hreturns with
  | @next curr next result hstep _ ih =>
      exact ih (hvisits.tail hstep) (step_increases hsize h hvisits hstep).2
  | @done curr result hdone =>
      rcases step_cases file id curr with hnull | ⟨hnull, hout⟩ | ⟨hinside, hzero⟩ |
        ⟨hcolumn, hid⟩ | ⟨hcolumn, hid⟩
      · cases (step_null hnull).symm.trans hdone
        exact trivial
      · -- Off the last words the bound of the loop does not wrap around.
        have hfits : wrap (curr + 16) = curr + 16 := Nat.mod_eq_of_lt (by omega)
        omega
      · cases (step_padding hsize hinside hzero).symm.trans hdone
      · cases (step_passed hsize hcolumn hid).symm.trans hdone
      · have hend := h.wanted curr hvisits hcolumn hid
        rw [step_wanted hsize hcolumn hid, if_neg (by unfold dataEnd at hend; omega)] at hdone
        cases hdone
        exact hend

theorem lookupSafe_of_wellSized (hsize : file.mem.length < 2 ^ 63) (h : WellSized file id) :
    LookupSafe file id := by
  have hstart : Visits file id 16 := Relation.ReflTransGen.refl
  refine ⟨fun curr next hvisits hstep => (step_increases hsize h hvisits hstep).1, ?_⟩
  obtain ⟨result, hreturns⟩ := exists_returns (Visits file id) (fun curr => 2 ^ 64 - curr)
    (fun curr next hvisits hstep => by
      have hnext := step_increases hsize h hvisits hstep
      exact ⟨hvisits.tail hstep, by omega⟩) 16 hstart
  exact ⟨result, hreturns, inBounds_of_returns hsize h hstart (by decide) hreturns⟩

end Walk

theorem length_lt_of_open {bytes : List UInt8} {file : VBufInstance}
    (h : VBufInstance.open bytes = some file) : file.mem.length < 2 ^ 63 := by
  unfold VBufInstance.open at h
  split at h
  · cases h
  next hsize =>
      split at h
      · cases h
      · split at h
        · cases h
        · cases h
          exact Nat.lt_of_not_le hsize

/-- A lookup in an opened file ends, advances at each step and returns what is in the file
exactly when the columns that it comes to are well sized. -/
theorem getColPtr_safe_iff {bytes : List UInt8} {file : VBufInstance}
    (h : VBufInstance.open bytes = some file) (id : Nat) :
    LookupSafe file id ↔ WellSized file id :=
  ⟨wellSized_of_lookupSafe (length_lt_of_open h), lookupSafe_of_wellSized (length_lt_of_open h)⟩

/-! ### A lookup behind another column -/

/-- A file of two columns of one 64-bit number each. -/
def pairBytes : List UInt8 :=
  leBytes 4 0x46554256 ++ leBytes 4 0x00050000 ++ leBytes 8 0 ++
    leBytes 8 (2 ^ 4 + 2 ^ 9 + 1 * 2 ^ 16 + 64 * 2 ^ 32) ++ leBytes 8 1 ++ leBytes 8 5 ++
    leBytes 8 (2 ^ 4 + 2 ^ 9 + 2 * 2 ^ 16 + 64 * 2 ^ 32) ++ leBytes 8 1 ++ leBytes 8 6

/-- The opened file. -/
def pairFile : VBufInstance := ⟨pairBytes, 1⟩

/-- The lookup of the second column comes to both headers. -/
theorem visits_pairFile {curr : Nat} (h : Visits pairFile 2 curr) : curr = 16 ∨ curr = 40 := by
  induction h with
  | refl => exact Or.inl rfl
  | tail _ hstep ih =>
      rcases ih with rfl | rfl
      · have hnext : lookupStep pairFile 2 16 = .next 40 := by decide +kernel
        cases hnext.symm.trans hstep
        exact Or.inr rfl
      · have hdone : lookupStep pairFile 2 40 = .done (.found 56 1 64) := by decide +kernel
        cases hdone.symm.trans hstep

theorem pairFile_wellSized : WellSized pairFile 2 where
  passed := by
    intro curr hvisits _ hother
    rcases visits_pairFile hvisits with rfl | rfl
    · decide +kernel
    · exact absurd (by decide +kernel) hother
  wanted := by
    intro curr hvisits _ _
    rcases visits_pairFile hvisits with rfl | rfl
    · decide +kernel
    · decide +kernel

theorem getColPtr_safe_iff_pair :
    LookupSafe pairFile 2 ∧ lookupStep pairFile 2 40 = .done (.found 56 1 64) :=
  ⟨(@getColPtr_safe_iff pairBytes pairFile (by decide +kernel) 2).2 pairFile_wellSized,
    by decide +kernel⟩

/-! ### A column that ends at itself -/

/-- A file of one column header, whose element count times eight is `2 ^ 64 - 16`. -/
def loopingBytes : List UInt8 :=
  leBytes 4 0x46554256 ++ leBytes 4 0x00050000 ++ leBytes 8 0 ++
    leBytes 8 (2 ^ 4 + 2 ^ 9 + 1 * 2 ^ 16 + 64 * 2 ^ 32) ++ leBytes 8 (2 ^ 61 - 2)

/-- The opened file. -/
def loopingFile : VBufInstance := ⟨loopingBytes, 1⟩

/-- The file opens, and the lookup of another column stays at that header for ever. -/
theorem loopingFile_not_safe :
    VBufInstance.open loopingBytes = some loopingFile ∧
      lookupStep loopingFile 2 16 = .next 16 ∧
      (∀ result, ¬ Returns (lookupStep loopingFile 2) 16 result) ∧ ¬ LookupSafe loopingFile 2 := by
  have hstep : lookupStep loopingFile 2 16 = .next 16 := by
    have hcursor : nextCursor loopingFile 16 = 16 := by decide
    rw [step_passed (by decide) ⟨by decide, by decide⟩ (by decide), hcursor]
  have hnever : ∀ result, ¬ Returns (lookupStep loopingFile 2) 16 result :=
    not_returns (fun curr => curr = 16) (fun curr hcurr => ⟨16, hcurr ▸ hstep, rfl⟩) rfl
  refine ⟨by decide, hstep, hnever, ?_⟩
  intro hsafe
  obtain ⟨result, hreturns, -⟩ := hsafe.returns
  exact hnever result hreturns

end VBuf.Legacy
