import VBuf.Legacy.ColumnLookup
import VBuf.Lib.Reader

/-!
# Atomic columns in a legacy file

`vbuf_write_atomic_column` appends a header, padding to the alignment and the elements;
`get_as` looks for the next header at the next multiple of eight.  The writer does not pad
to it, so that a column reads back when the data before it have multiples of eight bytes.
-/

namespace VBuf.Legacy

open VBuf.Lib VBuf.V06

/-! ### The writer -/

/-- A typed column: the bytes of its elements, of one of the widths of the native types, and
the alignment that it is written with. -/
structure Column where
  id : Nat
  n : Nat
  alignment : Nat
  bitWidth : Nat
  data : List UInt8
  alignment_pow : alignment.isPowerOfTwo
  width_mem : bitWidth ∈ [8, 16, 32, 64]
  length_eq : data.length = n * (bitWidth / 8)

/-- The anchor of `vbuf_write_atomic_column`; its fields do not overlap. -/
def Column.anchor (column : Column) : Nat :=
  2 ^ 4 + 2 ^ 9 + column.id % 2 ^ 16 * 2 ^ 16 + column.bitWidth * 2 ^ 32

/-- The header of a column. -/
def Column.header (column : Column) : List UInt8 := leBytes 8 column.anchor ++ leBytes 8 column.n

/-- `vbuf_write_header`. -/
def writeHeader (aShift : Nat) : List UInt8 :=
  leBytes 4 0x46554256 ++ leBytes 4 0x00050000 ++ leBytes 1 aShift ++ List.replicate 7 0

/-- The zeros between the header of a column and its data. -/
def padding (pos alignment : Nat) : List UInt8 :=
  List.replicate ((alignment - pos % alignment) % alignment) 0

/-- `vbuf_write_atomic_column`, at the end of a file. -/
def writeAtomicColumn (file : List UInt8) (column : Column) : List UInt8 :=
  file ++ column.header ++ padding (file.length + 16) column.alignment ++ column.data

/-- A file of columns. -/
def writeColumns (aShift : Nat) (columns : List Column) : List UInt8 :=
  columns.foldl writeAtomicColumn (writeHeader aShift)

/-! ### The reader -/

/-- What `get_as` returns: the count of the elements and their bytes. -/
abbrev Elements := Option (Nat × List UInt8)

/-- The checked data range of `get_as`; `none` where a sum or a product does not fit. -/
def dataRange (file : VBufInstance) (curr : Nat) : Option (Nat × Nat) :=
  let header := headerAt file.mem curr
  let padded := curr + header.headerSize + lowBits file.alignment
  if 2 ^ 64 ≤ padded then none
  else
    let dataStart := padded &&& complement (lowBits file.alignment)
    let dataBytes := header.n * ((header.bitWidth + 7) / 8)
    if 2 ^ 64 ≤ dataBytes ∨ 2 ^ 64 ≤ dataStart + dataBytes then none
    else some (dataStart, dataStart + dataBytes)

/-- One iteration of the loop of `get_as`, for elements of `size` bytes; a mapping starts at
a multiple of every element size. -/
def getAsStep (file : VBufInstance) (size target curr : Nat) : Iteration Nat Elements :=
  if file.mem.length < wrap (curr + 16) then .done none
  else if anchorAt file.mem curr = 0 then .next (wrap (curr + 8))
  else
    match dataRange file curr with
    | none => .done none
    | some (dataStart, dataEnd) =>
        if (headerAt file.mem curr).id = target then
          if (headerAt file.mem curr).bitWidth ≠ size * 8 ∨ file.mem.length < dataEnd then .done none
          else if dataStart % size ≠ 0 then .done none
          else .done (some ((headerAt file.mem curr).n,
            slice file.mem dataStart (dataEnd - dataStart)))
        else if file.mem.length < dataEnd then .done none
        else if 2 ^ 64 ≤ dataEnd + 7 then .done none
        else .next ((dataEnd + 7) &&& complement 7)

/-- `get_as` returns exactly the elements of a column. -/
def ReadsBack (file : VBufInstance) (column : Column) : Prop :=
  Returns (getAsStep file (column.bitWidth / 8) column.id) 16 (some (column.n, column.data))

/-! ### Storable columns -/

/-- Two columns with the same elements. -/
def Column.SameElements (column other : Column) : Prop :=
  column.n = other.n ∧ column.bitWidth = other.bitWidth ∧ column.data = other.data
  deriving Decidable

/-- Where a column that is appended to `pos` bytes ends. -/
def Column.endAt (column : Column) (pos : Nat) : Nat :=
  roundUp (pos + 16) column.alignment + column.data.length

/-- Of columns that are appended to `pos` bytes, the first with the id of the target has its
elements.  Up to it the data start where the alignment of the file puts them, and before it
they have a multiple of eight bytes. -/
def Column.Reached (target : Column) (aShift : Nat) : Nat → List Column → Prop
  | _, [] => False
  | pos, column :: columns =>
      roundUp (pos + 16) column.alignment = roundUp (pos + 16) (2 ^ aShift) ∧
        if column.id = target.id then column.SameElements target
        else column.data.length % 8 = 0 ∧ target.Reached aShift (column.endAt pos) columns

instance Column.decidableReached (target : Column) (aShift : Nat) :
    ∀ pos columns, Decidable (target.Reached aShift pos columns)
  | _, [] => inferInstanceAs (Decidable False)
  | pos, column :: columns =>
      have := target.decidableReached aShift (column.endAt pos) columns
      inferInstanceAs (Decidable (
        roundUp (pos + 16) column.alignment = roundUp (pos + 16) (2 ^ aShift) ∧
          if column.id = target.id then column.SameElements target
          else column.data.length % 8 = 0 ∧ target.Reached aShift (column.endAt pos) columns))

/-- The ids have 16 bits, and each column is reached. -/
def Storable (aShift : Nat) (columns : List Column) : Prop :=
  ∀ column ∈ columns, column.id < 2 ^ 16 ∧ column.Reached aShift 16 columns
  deriving Decidable

/-! ### One column -/

section Column

variable {column : Column} {file : VBufInstance} {curr aShift : Nat}

theorem Column.width_cases (column : Column) :
    column.bitWidth = 8 ∨ column.bitWidth = 16 ∨ column.bitWidth = 32 ∨ column.bitWidth = 64 := by
  simpa using column.width_mem

theorem Column.anchor_lt (column : Column) : column.anchor < 2 ^ 64 := by
  have hwidth := column.width_cases
  unfold Column.anchor
  omega

@[simp] theorem Column.header_length (column : Column) : column.header.length = 16 := by
  simp [Column.header]

/-- The header at a cursor where a column's header stands. -/
theorem headerAt_of_holds (h : Holds file.mem curr column.header) (hn : column.n < 2 ^ 64) :
    anchorAt file.mem curr ≠ 0 ∧
      headerAt file.mem curr = ⟨column.id % 2 ^ 16, column.bitWidth, column.n, 16⟩ := by
  obtain ⟨hanchor, hcount⟩ := holds_append.1 h
  have hwidth := column.width_cases
  have hvalue : anchorAt file.mem curr = column.anchor :=
    leAt_of_holds hanchor (Nat.lt_of_lt_of_eq column.anchor_lt (by decide))
  have hnumber : leAt file.mem (curr + 8) 8 = column.n := by
    rw [leBytes_length] at hcount
    exact leAt_of_holds hcount (Nat.lt_of_lt_of_eq hn (by decide))
  have hflag : bitField column.anchor 9 1 = 1 := by
    unfold bitField Column.anchor
    omega
  have hid : bitField column.anchor 16 16 = column.id % 2 ^ 16 := by
    unfold bitField Column.anchor
    omega
  have hbits : bitField column.anchor 32 16 = column.bitWidth := by
    unfold bitField Column.anchor
    omega
  constructor
  · rw [hvalue, Column.anchor]
    omega
  · rw [headerAt, hvalue, hflag, hid, hbits, hnumber]
    rfl

/-- The data of a column starts at the next multiple of the alignment. -/
theorem padding_length (pos : Nat) {alignment : Nat} (hpos : 0 < alignment) :
    pos + (padding pos alignment).length = roundUp pos alignment := by
  have hmod := Nat.mod_lt pos hpos
  rw [padding, List.length_replicate]
  rcases Nat.eq_zero_or_pos (pos % alignment) with hzero | hrest
  · rw [hzero, Nat.sub_zero, Nat.mod_self, Nat.add_zero]
    exact (roundUp_eq_self hpos (Nat.dvd_of_mod_eq_zero hzero)).symm
  · have hpad : (alignment - pos % alignment) % alignment = alignment - pos % alignment :=
      Nat.mod_eq_of_lt (by omega)
    rw [hpad]
    refine (roundUp_eq_of_dvd ?_ (by omega) (by omega)).symm
    have hdiv := Nat.div_add_mod pos alignment
    refine ⟨pos / alignment + 1, ?_⟩
    rw [Nat.mul_succ]
    omega

/-- A column appended to a file. -/
theorem writeAtomicColumn_length (file : List UInt8) (column : Column) :
    (writeAtomicColumn file column).length = column.endAt file.length := by
  rw [Column.endAt, ← padding_length (file.length + 16) (Nat.pos_of_isPowerOfTwo column.alignment_pow),
    writeAtomicColumn]
  simp only [List.length_append, Column.header_length]

/-- The range of the data of a column that stands at the cursor. -/
theorem dataRange_of_headerAt {id : Nat}
    (hheader : headerAt file.mem curr = ⟨id, column.bitWidth, column.n, 16⟩)
    (halignment : file.alignment = 2 ^ aShift) (hshift : aShift < 32)
    (hend : roundUp (curr + 16) (2 ^ aShift) + column.data.length < 2 ^ 63) :
    dataRange file curr = some (roundUp (curr + 16) (2 ^ aShift),
      roundUp (curr + 16) (2 ^ aShift) + column.data.length) := by
  have hpow : 2 ^ aShift < 2 ^ 32 := Nat.pow_lt_pow_right (by decide) hshift
  have hpos : 0 < 2 ^ aShift := Nat.two_pow_pos aShift
  have hle : curr + 16 ≤ roundUp (curr + 16) (2 ^ aShift) := le_roundUp hpos
  have hstart : (curr + 16 + (2 ^ aShift - 1)) &&& complement (2 ^ aShift - 1) =
      roundUp (curr + 16) (2 ^ aShift) :=
    mask_add_eq_roundUp (by omega) (by omega)
  have hbytes : column.n * ((column.bitWidth + 7) / 8) = column.data.length := by
    have hwidth := column.width_cases
    rw [column.length_eq]
    congr 1
    omega
  have hlow : lowBits (2 ^ aShift) = 2 ^ aShift - 1 := by
    unfold lowBits wrap
    omega
  rw [dataRange, hheader, halignment]
  simp only [hlow, hstart, hbytes]
  rw [if_neg (by omega), if_neg (by omega)]

/-- A column whose header and data stand in the file. -/
structure Stands (file : VBufInstance) (aShift curr : Nat) (column : Column) : Prop where
  header : Holds file.mem curr column.header
  data : Holds file.mem (roundUp (curr + 16) (2 ^ aShift)) column.data
  inside : roundUp (curr + 16) (2 ^ aShift) + column.data.length ≤ file.mem.length

theorem Stands.n_lt (h : Stands file aShift curr column) (hsize : file.mem.length < 2 ^ 63) :
    column.n < 2 ^ 64 := by
  have hinside := h.inside
  have hlength := column.length_eq
  have hwidth := column.width_cases
  rcases hwidth with hw | hw | hw | hw <;> rw [hw] at hlength <;> omega

theorem roundUp_mod_eight {pos : Nat} (hpos : pos % 8 = 0) (aShift : Nat) :
    roundUp pos (2 ^ aShift) % 8 = 0 := by
  by_cases hsmall : aShift ≤ 3
  · have hdvd : 2 ^ aShift ∣ pos :=
      Nat.dvd_trans (Nat.pow_dvd_pow 2 hsmall) (Nat.dvd_of_mod_eq_zero hpos)
    rw [roundUp_eq_self (Nat.two_pow_pos aShift) hdvd, hpos]
  · have height : 2 ^ 3 ∣ 2 ^ aShift := Nat.pow_dvd_pow 2 (by omega)
    exact Nat.mod_eq_zero_of_dvd (Nat.dvd_trans height (dvd_roundUp _ _))

/-- The reader at a column: it returns the data of the wanted one, and goes on behind another. -/
theorem getAsStep_of_stands {size target : Nat} (h : Stands file aShift curr column)
    (hsize : file.mem.length < 2 ^ 63) (halignment : file.alignment = 2 ^ aShift)
    (hshift : aShift < 32) (hid : column.id < 2 ^ 16) :
    getAsStep file size target curr =
      if column.id = target then
        if column.bitWidth ≠ size * 8 then .done none
        else if roundUp (curr + 16) (2 ^ aShift) % size ≠ 0 then .done none
        else .done (some (column.n, column.data))
      else .next ((roundUp (curr + 16) (2 ^ aShift) + column.data.length + 7) / 8 * 8) := by
  obtain ⟨hanchor, hheader⟩ := headerAt_of_holds h.header (h.n_lt hsize)
  have hinside := h.inside
  have hle : curr + 16 ≤ roundUp (curr + 16) (2 ^ aShift) := le_roundUp (Nat.two_pow_pos aShift)
  have hrange := dataRange_of_headerAt hheader halignment hshift (by omega)
  have hfits : wrap (curr + 16) = curr + 16 := Nat.mod_eq_of_lt (by omega)
  have hdata : slice file.mem (roundUp (curr + 16) (2 ^ aShift)) column.data.length = column.data :=
    h.data
  have hnext : (roundUp (curr + 16) (2 ^ aShift) + column.data.length + 7) &&& complement 7 =
      (roundUp (curr + 16) (2 ^ aShift) + column.data.length + 7) / 8 * 8 :=
    @and_complement_mask 64 3 _ (by decide) (by omega)
  -- The data of a column that stands in the file pass every check of their range.
  have hdone : ¬ file.mem.length < roundUp (curr + 16) (2 ^ aShift) + column.data.length := by
    omega
  rw [getAsStep, hfits, if_neg (by omega), if_neg hanchor, hrange]
  simp only [hheader, Nat.mod_eq_of_lt hid, hdone, or_false, if_false, Nat.add_sub_cancel_left,
    hdata, hnext]
  rw [if_neg (show ¬ 2 ^ 64 ≤ roundUp (curr + 16) (2 ^ aShift) + column.data.length + 7 by omega)]

/-- The reader at the wanted column. -/
theorem getAsStep_wanted (h : Stands file aShift curr column) (hsize : file.mem.length < 2 ^ 63)
    (halignment : file.alignment = 2 ^ aShift) (hshift : aShift < 32) (hcurr : curr % 8 = 0)
    (hid : column.id < 2 ^ 16) :
    getAsStep file (column.bitWidth / 8) column.id curr = .done (some (column.n, column.data)) := by
  have hwidth := column.width_cases
  have height := @roundUp_mod_eight (curr + 16) (by omega) aShift
  rw [getAsStep_of_stands h hsize halignment hshift hid, if_pos rfl, if_neg (by omega), if_neg]
  -- A multiple of eight is one of each of the widths.
  rcases hwidth with hw | hw | hw | hw <;> rw [hw] <;> omega

/-- The reader at another column, whose data ends at a multiple of eight. -/
theorem getAsStep_other {size target : Nat} (h : Stands file aShift curr column)
    (hsize : file.mem.length < 2 ^ 63) (halignment : file.alignment = 2 ^ aShift)
    (hshift : aShift < 32) (hcurr : curr % 8 = 0) (hid : column.id < 2 ^ 16)
    (hother : column.id ≠ target) (hlength : column.data.length % 8 = 0) :
    getAsStep file size target curr =
      .next (roundUp (curr + 16) (2 ^ aShift) + column.data.length) := by
  have height := @roundUp_mod_eight (curr + 16) (by omega) aShift
  rw [getAsStep_of_stands h hsize halignment hshift hid, if_neg hother]
  congr 1
  omega

end Column

/-! ### A file of columns -/

section File

variable {file : VBufInstance} {aShift : Nat}

/-- What is written stays at the start of the file. -/
theorem foldl_writeAtomicColumn (columns : List Column) (written : List UInt8) :
    ∃ rest, columns.foldl writeAtomicColumn written = written ++ rest := by
  induction columns generalizing written with
  | nil => exact ⟨[], (List.append_nil _).symm⟩
  | cons column columns ih =>
      obtain ⟨rest, hrest⟩ := ih (writeAtomicColumn written column)
      rw [List.foldl_cons, hrest, writeAtomicColumn, List.append_assoc, List.append_assoc,
        List.append_assoc]
      exact ⟨_, rfl⟩

/-- The first of the columns that are still to come stands where the file ends. -/
theorem stands_of_write {written : List UInt8} {column : Column} {columns : List Column}
    (hfile : file.mem = (column :: columns).foldl writeAtomicColumn written)
    (hstart : roundUp (written.length + 16) column.alignment =
      roundUp (written.length + 16) (2 ^ aShift)) : Stands file aShift written.length column := by
  obtain ⟨rest, hrest⟩ := foldl_writeAtomicColumn columns (writeAtomicColumn written column)
  rw [List.foldl_cons, hrest] at hfile
  have hpadding :=
    padding_length (written.length + 16) (Nat.pos_of_isPowerOfTwo column.alignment_pow)
  have hlength := writeAtomicColumn_length written column
  -- What follows the column does not touch it.
  have hwhole := holds_self file.mem
  rw [hfile] at hwhole
  nth_rewrite 2 [writeAtomicColumn] at hwhole
  simp only [holds_append, Nat.zero_add, List.length_append, Column.header_length] at hwhole
  obtain ⟨⟨⟨⟨-, hheader⟩, -⟩, hdata⟩, -⟩ := hwhole
  rw [← hfile] at hheader hdata
  refine ⟨hheader, ?_, ?_⟩
  · rwa [hpadding, hstart] at hdata
  · rw [hfile, List.length_append, hlength, Column.endAt, hstart]
    exact Nat.le_add_right _ _

/-- From the end of what is written, the reader finds a column that is reached from there. -/
theorem returns_of_write {columns : List Column} {written : List UInt8} {target : Column}
    (hfile : file.mem = columns.foldl writeAtomicColumn written)
    (hwritten : written.length % 8 = 0) (hsize : file.mem.length < 2 ^ 63)
    (halignment : file.alignment = 2 ^ aShift) (hshift : aShift < 32)
    (hids : ∀ column ∈ columns, column.id < 2 ^ 16)
    (hreached : target.Reached aShift written.length columns) :
    Returns (getAsStep file (target.bitWidth / 8) target.id) written.length
      (some (target.n, target.data)) := by
  induction columns generalizing written with
  | nil => exact hreached.elim
  | cons first columns ih =>
      obtain ⟨hstart, hrest⟩ := hreached
      have hstands := stands_of_write hfile hstart
      have hfirstId := hids first List.mem_cons_self
      by_cases hid : first.id = target.id
      · rw [if_pos hid] at hrest
        obtain ⟨hn, hwidth, hdata⟩ := hrest
        rw [← hid, ← hwidth, ← hn, ← hdata]
        exact .done (getAsStep_wanted hstands hsize halignment hshift hwritten hfirstId)
      · rw [if_neg hid] at hrest
        obtain ⟨hlength, hlater⟩ := hrest
        have hend := writeAtomicColumn_length written first
        have height := @roundUp_mod_eight (written.length + 16) (by omega) aShift
        have hstep := @getAsStep_other _ _ _ _ (target.bitWidth / 8) _ hstands hsize halignment
          hshift hwritten hfirstId hid hlength
        -- Here the reader and the writer agree on where the next header stands.
        rw [← hstart, ← Column.endAt, ← hend] at hstep
        rw [← hend] at hlater
        refine .next hstep (ih (by rw [hfile, List.foldl_cons]) ?_ ?_ hlater)
        · rw [hend, Column.endAt, hstart]
          omega
        · exact fun other hmember => hids other (List.mem_cons_of_mem _ hmember)

theorem writeHeader_length (aShift : Nat) : (writeHeader aShift).length = 16 := by
  simp [writeHeader]

/-- A file of columns is opened with its bytes and the alignment of its header. -/
theorem open_writeColumns {columns : List Column} (hshift : aShift < 32)
    (hopen : VBufInstance.open (writeColumns aShift columns) = some file) :
    file.mem = writeColumns aShift columns ∧ file.alignment = 2 ^ aShift := by
  obtain ⟨rest, hrest⟩ := foldl_writeAtomicColumn columns (writeHeader aShift)
  have hstored : leAt (writeColumns aShift columns) 8 1 = aShift := by
    have hwhole := holds_self (writeColumns aShift columns)
    nth_rewrite 2 [writeColumns] at hwhole
    rw [hrest, writeHeader] at hwhole
    simp only [holds_append, List.length_append, leBytes_length] at hwhole
    exact leAt_of_holds hwhole.1.1.2 (Nat.lt_trans hshift (by decide))
  unfold VBufInstance.open at hopen
  rw [hstored] at hopen
  split at hopen
  · cases hopen
  · split at hopen
    · cases hopen
    · split at hopen
      · cases hopen
      · cases hopen
        exact ⟨rfl, Nat.mod_eq_of_lt (Nat.pow_lt_pow_right (by decide) hshift)⟩

end File

/-- Storable columns read back, each exactly as it was written. -/
theorem atomicColumns_readBack {aShift : Nat} {columns : List Column} {file : VBufInstance}
    (hshift : aShift < 32) (hopen : VBufInstance.open (writeColumns aShift columns) = some file)
    (h : Storable aShift columns) : ∀ column ∈ columns, ReadsBack file column := by
  obtain ⟨hfile, halignment⟩ := open_writeColumns hshift hopen
  intro column hmem
  have hreturns := returns_of_write hfile (by rw [writeHeader_length]) (length_lt_of_open hopen)
    halignment hshift (fun other hmember => (h other hmember).1) (h column hmem).2
  rwa [writeHeader_length] at hreturns

/-! ### Two columns -/

/-- A column of one byte. -/
def byteColumn (id : Nat) (value : UInt8) : Column where
  id
  n := 1
  alignment := 1
  bitWidth := 8
  data := [value]
  alignment_pow := Nat.isPowerOfTwo_one
  width_mem := by decide
  length_eq := rfl

/-- A column of one word. -/
def wordColumn (id : Nat) (value : UInt8) : Column where
  id
  n := 1
  alignment := 1
  bitWidth := 64
  data := value :: List.replicate 7 0
  alignment_pow := Nat.isPowerOfTwo_one
  width_mem := by decide
  length_eq := rfl

/-- A word and a byte, in a file with the alignment 8. -/
def wordByteFile : VBufInstance := ⟨writeColumns 3 [wordColumn 1 7, byteColumn 2 9], 8⟩

theorem atomicColumns_readBack_wordByte :
    ReadsBack wordByteFile (wordColumn 1 7) ∧ ReadsBack wordByteFile (byteColumn 2 9) := by
  have hall := @atomicColumns_readBack 3 [wordColumn 1 7, byteColumn 2 9] wordByteFile
    (by decide) (by decide) (by decide)
  exact ⟨hall _ (by simp), hall _ (by simp)⟩

/-- Two bytes, in a file with the alignment 1. -/
def twoByteFile : VBufInstance := ⟨writeColumns 0 [byteColumn 1 7, byteColumn 2 9], 1⟩

/-- Of two columns of one byte the second is not found. -/
theorem twoByteFile_not_readBack :
    VBufInstance.open (writeColumns 0 [byteColumn 1 7, byteColumn 2 9]) = some twoByteFile ∧
      ¬ ∀ column ∈ [byteColumn 1 7, byteColumn 2 9], ReadsBack twoByteFile column := by
  refine ⟨by decide, fun hall => ?_⟩
  -- The reader goes on at 40, the second header stands at 33, and the file ends at 50.
  have hfirst : getAsStep twoByteFile 1 2 16 = .next 40 := by decide +kernel
  have hsecond : getAsStep twoByteFile 1 2 40 = .done none := by decide +kernel
  have hnone : Returns (getAsStep twoByteFile 1 2) 16 none := .next hfirst (.done hsecond)
  cases hnone.unique (hall (byteColumn 2 9) (by simp))

end VBuf.Legacy
