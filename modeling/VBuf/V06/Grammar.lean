import VBuf.V06.Wire

/-!
# The grammar of v0.6 byte streams

Sections 3 to 5 of the wire specification as predicates on byte strings: which
bytes are a global header, a canonical block, a block sequence.  Nothing here
reads a cursor or reports an error; positions, fields and padding are related by
divisibility and order alone, and the descriptor of a block is an argument of
the predicate that describes it.
-/

namespace VBuf.V06

open VBuf.Lib

/-- The unsigned little-endian field of `width` bytes at `offset`. -/
def leAt (bytes : List UInt8) (offset width : Nat) : Nat := ofLeBytes (slice bytes offset width)

/-- The bits `low` to `low + width - 1` of a word. -/
def bitField (word low width : Nat) : Nat := word / 2 ^ low % 2 ^ width

/-- `aligned = align_up_checked(value, alignment)`: the multiple of the alignment
in the window that starts at `value`, when the checked sum is a `u64`. -/
structure AlignsTo (value alignment aligned : Nat) : Prop where
  dvd : alignment ∣ aligned
  le : value ≤ aligned
  lt : aligned < value + alignment
  fits : value + (alignment - 1) < u64Bound

/-- Section 3.1: contiguous optional records from `start`, ending exactly at
`stop`.  A record whose flags are not all zero is required or unknown. -/
inductive ExtensionRecords (bytes : List UInt8) (stop : Nat) : Nat → Prop
  | done : ExtensionRecords bytes stop stop
  | record {start size : Nat} (flags : leAt bytes (start + 2) 2 = 0)
      (size_eq : leAt bytes (start + 4) 4 = size) (size_ge : 8 ≤ size) (size_dvd : 8 ∣ size)
      (fits : start + size ≤ stop) (rest : ExtensionRecords bytes stop (start + size)) :
      ExtensionRecords bytes stop start

/-- Section 3: the global header, its extensions and its alignment padding. -/
structure GlobalHeader (bytes : List UInt8) (header : Header) : Prop where
  complete : minHeaderSize ≤ bytes.length
  magic_eq : slice bytes 0 4 = magic
  version_eq : leAt bytes 4 4 = version
  baseShift_eq : leAt bytes 8 1 = header.baseShift
  baseShift_ge : 3 ≤ header.baseShift
  baseShift_le : header.baseShift ≤ 8
  baseStep_eq : header.baseStep = 2 ^ header.baseShift
  flags_eq : leAt bytes 9 1 = header.indefinite.toNat
  headerSize_eq : leAt bytes 10 2 = header.headerSize
  headerSize_ge : minHeaderSize ≤ header.headerSize
  headerSize_dvd : 8 ∣ header.headerSize
  headerSize_le : header.headerSize ≤ bytes.length
  reserved_eq : leAt bytes 12 4 = 0
  extensions : ExtensionRecords bytes header.headerSize minHeaderSize
  dataRegionStart_aligned : AlignsTo header.headerSize header.baseStep header.dataRegionStart
  dataRegionStart_le : header.dataRegionStart ≤ bytes.length
  padding_zero : ZeroOn bytes header.headerSize header.dataRegionStart
  dataRegionEnd_eq : header.dataRegionEnd = bytes.length
  dataRegionSize_eq : header.dataRegionStart + header.dataRegionSize = header.dataRegionEnd
  declaredSize_eq :
    leAt bytes 16 8 = if header.indefinite then 0 else header.dataRegionSize

/-- Section 4.1: the legal widths of a semantic code. -/
def Semantic.LegalWidth : Semantic → Nat → Prop
  | .unsigned, width => width ∈ [8, 16, 32, 64]
  | .float, width => width ∈ [32, 64]
  | .signed, width => width ∈ [8, 16, 32, 64]
  | .opaqueBytes, width => width = 8

/-- Section 4.1: the count rule of a physical code. -/
def Physical.LegalCount : Physical → Nat → Prop
  | .scalar, count => count = 1
  | .array, _ => True

instance (semantic : Semantic) (width : Nat) : Decidable (semantic.LegalWidth width) :=
  match semantic with
  | .unsigned => inferInstanceAs (Decidable (width ∈ [8, 16, 32, 64]))
  | .float => inferInstanceAs (Decidable (width ∈ [32, 64]))
  | .signed => inferInstanceAs (Decidable (width ∈ [8, 16, 32, 64]))
  | .opaqueBytes => inferInstanceAs (Decidable (width = 8))

instance (physical : Physical) (count : Nat) : Decidable (physical.LegalCount count) :=
  match physical with
  | .scalar => inferInstanceAs (Decidable (count = 1))
  | .array => inferInstanceAs (Decidable True)

/-- Section 4.3: counts above `65535` take the extended form. -/
def Block.Extended (block : Block) : Prop := 65535 < block.count

instance (block : Block) : Decidable block.Extended :=
  inferInstanceAs (Decidable (65535 < block.count))

/-- The end of the anchor and, in the extended form, of the count. -/
def Block.headerEnd (block : Block) : Nat :=
  block.blockStart + if block.Extended then 16 else 8

/-- Section 5: the combined alignment shift that an anchor selects. -/
def combinedShift (header : Header) (anchor : Nat) : Nat :=
  header.baseShift + bitField anchor 10 6

/-- Section 4: the anchor word holds exactly the descriptor's fields. -/
structure AnchorMatches (header : Header) (block : Block) (anchor : Nat) : Prop where
  anchor_ne : anchor ≠ 0
  semantic_eq : bitField anchor 0 4 = block.semantic.code
  physical_eq : bitField anchor 4 4 = block.physical.code
  continuation_eq : bitField anchor 8 1 = block.continuation.toNat
  count64_eq : bitField anchor 9 1 = if block.Extended then 1 else 0
  combinedShift_le : combinedShift header anchor ≤ 63
  payloadAlignment_eq : block.payloadAlignment = 2 ^ combinedShift header anchor
  keyId_eq : bitField anchor 16 16 = block.keyId.toNat
  bitWidth_eq : bitField anchor 32 16 = block.bitWidth
  inlineCount_eq : bitField anchor 48 16 = if block.Extended then 0 else block.count

/-- Sections 4 and 5: the bytes from `block.blockStart` are the canonical block
that `block` describes. -/
structure BlockAt (bytes : List UInt8) (header : Header) (block : Block) : Prop where
  start_ge : header.dataRegionStart ≤ block.blockStart
  start_dvd : header.baseStep ∣ block.blockStart - header.dataRegionStart
  headerEnd_le : block.headerEnd ≤ header.dataRegionEnd
  anchor : AnchorMatches header block (leAt bytes block.blockStart 8)
  extendedCount : block.Extended → leAt bytes (block.blockStart + 8) 8 = block.count
  legalWidth : block.semantic.LegalWidth block.bitWidth
  legalCount : block.physical.LegalCount block.count
  payloadStart_aligned : AlignsTo block.headerEnd block.payloadAlignment block.payloadStart
  padding_zero : ZeroOn bytes block.headerEnd block.payloadStart
  payloadBits_lt : block.count * block.bitWidth < u64Bound
  payloadLen_ge : block.count * block.bitWidth ≤ 8 * block.payloadLen
  payloadLen_lt : 8 * block.payloadLen < block.count * block.bitWidth + 8
  payloadEnd_eq : block.payloadEnd = block.payloadStart + block.payloadLen
  payloadEnd_le : block.payloadEnd ≤ header.dataRegionEnd
  nextBlockStart_aligned : AlignsTo block.payloadEnd header.baseStep block.nextBlockStart

/-- Section 4.2: a block after a continued one keeps its key. -/
def ContinuationRule (required : Option UInt16) (block : Block) : Prop :=
  ∀ key, required = some key → block.keyId = key

/-- Sections 4.2 and 5: canonical blocks from a position to the end of the data
region.  The final one ends at its payload and does not continue; each other is
followed by zero padding and the block at its next start. -/
inductive BlockSequence (bytes : List UInt8) (header : Header) :
    Option UInt16 → Nat → List Block → Prop
  | last {required : Option UInt16} {block : Block} (block_at : BlockAt bytes header block)
      (rule : ContinuationRule required block)
      (ends : block.payloadEnd = header.dataRegionEnd)
      (closed : block.continuation = false) :
      BlockSequence bytes header required block.blockStart [block]
  | next {required : Option UInt16} {block : Block} {rest : List Block}
      (block_at : BlockAt bytes header block) (rule : ContinuationRule required block)
      (inside : block.nextBlockStart < header.dataRegionEnd)
      (gap_zero : ZeroOn bytes block.payloadEnd block.nextBlockStart)
      (tail : BlockSequence bytes header block.continuationKey block.nextBlockStart rest) :
      BlockSequence bytes header required block.blockStart (block :: rest)

/-- Sections 3 to 5: `bytes` is a v0.6 stream with this header and these
blocks.  An empty data region holds no block. -/
structure WellFormed (bytes : List UInt8) (header : Header) (blocks : List Block) : Prop where
  length_lt : bytes.length < u64Bound
  global : GlobalHeader bytes header
  region : header.dataRegionSize = 0 ∧ blocks = [] ∨
    BlockSequence bytes header none header.dataRegionStart blocks

theorem AlignsTo.eq_roundUp {value alignment aligned : Nat}
    (h : AlignsTo value alignment aligned) : aligned = roundUp value alignment :=
  (roundUp_eq_of_dvd h.dvd h.le h.lt).symm

/-- Checked alignment to a power of two is the grammar's relation. -/
theorem alignUp_eq_ok_iff_alignsTo {value shift aligned : Nat} (hshift : shift ≤ 63) :
    alignUp value (2 ^ shift) = .ok aligned ↔ AlignsTo value (2 ^ shift) aligned := by
  have hpos : 0 < 2 ^ shift := Nat.two_pow_pos shift
  rw [alignUp_eq_ok_iff hshift]
  constructor
  · rintro ⟨hfits, rfl⟩
    exact ⟨dvd_roundUp _ _, le_roundUp hpos, roundUp_lt_add hpos, hfits⟩
  · intro h
    exact ⟨h.fits, h.eq_roundUp⟩

theorem leAt_lt {bytes : List UInt8} {offset width : Nat} :
    leAt bytes offset width < 256 ^ width := by
  refine Nat.lt_of_lt_of_le (ofLeBytes_lt _) (Nat.pow_le_pow_right (by decide) ?_)
  rw [slice_length]
  exact Nat.min_le_left _ _

/-- A field that holds a written number reads it back. -/
theorem leAt_of_holds {bytes : List UInt8} {offset width value : Nat}
    (h : Holds bytes offset (leBytes width value)) (hvalue : value < 256 ^ width) :
    leAt bytes offset width = value := by
  have hslice : slice bytes offset width = leBytes width value := by
    have hholds : slice bytes offset (leBytes width value).length = leBytes width value := h
    rwa [leBytes_length] at hholds
  rw [leAt, hslice, ofLeBytes_leBytes_of_lt hvalue]

theorem bitField_lt (word low width : Nat) : bitField word low width < 2 ^ width :=
  Nat.mod_lt _ (Nat.two_pow_pos width)

theorem GlobalHeader.baseStep_pos {bytes : List UInt8} {header : Header}
    (h : GlobalHeader bytes header) : 0 < header.baseStep := by
  rw [h.baseStep_eq]
  exact Nat.two_pow_pos _

end VBuf.V06
