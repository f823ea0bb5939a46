import VBuf.Runtime.AttentionSpec
import VBuf.Runtime.OutputHead

/-!
# Rows of the output head

What `get_bf16_rows` has checked, read and returned: the rows are a part of the tensor, number
by number, and the read stays inside it.
-/

namespace VBuf.Runtime

open VBuf.Lib VBuf.Ml

section Rows

variable {F : Type} {decode : UInt16 → F} {m after : Materializer F} {descriptor : TensorDescriptor}
  {id : UInt32} {rowStart rowCount totalRows : Nat} {rows : GenericTensor F}
  {sizes : ProjectionSizes}

/-- A value is the word of its two bytes. -/
theorem getElem?_bf16Values (decode : UInt16 → F) (bytes : List UInt8) (i : Nat) :
    (bf16Values decode bytes)[i]? = bytes[i * 2]?.bind fun low => bytes[i * 2 + 1]?.map fun high =>
      decode (UInt16.ofNat (low.toNat + 256 * high.toNat)) := by
  induction bytes using bf16Values.induct generalizing i with
  | case1 low high rest ih =>
      cases i with
      | zero => rfl
      | succ i =>
          have heven : (i + 1) * 2 = i * 2 + 1 + 1 := by omega
          rw [bf16Values, List.getElem?_cons_succ, ih, heven, List.getElem?_cons_succ,
            List.getElem?_cons_succ, List.getElem?_cons_succ, List.getElem?_cons_succ]
  | case2 bytes hshort =>
      rw [bf16Values]
      · match bytes, hshort with
        | [], _ => rfl
        | [byte], _ => cases i <;> rfl
        | low :: high :: rest, hshort => exact absurd rfl (hshort low high rest)
      · exact hshort

/-- Two bytes make a value. -/
theorem bf16Values_length (decode : UInt16 → F) (bytes : List UInt8) :
    (bf16Values decode bytes).length = bytes.length / 2 := by
  induction bytes using bf16Values.induct with
  | case1 low high rest ih =>
      rw [bf16Values, List.length_cons, ih, List.length_cons, List.length_cons]
      omega
  | case2 bytes hshort =>
      rw [bf16Values]
      · match bytes, hshort with
        | [], _ => rfl
        | [byte], _ => simp
        | low :: high :: rest, hshort => exact absurd rfl (hshort low high rest)
      · exact hshort

/-- A value of rows is a value of the whole tensor. -/
theorem getElem?_bf16Values_slice {bytes : List UInt8} {start length skipped count i : Nat}
    (hi : i < count) (hinside : (skipped + count) * 2 ≤ length) :
    (bf16Values decode (slice bytes (start + skipped * 2) (count * 2)))[i]? =
      (bf16Values decode (slice bytes start length))[skipped + i]? := by
  have hlow : start + skipped * 2 + i * 2 = start + (skipped + i) * 2 := by omega
  have hhigh : start + skipped * 2 + (i * 2 + 1) = start + ((skipped + i) * 2 + 1) := by omega
  rw [getElem?_bf16Values, getElem?_bf16Values, getElem?_slice (by omega),
    getElem?_slice (by omega), getElem?_slice (by omega), getElem?_slice (by omega), hlow, hhigh]

/-- What `get_bf16_rows` has checked, read and returned. -/
structure RowsRead (decode : UInt16 → F) (descriptor : TensorDescriptor) (rowStart rowCount : Nat)
    (m : Materializer F) (rows : GenericTensor F) (after : Materializer F)
    (totalRows hidden : Nat) : Prop where
  representation : descriptor.representation = .bf16
  dimensions : descriptor.dimensions = [totalRows, hidden]
  fits : totalRows * hidden * 2 < 2 ^ 64
  length : descriptor.payload.length = totalRows * hidden * 2
  small : rowCount < 2 ^ 64
  inside : rowStart + rowCount ≤ totalRows
  available : descriptor.payload.offset + rowStart * (hidden * 2) + rowCount * (hidden * 2) ≤
    m.payload.length
  dims : rows.dimensions = [UInt64.ofNat rowCount, UInt64.ofNat hidden]
  values : rows.values = bf16Values decode
    (slice m.payload (descriptor.payload.offset + rowStart * (hidden * 2))
      (rowCount * (hidden * 2)))
  directory : after.directory = m.directory
  payload : after.payload = m.payload
  reads : after.reads = m.reads ++
    [(descriptor.payload.offset + rowStart * (hidden * 2),
      descriptor.payload.offset + rowStart * (hidden * 2) + rowCount * (hidden * 2))]

/-- What a read of rows that succeeds has done. -/
theorem getBf16Rows_ok (hfound : getByIdentity m.directory headKeyId id.toUInt16 = some descriptor)
    (h : m.getBf16Rows decode id rowStart rowCount = .ok (rows, after)) :
    ∃ totalRows hidden,
      RowsRead decode descriptor rowStart rowCount m rows after totalRows hidden := by
  simp only [Materializer.getBf16Rows, hfound, bind_eq_ok_iff, okOr_eq_ok_iff, rejectIf_eq_ok_iff,
    range?_eq_some_iff, Option.some.injEq] at h
  obtain ⟨_, rfl, _, hgeometry, _, -, _, hfits, _, hlength, _, hrows, _, hinside, _, -, _, -, _, -,
    _, -, _, -, bytes, ⟨-, havailable, rfl⟩, _, -, heq⟩ := h
  rw [not_or, not_not, not_not] at hgeometry
  obtain ⟨hbf16, hrank⟩ := hgeometry
  obtain ⟨totalRows, hidden, hdims⟩ := List.length_eq_two.1 hrank
  rw [hdims] at hfits hlength hinside havailable heq
  simp only [List.getD_cons_zero, List.getD_cons_succ, Nat.not_le, Nat.not_lt, ne_eq, not_not]
    at hfits hlength hinside havailable heq
  rw [Nat.not_le] at hrows
  cases heq
  refine ⟨totalRows, hidden, hbf16, hdims, hfits, hlength, by omega, hinside, havailable, rfl,
    ?_, rfl, rfl, rfl⟩
  show bf16Values decode (slice _ _ _) = _
  rw [Nat.add_sub_cancel_left]

/-- The values of the head, as far as the payload holds them. -/
def headValues (decode : UInt16 → F) (descriptor : TensorDescriptor) (payload : List UInt8) :
    List F :=
  bf16Values decode (slice payload descriptor.payload.offset descriptor.payload.length)

/-- The whole tensor has the values of the head. -/
theorem wholeBf16_ok (hfound : getByIdentity m.directory headKeyId id.toUInt16 = some descriptor)
    {whole : GenericTensor F} (h : m.wholeBf16 decode id = .ok whole) :
    whole.dimensions = descriptor.dimensions.map UInt64.ofNat ∧
      whole.values = headValues decode descriptor m.payload := by
  simp only [Materializer.wholeBf16, Materializer.bytes, hfound, bind_eq_ok_iff, okOr_eq_ok_iff,
    rejectIf_eq_ok_iff, range?_eq_some_iff, Option.some.injEq] at h
  obtain ⟨_, ⟨_, rfl, _, -, _, -, bytes, ⟨-, -, rfl⟩, heq⟩, _, -, _, -, _, -, hwhole⟩ := h
  cases heq
  cases hwhole
  refine ⟨rfl, ?_⟩
  show bf16Values decode (slice _ _ _) = _
  rw [Nat.add_sub_cancel_left, headValues]

/-- The head is a BF16 tensor of the source that holds the vocabulary. -/
structure HoldsHead (sizes : ProjectionSizes) (descriptor : TensorDescriptor) (totalRows : Nat)
    (payload : List UInt8) : Prop where
  representation : descriptor.representation = .bf16
  dimensions : descriptor.dimensions = [totalRows, sizes.hidden.toNat]
  source : descriptor.payload.sourceId = ⟨1⟩
  length : descriptor.payload.length = totalRows * sizes.hidden.toNat * 2
  vocab : sizes.vocab ≤ totalRows
  inside : descriptor.payload.offset + descriptor.payload.length ≤ payload.length
  hidden : sizes.hidden ≠ 0

/-- Rows of such a head can be read. -/
theorem exists_getBf16Rows
    (hfound : getByIdentity m.directory headKeyId id.toUInt16 = some descriptor)
    (hhead : HoldsHead sizes descriptor totalRows m.payload) {rowStart rowCount : Nat}
    (hpos : 0 < rowCount) (hrows : rowStart + rowCount ≤ totalRows) :
    ∃ rows after, m.getBf16Rows decode id rowStart rowCount = .ok (rows, after) := by
  have hbound : descriptor.payload.offset + descriptor.payload.length < 2 ^ 64 :=
    descriptor.payload.range.fits
  have hlength := hhead.length
  have hhidden := toNat_pos_of_ne hhead.hidden
  have hbytes : (rowStart + rowCount) * (sizes.hidden.toNat * 2) ≤ descriptor.payload.length := by
    rw [hlength, Nat.mul_assoc]
    exact Nat.mul_le_mul_right _ hrows
  have hcount : rowStart + rowCount ≤ (rowStart + rowCount) * (sizes.hidden.toNat * 2) :=
    Nat.le_mul_of_pos_right _ (by omega)
  have hwidth := sizes.hidden.toNat_lt
  rw [Nat.add_mul] at hbytes hcount
  have htotal : descriptor.dimensions.getD 0 0 = totalRows := by
    rw [hhead.dimensions]
    rfl
  have hcolumns : descriptor.dimensions.getD 1 0 = sizes.hidden.toNat := by
    rw [hhead.dimensions]
    rfl
  have hinside := hhead.inside
  simp only [Materializer.getBf16Rows, hfound, bind_eq_ok_iff, okOr_eq_ok_iff, rejectIf_eq_ok_iff]
  refine ⟨_, _, descriptor, rfl, (), ?_, (), ?_, (), ?_, (), ?_, (), ?_, (), ?_, (), ?_, (), ?_, (),
    ?_, (), ?_, (), ?_, slice m.payload _ _, range?_of_le ?_ ?_, (), ?_, rfl⟩
  · rw [not_or, not_not, not_not, hhead.dimensions]
    exact ⟨hhead.representation, rfl⟩
  · rw [not_not]
    exact hhead.source
  · rw [htotal, hcolumns]
    omega
  · rw [htotal, hcolumns, not_not]
    exact hlength
  · omega
  · rw [htotal]
    omega
  · rw [hcolumns]
    -- There is a row, so its bytes are at most those of the tensor.
    have hrow := Nat.mul_le_mul_right (sizes.hidden.toNat * 2) (Nat.succ_le_of_lt hpos)
    omega
  · rw [hcolumns]
    omega
  · rw [hcolumns]
    omega
  · rw [hcolumns]
    omega
  · rw [hcolumns]
    omega
  · omega
  · rw [hcolumns]
    omega
  · rw [hcolumns, Nat.add_sub_cancel_left, slice_length_of_le (by omega), ← Nat.mul_assoc,
      Nat.mul_mod_left, not_not]

/-- Rows that were read are a tensor. -/
theorem RowsRead.wellFormed {rowStart rowCount : Nat} {rows : GenericTensor F}
    {after : Materializer F} {width : UInt64}
    (h : RowsRead decode descriptor rowStart rowCount m rows after totalRows width.toNat)
    (hpos : 0 < rowCount) (hwidth : width ≠ 0) :
    rows.dimensions = [UInt64.ofNat rowCount, width] ∧ rows.WellFormed := by
  have hshape : rows.dimensions = [UInt64.ofNat rowCount, width] := by
    rw [h.dims, UInt64.ofNat_toNat]
  have hcount : elementCount rows.dimensions = rowCount * width.toNat := by
    rw [hshape, elementCount, List.map_cons, List.map_cons, List.map_nil, List.prod_cons,
      List.prod_singleton, UInt64.toNat_ofNat_of_lt' h.small]
  refine ⟨hshape, ?_, ?_, ?_⟩
  · rw [hshape]
    intro d hd
    rcases List.mem_pair.1 hd with rfl | rfl
    · intro hzero
      have htoNat := congrArg UInt64.toNat hzero
      rw [UInt64.toNat_ofNat_of_lt' h.small] at htoNat
      exact Nat.ne_of_gt hpos htoNat
    · exact hwidth
  · rw [hcount]
    have hle := Nat.mul_le_mul_right width.toNat
      (Nat.le_trans (Nat.le_add_left rowCount rowStart) h.inside)
    have hfits := h.fits
    omega
  · rw [hcount, h.values, bf16Values_length, slice_length_of_le h.available, ← Nat.mul_assoc,
      Nat.mul_div_cancel _ (by decide)]

end Rows

end VBuf.Runtime
