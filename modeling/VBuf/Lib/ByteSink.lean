import VBuf.Lib.Result
import VBuf.Lib.Slice

/-!
# A seekable byte sink of bounded capacity

`ByteSink` is a byte vector with a cursor.  A write that would pass the capacity
stores what fits and fails, as a full device does; the capacity is below the
range of the cursor type.  Nothing else fails.
-/

namespace VBuf.Lib

/-- Bytes stored so far, the cursor, and how long the sink may become. -/
@[ext] structure ByteSink (bound : Nat) where
  data : List UInt8
  position : Nat
  capacity : Nat
  length_le : data.length ≤ capacity
  capacity_lt : capacity < bound

namespace ByteSink

variable {bound : Nat}

/-- Store `bytes` at the cursor position, zero-filling a gap before it. -/
def put (data : List UInt8) (position : Nat) (bytes : List UInt8) : List UInt8 :=
  if bytes = [] then data
  else patch (data ++ List.replicate (position - data.length) 0) position bytes

theorem put_eq_patch {data bytes : List UInt8} {position : Nat} (h : position ≤ data.length) :
    put data position bytes = patch data position bytes := by
  have hgap : position - data.length = 0 := by omega
  unfold put
  split
  next hnil => rw [hnil, patch_nil]
  next => rw [hgap, List.replicate_zero, List.append_nil]

theorem put_length_le {data bytes : List UInt8} {position capacity : Nat}
    (hdata : data.length ≤ capacity) (hbytes : bytes.length ≤ capacity - position) :
    (put data position bytes).length ≤ capacity := by
  unfold put
  split
  next => exact hdata
  next hne =>
      have hpos : 0 < bytes.length := List.length_pos_iff.2 hne
      have hfill : (data ++ List.replicate (position - data.length) 0).length =
          max data.length position := by
        simp only [List.length_append, List.length_replicate]
        omega
      rw [patch_length_eq_max (by rw [hfill]; exact Nat.le_max_right _ _), hfill]
      omega

/-- How many of `length` bytes the sink still takes at its cursor. -/
def fits (s : ByteSink bound) (length : Nat) : Nat := min length (s.capacity - s.position)

/-- The sink after taking as many of `bytes` as it can. -/
def store (s : ByteSink bound) (bytes : List UInt8) : ByteSink bound where
  data := put s.data s.position (bytes.take (s.fits bytes.length))
  position := s.position + s.fits bytes.length
  capacity := s.capacity
  length_le := put_length_le s.length_le (by
    rw [List.length_take]
    exact Nat.le_trans (Nat.min_le_left _ _) (Nat.min_le_right _ _))
  capacity_lt := s.capacity_lt

/-- `write_all`: a full sink keeps the bytes that fit and reports the failure. -/
def writeAll (bytes : List UInt8) : EStateM Unit (ByteSink bound) Unit := fun s =>
  if s.fits bytes.length = bytes.length then .ok () (s.store bytes)
  else .error () (s.store bytes)

/-- `stream_position`. -/
def streamPosition (s : ByteSink bound) : Nat := s.position

/-- `seek(SeekFrom::Start(position))`. -/
def seekStart (position : Nat) (s : ByteSink bound) : ByteSink bound := { s with position }

/-- `seek(SeekFrom::End(0))`. -/
def seekEnd (s : ByteSink bound) : ByteSink bound := { s with position := s.data.length }

/-- The cursor stands after the last byte. -/
def AtEnd (s : ByteSink bound) : Prop := s.position = s.data.length

/-- `s'` is `s` with `bytes` appended and the cursor after them. -/
structure Appends (s : ByteSink bound) (bytes : List UInt8) (s' : ByteSink bound) : Prop where
  data_eq : s'.data = s.data ++ bytes
  atEnd : s'.AtEnd
  capacity_eq : s'.capacity = s.capacity

theorem Appends.unique {s s₁ s₂ : ByteSink bound} {bytes : List UInt8} (h₁ : s.Appends bytes s₁)
    (h₂ : s.Appends bytes s₂) : s₁ = s₂ := by
  have hdata : s₁.data = s₂.data := h₁.data_eq.trans h₂.data_eq.symm
  refine ByteSink.ext hdata ?_ (h₁.capacity_eq.trans h₂.capacity_eq.symm)
  rw [h₁.atEnd, h₂.atEnd, hdata]

theorem Appends.refl {s : ByteSink bound} (h : s.AtEnd) : s.Appends [] s :=
  ⟨(List.append_nil _).symm, h, rfl⟩

theorem Appends.trans {s s₁ s₂ : ByteSink bound} {a b : List UInt8} (h₁ : s.Appends a s₁)
    (h₂ : s₁.Appends b s₂) : s.Appends (a ++ b) s₂ := by
  refine ⟨?_, h₂.atEnd, h₂.capacity_eq.trans h₁.capacity_eq⟩
  rw [h₂.data_eq, h₁.data_eq, List.append_assoc]

/-- Appending fits the capacity. -/
theorem Appends.length_le {s s' : ByteSink bound} {bytes : List UInt8} (h : s.Appends bytes s') :
    s.data.length + bytes.length ≤ s.capacity := by
  have hle := s'.length_le
  rwa [h.data_eq, h.capacity_eq, List.length_append] at hle

/-- A sink with room for more bytes takes them. -/
theorem exists_appends {s : ByteSink bound} {bytes : List UInt8}
    (hroom : s.data.length + bytes.length ≤ s.capacity) : ∃ s', s.Appends bytes s' := by
  refine ⟨{ data := s.data ++ bytes
            position := (s.data ++ bytes).length
            capacity := s.capacity
            length_le := by simpa using hroom
            capacity_lt := s.capacity_lt }, rfl, rfl, rfl⟩

/-- A sink that took two pieces took them one after the other. -/
theorem Appends.split {s u : ByteSink bound} {a b : List UInt8} (h : s.Appends (a ++ b) u) :
    ∃ t, s.Appends a t ∧ t.Appends b u := by
  have hroom := h.length_le
  rw [List.length_append] at hroom
  obtain ⟨t, hfirst⟩ := @exists_appends _ s a (by omega)
  obtain ⟨v, hsecond⟩ := @exists_appends _ t b (by
    rw [hfirst.data_eq, hfirst.capacity_eq, List.length_append]
    omega)
  rw [(hfirst.trans hsecond).unique h] at hsecond
  exact ⟨t, hfirst, hsecond⟩

/-- At the end of the data the stored bytes are appended. -/
theorem store_appends {s : ByteSink bound} (h : s.AtEnd) (bytes : List UInt8) :
    s.Appends (bytes.take (s.fits bytes.length)) (s.store bytes) := by
  have hpos : s.position = s.data.length := h
  have hdata : (s.store bytes).data = s.data ++ bytes.take (s.fits bytes.length) := by
    show put _ _ _ = _
    rw [put_eq_patch (by omega), hpos, patch_at_end]
  refine ⟨hdata, ?_, rfl⟩
  show s.position + s.fits bytes.length = (s.store bytes).data.length
  rw [hdata, List.length_append, List.length_take, hpos]
  unfold fits
  omega

/-- A write succeeds exactly when it appends all its bytes. -/
theorem writeAll_eq_ok_iff {s s' : ByteSink bound} (h : s.AtEnd) {bytes : List UInt8} :
    writeAll bytes s = .ok () s' ↔ s.Appends bytes s' := by
  have happends := store_appends h bytes
  have hpos : s.position = s.data.length := h
  unfold writeAll
  by_cases hfits : s.fits bytes.length = bytes.length
  · rw [if_pos hfits]
    rw [hfits, List.take_length] at happends
    constructor
    · intro heq
      cases heq
      exact happends
    · intro happends'
      rw [happends.unique happends']
  · rw [if_neg hfits]
    constructor
    · intro heq
      cases heq
    · intro happends'
      have hle := happends'.length_le
      refine absurd ?_ hfits
      unfold fits
      omega

/-- A failed write appends a proper initial part of its bytes, up to the
capacity. -/
theorem writeAll_eq_error {s s' : ByteSink bound} {u : Unit} (h : s.AtEnd) {bytes : List UInt8}
    (hwrite : writeAll bytes s = .error u s') :
    s.Appends (bytes.take (s.capacity - s.data.length)) s' ∧
      s.capacity < s.data.length + bytes.length := by
  have happends := store_appends h bytes
  have hpos : s.position = s.data.length := h
  unfold writeAll at hwrite
  by_cases hfits : s.fits bytes.length = bytes.length
  · rw [if_pos hfits] at hwrite
    cases hwrite
  · rw [if_neg hfits] at hwrite
    cases hwrite
    unfold fits at hfits happends
    have hle := s.length_le
    have hmin : min bytes.length (s.capacity - s.position) = s.capacity - s.data.length := by
      omega
    rw [hmin] at happends
    exact ⟨happends, by omega⟩

/-- Writing in two parts is writing the whole. -/
theorem writeAll_append {s : ByteSink bound} (h : s.AtEnd) (a b : List UInt8) :
    (writeAll a >>= fun _ => writeAll b) s = writeAll (a ++ b) s := by
  cases hwhole : writeAll (a ++ b) s with
  | ok u s' =>
      obtain ⟨t, hfirst, hsecond⟩ := ((writeAll_eq_ok_iff h).1 hwhole).split
      rw [run_bind_eq_ok_iff]
      exact ⟨(), t, (writeAll_eq_ok_iff h).2 hfirst, (writeAll_eq_ok_iff hfirst.atEnd).2 hsecond⟩
  | error u s' =>
      obtain ⟨happends, hfull⟩ := writeAll_eq_error h hwhole
      rw [List.length_append] at hfull
      rw [run_bind_eq_error_iff]
      cases hfirst : writeAll a s with
      | error u' t =>
          left
          obtain ⟨hpart, hfull'⟩ := writeAll_eq_error h hfirst
          rw [List.take_append_of_le_length (by omega)] at happends
          rw [hpart.unique happends]
      | ok u' t =>
          right
          have hpart := (writeAll_eq_ok_iff h).1 hfirst
          have hle := hpart.length_le
          refine ⟨(), t, rfl, ?_⟩
          cases hsecond : writeAll b t with
          | ok u'' t' =>
              have hrest := ((writeAll_eq_ok_iff hpart.atEnd).1 hsecond).length_le
              rw [hpart.data_eq, hpart.capacity_eq, List.length_append] at hrest
              omega
          | error u'' t' =>
              obtain ⟨hrest, -⟩ := writeAll_eq_error hpart.atEnd hsecond
              have hdrop : s.capacity - s.data.length - a.length =
                  t.capacity - t.data.length := by
                rw [hpart.data_eq, hpart.capacity_eq, List.length_append]
                omega
              rw [List.take_append, List.take_of_length_le (by omega), hdrop] at happends
              rw [(hpart.trans hrest).unique happends]

/-- A write inside the stored bytes overwrites them in place. -/
theorem writeAll_overwrite {s : ByteSink bound} {bytes : List UInt8}
    (h : s.position + bytes.length ≤ s.data.length) :
    writeAll bytes s = .ok () (s.store bytes) ∧
      (s.store bytes).data = patch s.data s.position bytes := by
  have hle := s.length_le
  have hfits : s.fits bytes.length = bytes.length := by
    unfold fits
    omega
  constructor
  · unfold writeAll
    rw [if_pos hfits]
  · show put _ _ _ = _
    rw [hfits, List.take_length, put_eq_patch (by omega)]

end ByteSink

end VBuf.Lib
