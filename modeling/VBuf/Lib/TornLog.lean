import VBuf.Lib.Reader

/-!
# Logs with a torn tail

A log is a row of pieces, the last of which may be cut off.  A scan reads pieces from
the front; where one is torn it drops what is left.  `Refuses` says that a reader stops
at every cut of a piece; its rules follow the shape of the reader, as those of `Reads`.
-/

namespace VBuf.Lib

variable {ε α β : Type}

namespace Reader

variable {limit : Nat} {reader : Reader ε α} {piece rest : List UInt8} {value : α}

/-- Why a scan of a log ends. -/
inductive Stop (ε : Type)
  | finished
  | torn
  | failed (error : ε)
  deriving DecidableEq, Repr

/-- Fails when fewer than `count` bytes are left behind the cursor. -/
def remaining (count : Nat) (error : ε) : Reader ε Unit := fun bytes cursor =>
  if bytes.length - cursor < count then .error error else .ok ((), cursor)

/-- `reader.seek(SeekFrom::Current(count))`. -/
def seek (count : Nat) : Reader ε Unit := fun _ cursor => .ok ((), cursor + count)

/-- Pieces from the cursor on, gathered by `step`, and the file that is left: the scan ends
where the file does, cuts off a torn piece, and fails on an error. -/
def scan {σ : Type} (reader : Reader (Stop ε) α) (step : σ → α → σ) (bytes : List UInt8) :
    Nat → Nat → σ → Except ε (σ × List UInt8)
  | 0, _, state => .ok (state, bytes)
  | fuel + 1, cursor, state => match reader bytes cursor with
    | .error .finished => .ok (state, bytes)
    | .error .torn => .ok (state, bytes.take cursor)
    | .error (.failed error) => .error error
    | .ok (value, moved) => scan reader step bytes fuel moved (step state value)

/-- At any cut of the piece the reader stops with `error`. -/
def Refuses (limit : Nat) (reader : Reader ε α) (piece : List UInt8) (error : ε) : Prop :=
  ∀ before k, k < piece.length → (before ++ piece.take k).length < limit →
    reader (before ++ piece.take k) before.length = .error error

theorem bind_of_error {reader : Reader ε α} {next : α → Reader ε β} {bytes : List UInt8}
    {cursor : Nat} {error : ε} (h : reader bytes cursor = .error error) :
    (reader >>= next) bytes cursor = .error error := by
  show andThen reader next bytes cursor = _
  rw [andThen, h]

variable {error : ε}

theorem refuses_nil : Refuses limit reader [] error := by
  intro _ k hk
  exact absurd hk (Nat.not_lt_zero k)

theorem refuses_takeBytes {count : Nat} (hcount : piece.length = count) :
    Refuses limit (takeBytes count error) piece error := by
  intro before k hk _
  have hshort : (before ++ piece.take k).length < before.length + count := by
    rw [List.length_append, List.length_take]
    omega
  rw [takeBytes, if_pos hshort]

/-- A cut falls into the first piece, or behind it and into the second. -/
theorem Refuses.bind {next : α → Reader ε β} (hfirst : Refuses limit reader piece error)
    (hreader : Reads limit reader piece value) (hnext : Refuses limit (next value) rest error) :
    Refuses limit (reader >>= next) (piece ++ rest) error := by
  intro before k hk hlimit
  rcases Nat.lt_or_ge k piece.length with hinside | hbehind
  · have htake : (piece ++ rest).take k = piece.take k :=
      List.take_append_of_le_length (Nat.le_of_lt hinside)
    rw [htake] at hlimit ⊢
    exact bind_of_error (hfirst before k hinside hlimit)
  · have htake : before ++ (piece ++ rest).take k =
        before ++ piece ++ rest.take (k - piece.length) := by
      rw [List.take_append, List.take_of_length_le hbehind, List.append_assoc]
    have hrest : k - piece.length < rest.length := by
      rw [List.length_append] at hk
      omega
    rw [htake] at hlimit ⊢
    rw [bind_of_ok (hreader before _ hlimit)]
    exact hnext (before ++ piece) _ hrest hlimit

/-- A passed check leaves what follows it. -/
theorem Refuses.check_bind {bad : Prop} [Decidable bad] {failure : ε} {next : Unit → Reader ε β}
    (hgood : ¬ bad) (hnext : Refuses limit (next ()) rest error) :
    Refuses limit (check bad failure >>= next) rest error :=
  refuses_nil.bind (reads_check hgood) hnext

theorem Refuses.require_bind {source : Option α} {failure : ε} {next : α → Reader ε β}
    (hsource : source = some value) (hnext : Refuses limit (next value) rest error) :
    Refuses limit (require source failure >>= next) rest error :=
  refuses_nil.bind (reads_require hsource) hnext

theorem Refuses.map {next : α → β} (h : Refuses limit reader piece error)
    (hreader : Reads limit reader piece value) :
    Refuses limit (reader >>= fun a => pure (next a)) piece error := by
  have hbind : Refuses limit (reader >>= fun a => pure (next a)) (piece ++ []) error :=
    h.bind hreader refuses_nil
  rwa [List.append_nil] at hbind

theorem Reads.remaining_bind {count : Nat} {next : Unit → Reader ε β} {result : β}
    (hcount : count ≤ rest.length) (hnext : Reads limit (next ()) rest result) :
    Reads limit (remaining count error >>= next) rest result := by
  intro before after hlimit
  have henough : ¬ (before ++ rest ++ after).length - before.length < count := by
    simp only [List.length_append]
    omega
  have hcheck : remaining count error (before ++ rest ++ after) before.length =
      .ok ((), before.length) := by rw [remaining, if_neg henough]
  rw [bind_of_ok hcheck]
  exact hnext before after hlimit

/-- Where too little is left, the check refuses; where enough is, what follows does. -/
theorem Refuses.remaining_bind {count : Nat} {next : Unit → Reader ε β}
    (hnext : Refuses limit (next ()) rest error) :
    Refuses limit (remaining count error >>= next) rest error := by
  intro before k hk hlimit
  by_cases hshort : (before ++ rest.take k).length - before.length < count
  · have hcheck : remaining count error (before ++ rest.take k) before.length = .error error := by
      rw [remaining, if_pos hshort]
    exact bind_of_error hcheck
  · have hcheck : remaining count error (before ++ rest.take k) before.length =
        .ok ((), before.length) := by rw [remaining, if_neg hshort]
    rw [bind_of_ok hcheck]
    exact hnext before k hk hlimit

theorem reads_seek {count : Nat} (hcount : piece.length = count) :
    Reads limit (seek count : Reader ε Unit) piece () := by
  intro before after _
  rw [seek, List.length_append, hcount]

/-- Before a piece of that length the check finds every cut. -/
theorem refuses_remaining {count : Nat} {next : Unit → Reader ε β} (hcount : piece.length = count) :
    Refuses limit (remaining count error >>= next) piece error := by
  intro before k hk _
  have hshort : (before ++ piece.take k).length - before.length < count := by
    rw [List.length_append, List.length_take]
    omega
  have hcheck : remaining count error (before ++ piece.take k) before.length = .error error := by
    rw [remaining, if_pos hshort]
  exact bind_of_error hcheck

/-- Values whose pieces are read back one by one are read back in a row. -/
theorem reads_many {write : α → List UInt8} {values : List α}
    (hread : ∀ a ∈ values, Reads limit reader (write a) a) :
    Reads limit (many reader values.length) (values.flatMap write) values := by
  induction values with
  | nil => exact reads_pure []
  | cons a rest ih =>
      rw [List.forall_mem_cons] at hread
      rw [List.flatMap_cons]
      exact hread.1.bind (ih hread.2).map

theorem refuses_many {write : α → List UInt8} {values : List α}
    (hread : ∀ a ∈ values, Reads limit reader (write a) a)
    (hrefuse : ∀ a ∈ values, Refuses limit reader (write a) error) :
    Refuses limit (many reader values.length) (values.flatMap write) error := by
  induction values with
  | nil => exact refuses_nil
  | cons a rest ih =>
      rw [List.forall_mem_cons] at hread hrefuse
      rw [List.flatMap_cons]
      exact hrefuse.1.bind hread.1 ((ih hread.2 hrefuse.2).map (reads_many hread.2))

/-- Where the reader goes on, it has moved forward inside the file. -/
def Inside (reader : Reader ε α) : Prop :=
  ∀ bytes cursor value moved, cursor ≤ bytes.length → reader bytes cursor = .ok (value, moved) →
    cursor ≤ moved ∧ moved ≤ bytes.length

theorem inside_pure (value : α) : Inside (pure value : Reader ε α) := by
  intro bytes cursor a moved hcursor h
  obtain ⟨-, rfl⟩ := pure_eq_ok h
  exact ⟨Nat.le_refl _, hcursor⟩

theorem inside_check {bad : Prop} [Decidable bad] : Inside (check bad error) := by
  intro bytes cursor a moved hcursor h
  obtain ⟨-, rfl⟩ := check_eq_ok h
  exact ⟨Nat.le_refl _, hcursor⟩

theorem inside_require {source : Option α} : Inside (require source error) := by
  intro bytes cursor a moved hcursor h
  obtain ⟨-, rfl⟩ := require_eq_ok h
  exact ⟨Nat.le_refl _, hcursor⟩

theorem inside_takeBytes {count : Nat} : Inside (takeBytes count error) := by
  intro bytes cursor a moved _ h
  obtain ⟨hinside, -, rfl⟩ := takeBytes_eq_ok h
  exact ⟨Nat.le_add_right _ _, hinside⟩

theorem Inside.bind {next : α → Reader ε β} (hreader : Inside reader)
    (hnext : ∀ a, Inside (next a)) : Inside (reader >>= next) := by
  intro bytes cursor b moved hcursor h
  obtain ⟨a, middle, hfirst, hsecond⟩ := bind_eq_ok h
  obtain ⟨hle, hmiddle⟩ := hreader bytes cursor a middle hcursor hfirst
  obtain ⟨hle', hmoved⟩ := hnext a bytes middle b moved hmiddle hsecond
  exact ⟨hle.trans hle', hmoved⟩

theorem Inside.many (hreader : Inside reader) (count : Nat) : Inside (many reader count) := by
  induction count with
  | zero => exact inside_pure []
  | succ count ih => exact hreader.bind fun a => ih.bind fun rest => inside_pure (a :: rest)

/-- Behind the check a reader may skip as many bytes. -/
theorem inside_remaining {count : Nat} {next : Unit → Reader ε β}
    (hnext : ∀ bytes cursor value moved, cursor + count ≤ bytes.length →
      next () bytes cursor = .ok (value, moved) → cursor ≤ moved ∧ moved ≤ bytes.length) :
    Inside (remaining count error >>= next) := by
  intro bytes cursor b moved hcursor h
  by_cases hshort : bytes.length - cursor < count
  · have hcheck : remaining count error bytes cursor = .error error := by
      rw [remaining, if_pos hshort]
    rw [bind_of_error hcheck] at h
    cases h
  · have hcheck : remaining count error bytes cursor = .ok ((), cursor) := by
      rw [remaining, if_neg hshort]
    rw [bind_of_ok hcheck] at h
    exact hnext bytes cursor b moved (by omega) h

section Scan

variable {σ : Type} {step : σ → α → σ} {log : Reader (Stop ε) α} {ι : Type}
  {write : ι → List UInt8} {meaning : ι → α} {items : List ι} {tail : List UInt8} {fuel : Nat}

/-- A scan goes through whole pieces, one iteration for each. -/
theorem scan_items (hread : ∀ item ∈ items, Reads limit log (write item) (meaning item))
    (before : List UInt8) (state : σ)
    (hlimit : (before ++ items.flatMap write ++ tail).length < limit) :
    scan log step (before ++ items.flatMap write ++ tail) (items.length + fuel) before.length
        state =
      scan log step (before ++ items.flatMap write ++ tail) fuel
        (before ++ items.flatMap write).length ((items.map meaning).foldl step state) := by
  induction items generalizing before state with
  | nil => simp
  | cons item rest ih =>
      rw [List.forall_mem_cons] at hread
      have hbytes : before ++ (item :: rest).flatMap write ++ tail =
          before ++ write item ++ (rest.flatMap write ++ tail) := by
        simp only [List.flatMap_cons, List.append_assoc]
      have hbytes' : before ++ (item :: rest).flatMap write ++ tail =
          before ++ write item ++ rest.flatMap write ++ tail := by
        simp only [List.flatMap_cons, List.append_assoc]
      have hfuel : (item :: rest).length + fuel = (rest.length + fuel) + 1 := by
        rw [List.length_cons]
        omega
      have hhead := hread.1 before (rest.flatMap write ++ tail) (hbytes ▸ hlimit)
      have htail := ih hread.2 (before ++ write item) (step state (meaning item))
        (hbytes' ▸ hlimit)
      rw [hfuel, scan, hbytes, hhead]
      show scan log step _ (rest.length + fuel) (before ++ write item).length _ = _
      rw [← hbytes, hbytes', htail, List.flatMap_cons, ← List.append_assoc, List.map_cons,
        List.foldl_cons]

/-- Behind the last whole piece a finished scan keeps what is left. -/
theorem scan_finished (hread : ∀ item ∈ items, Reads limit log (write item) (meaning item))
    (hlimit : (items.flatMap write ++ tail).length < limit) (hfuel : items.length < fuel)
    (hstop : log (items.flatMap write ++ tail) (items.flatMap write).length = .error .finished)
    (state : σ) :
    scan log step (items.flatMap write ++ tail) fuel 0 state =
      .ok ((items.map meaning).foldl step state, items.flatMap write ++ tail) := by
  obtain ⟨more, rfl⟩ := Nat.exists_eq_add_of_lt hfuel
  have hwhole : scan log step (items.flatMap write ++ tail) (items.length + (more + 1)) 0
        state =
      scan log step (items.flatMap write ++ tail) (more + 1) (items.flatMap write).length
        ((items.map meaning).foldl step state) := scan_items hread [] state hlimit
  rw [Nat.add_assoc, hwhole, scan, hstop]

/-- A torn piece behind the last whole one is cut off. -/
theorem scan_torn (hread : ∀ item ∈ items, Reads limit log (write item) (meaning item))
    (hlimit : (items.flatMap write ++ tail).length < limit) (hfuel : items.length < fuel)
    (hstop : log (items.flatMap write ++ tail) (items.flatMap write).length = .error .torn)
    (state : σ) :
    scan log step (items.flatMap write ++ tail) fuel 0 state =
      .ok ((items.map meaning).foldl step state, items.flatMap write) := by
  obtain ⟨more, rfl⟩ := Nat.exists_eq_add_of_lt hfuel
  have hwhole : scan log step (items.flatMap write ++ tail) (items.length + (more + 1)) 0
        state =
      scan log step (items.flatMap write ++ tail) (more + 1) (items.flatMap write).length
        ((items.map meaning).foldl step state) := scan_items hread [] state hlimit
  rw [Nat.add_assoc, hwhole, scan, hstop]
  show Except.ok (_, (items.flatMap write ++ tail).take (items.flatMap write).length) = _
  rw [List.take_left]

/-- More iterations than bytes are never used up, on any file, when a piece is not empty. -/
theorem scan_of_fuel (hmoves : ∀ bytes cursor value moved, log bytes cursor = .ok (value, moved) →
    cursor < moved ∧ moved ≤ bytes.length) {bytes : List UInt8} {cursor fuel' : Nat} (state : σ)
    (hfuel : bytes.length - cursor < fuel) (hfuel' : bytes.length - cursor < fuel') :
    scan log step bytes fuel cursor state = scan log step bytes fuel' cursor state := by
  induction fuel generalizing cursor fuel' state with
  | zero => exact absurd hfuel (Nat.not_lt_zero _)
  | succ fuel ih =>
      obtain ⟨fuel', rfl⟩ := Nat.exists_eq_succ_of_ne_zero (Nat.ne_zero_of_lt hfuel')
      rw [scan, scan]
      cases hvalue : log bytes cursor with
      | error stop => cases stop <;> rfl
      | ok found =>
          obtain ⟨value, moved⟩ := found
          have hmoved := hmoves bytes cursor value moved hvalue
          exact ih (step state value) (by omega) (by omega)

end Scan

end Reader

end VBuf.Lib
