import VBuf.Lib.LittleEndian
import VBuf.Lib.Result
import VBuf.Lib.Slice

/-!
# Readers with a cursor

A reader consumes a piece of a byte string at a cursor and moves past it.
`Reads` relates it to the pieces it turns into a value, wherever they stand in an
input below the limit; the rules follow the shape of the reader.
-/

namespace VBuf.Lib

variable {ε α β : Type}

/-- `bytes.iter().any(|byte| *byte != 0)`. -/
def anyNonzero (bytes : List UInt8) : Bool := bytes.any (fun byte => byte != 0)

/-- Reserved bytes that were written as zero are zero. -/
theorem anyNonzero_zero {bytes : List UInt8} {offset width : Nat}
    (h : Holds bytes offset (leBytes width 0)) : anyNonzero (slice bytes offset width) = false := by
  rw [slice_of_holds h (leBytes_length _ _), leBytes_zero_value]
  simp [anyNonzero]

/-- Reserved bytes without a nonzero one are those of zero. -/
theorem holds_zero_of_anyNonzero {bytes : List UInt8} {offset width : Nat}
    (hinside : offset + width ≤ bytes.length) (h : anyNonzero (slice bytes offset width) = false) :
    Holds bytes offset (leBytes width 0) := by
  have hlength : (slice bytes offset width).length = width := slice_length_of_le hinside
  rw [Holds, leBytes_length, leBytes_zero_value, List.eq_replicate_iff]
  refine ⟨hlength, ?_⟩
  intro byte hmem
  have hzero := List.any_eq_false.1 h byte hmem
  simpa using hzero

/-- A function of `bytes` and `&mut cursor` that may fail. -/
def Reader (ε α : Type) : Type := List UInt8 → Nat → Except ε (α × Nat)

namespace Reader

/-- One reader after another. -/
def andThen (reader : Reader ε α) (next : α → Reader ε β) : Reader ε β := fun bytes cursor =>
  match reader bytes cursor with
  | .ok (a, moved) => next a bytes moved
  | .error error => .error error

instance : Monad (Reader ε) where
  pure a := fun _ cursor => .ok (a, cursor)
  bind := andThen

theorem bind_of_ok {reader : Reader ε α} {next : α → Reader ε β} {bytes : List UInt8}
    {cursor moved : Nat} {a : α} (h : reader bytes cursor = .ok (a, moved)) :
    (reader >>= next) bytes cursor = next a bytes moved := by
  show andThen reader next bytes cursor = _
  rw [andThen, h]

/-- `if bad { return Err(error) }`. -/
def check (bad : Prop) [Decidable bad] (error : ε) : Reader ε Unit :=
  fun _ cursor => if bad then .error error else .ok ((), cursor)

/-- `option.ok_or(error)?`. -/
def require (value : Option α) (error : ε) : Reader ε α :=
  fun _ cursor => match value with
    | some a => .ok (a, cursor)
    | none => .error error

/-- A step of its own that reads nothing. -/
def lift (result : Except ε α) : Reader ε α := fun _ cursor => match result with
  | .ok a => .ok (a, cursor)
  | .error error => .error error

/-- `bytes.get(cursor..cursor + count).ok_or(error)?`, with the cursor moved behind. -/
def takeBytes (count : Nat) (error : ε) : Reader ε (List UInt8) := fun bytes cursor =>
  if bytes.length < cursor + count then .error error
  else .ok (slice bytes cursor count, cursor + count)

/-- `for _ in 0..count { values.push(reader()?) }`. -/
def many (reader : Reader ε α) : Nat → Reader ε (List α)
  | 0 => pure []
  | count + 1 => do
      let value ← reader
      let values ← many reader count
      pure (value :: values)

/-- The reader turns `piece` into `value`, between any two other pieces. -/
def Reads (limit : Nat) (reader : Reader ε α) (piece : List UInt8) (value : α) : Prop :=
  ∀ before after, (before ++ piece ++ after).length < limit →
    reader (before ++ piece ++ after) before.length = .ok (value, (before ++ piece).length)

variable {limit : Nat} {reader : Reader ε α} {piece rest : List UInt8} {value : α}

theorem reads_pure (value : α) : Reads limit (pure value : Reader ε α) [] value := by
  intro before after _
  show Except.ok (value, before.length) = _
  rw [List.append_nil]

/-- A reader and its continuation read two adjacent pieces. -/
theorem Reads.bind {next : α → Reader ε β} {result : β} (hreader : Reads limit reader piece value)
    (hnext : Reads limit (next value) rest result) :
    Reads limit (reader >>= next) (piece ++ rest) result := by
  intro before after hlimit
  have hleft : before ++ (piece ++ rest) ++ after = before ++ piece ++ (rest ++ after) := by
    simp only [List.append_assoc]
  have hright : before ++ (piece ++ rest) ++ after = before ++ piece ++ rest ++ after := by
    simp only [List.append_assoc]
  -- The second piece stands behind the first, and the first before the second.
  have hfirst := hreader before (rest ++ after) (hleft ▸ hlimit)
  have hsecond := hnext (before ++ piece) after (hright ▸ hlimit)
  rw [← hleft] at hfirst
  rw [bind_of_ok hfirst, hright, hsecond, List.append_assoc]

/-- The last step of a reader keeps its piece. -/
theorem Reads.map {next : α → β} (hreader : Reads limit reader piece value) :
    Reads limit (reader >>= fun a => pure (next a)) piece (next value) := by
  have hbind : Reads limit (reader >>= fun a => pure (next a)) (piece ++ []) (next value) :=
    hreader.bind (reads_pure (next value))
  rwa [List.append_nil] at hbind

/-- A check that passes reads nothing. -/
theorem reads_check {bad : Prop} [Decidable bad] {error : ε} (hgood : ¬ bad) :
    Reads limit (check bad error) [] () := by
  intro before after _
  show (if bad then _ else _) = _
  rw [if_neg hgood, List.append_nil]

/-- A passed check leaves what follows it. -/
theorem Reads.check_bind {bad : Prop} [Decidable bad] {error : ε} {next : Unit → Reader ε β}
    {result : β} (hgood : ¬ bad) (hnext : Reads limit (next ()) rest result) :
    Reads limit (check bad error >>= next) rest result :=
  (reads_check hgood).bind hnext

theorem reads_require {source : Option α} {error : ε} (hsource : source = some value) :
    Reads limit (require source error) [] value := by
  intro before after _
  subst hsource
  show Except.ok (value, before.length) = _
  rw [List.append_nil]

/-- The value of an option is required before what follows. -/
theorem Reads.require_bind {source : Option α} {error : ε} {next : α → Reader ε β} {result : β}
    (hsource : source = some value) (hnext : Reads limit (next value) rest result) :
    Reads limit (require source error >>= next) rest result :=
  (reads_require hsource).bind hnext

theorem reads_lift {result : Except ε α} (hresult : result = .ok value) :
    Reads limit (lift result) [] value := by
  intro before after _
  subst hresult
  show Except.ok (value, before.length) = _
  rw [List.append_nil]

theorem Reads.lift_bind {result : Except ε α} {next : α → Reader ε β} {output : β}
    (hresult : result = .ok value) (hnext : Reads limit (next value) rest output) :
    Reads limit (lift result >>= next) rest output :=
  (reads_lift hresult).bind hnext

/-- A piece is taken whole. -/
theorem reads_takeBytes {count : Nat} {error : ε} (hcount : piece.length = count) :
    Reads limit (takeBytes count error) piece piece := by
  intro before after _
  subst hcount
  have hlong : ¬ (before ++ piece ++ after).length < before.length + piece.length := by
    simp only [List.length_append]
    omega
  rw [takeBytes, if_neg hlong, slice_append_middle, List.length_append]

/-! ### What a reader that succeeded has done -/

theorem bind_eq_ok {next : α → Reader ε β} {bytes : List UInt8} {cursor moved : Nat} {b : β}
    (h : (reader >>= next) bytes cursor = .ok (b, moved)) :
    ∃ a middle, reader bytes cursor = .ok (a, middle) ∧ next a bytes middle = .ok (b, moved) := by
  have hbind : andThen reader next bytes cursor = .ok (b, moved) := h
  unfold andThen at hbind
  cases hreader : reader bytes cursor with
  | error error =>
      rw [hreader] at hbind
      cases hbind
  | ok read =>
      rw [hreader] at hbind
      exact ⟨read.1, read.2, rfl, hbind⟩

theorem pure_eq_ok {bytes : List UInt8} {cursor moved : Nat} {a b : α}
    (h : (pure a : Reader ε α) bytes cursor = .ok (b, moved)) : a = b ∧ cursor = moved := by
  have hpure : (Except.ok (a, cursor) : Except ε (α × Nat)) = .ok (b, moved) := h
  exact Prod.mk.inj (Except.ok.inj hpure)

theorem lift_eq_ok {result : Except ε α} {bytes : List UInt8} {cursor moved : Nat} {a : α}
    (h : lift result bytes cursor = .ok (a, moved)) : result = .ok a ∧ cursor = moved := by
  cases result with
  | error error => cases h
  | ok b =>
      cases h
      exact ⟨rfl, rfl⟩

theorem check_eq_ok {bad : Prop} [Decidable bad] {error : ε} {bytes : List UInt8}
    {cursor moved : Nat} {a : Unit} (h : check bad error bytes cursor = .ok (a, moved)) :
    ¬ bad ∧ cursor = moved := by
  unfold check at h
  split at h
  next => cases h
  next hgood => exact ⟨hgood, (Prod.mk.inj (Except.ok.inj h)).2⟩

theorem require_eq_ok {source : Option α} {error : ε} {bytes : List UInt8} {cursor moved : Nat}
    {a : α} (h : require source error bytes cursor = .ok (a, moved)) :
    source = some a ∧ cursor = moved := by
  cases source with
  | none => cases h
  | some b =>
      cases h
      exact ⟨rfl, rfl⟩

theorem takeBytes_eq_ok {count : Nat} {error : ε} {bytes piece : List UInt8} {cursor moved : Nat}
    (h : takeBytes count error bytes cursor = .ok (piece, moved)) :
    cursor + count ≤ bytes.length ∧ piece = slice bytes cursor count ∧ moved = cursor + count := by
  unfold takeBytes at h
  split at h
  next => cases h
  next hlong =>
    cases h
    exact ⟨not_lt.1 hlong, rfl, rfl⟩

/-- What every value of a reader has, every value of its loop has. -/
theorem forall_of_many {P : α → Prop}
    (hvalue : ∀ bytes cursor a moved, reader bytes cursor = .ok (a, moved) → P a)
    {count : Nat} {bytes : List UInt8} {cursor moved : Nat} {values : List α}
    (h : many reader count bytes cursor = .ok (values, moved)) :
    values.length = count ∧ ∀ value ∈ values, P value := by
  induction count generalizing cursor moved values with
  | zero =>
      obtain ⟨rfl, -⟩ := pure_eq_ok h
      exact ⟨rfl, fun _ hmem => absurd hmem List.not_mem_nil⟩
  | succ count ih =>
      unfold many at h
      obtain ⟨first, _, hfirst, h⟩ := bind_eq_ok h
      obtain ⟨rest, _, hrest, h⟩ := bind_eq_ok h
      obtain ⟨rfl, -⟩ := pure_eq_ok h
      obtain ⟨hlength, hall⟩ := ih hrest
      refine ⟨by rw [List.length_cons, hlength], ?_⟩
      rw [List.forall_mem_cons]
      exact ⟨hvalue _ _ _ _ hfirst, hall⟩

/-- A whole input is read from its start to its end. -/
theorem Reads.run (h : Reads limit reader piece value) (hlimit : piece.length < limit) :
    reader piece 0 = .ok (value, piece.length) := by
  have hrun := h [] [] (by simpa using hlimit)
  simpa using hrun

/-- The pieces of a list of writers, one after another. -/
def concat : List (Except ε (List UInt8)) → Except ε (List UInt8)
  | [] => .ok []
  | piece :: rest => do
      let bytes ← piece
      let tail ← concat rest
      pure (bytes ++ tail)

@[simp] theorem concat_nil_eq_ok_iff {bytes : List UInt8} :
    concat ([] : List (Except ε (List UInt8))) = .ok bytes ↔ bytes = [] := by
  rw [concat, Except.ok.injEq, eq_comm]

@[simp] theorem concat_cons_eq_ok_iff {write : Except ε (List UInt8)}
    {writes : List (Except ε (List UInt8))} {bytes : List UInt8} :
    concat (write :: writes) = .ok bytes ↔
      ∃ piece, write = .ok piece ∧ ∃ tail, concat writes = .ok tail ∧ bytes = piece ++ tail := by
  simp only [concat, bind_eq_ok_iff, pure_eq_ok_iff, @eq_comm _ bytes]

/-- Where each item written can be read back, the loop reads the list back. -/
theorem reads_concat {ι ε' : Type} {write : ι → Except ε' (List UInt8)} {Matches : ι → α → Prop}
    (hitem : ∀ item piece, write item = .ok piece →
      ∃ value, Reads limit reader piece value ∧ Matches item value)
    {items : List ι} {bytes : List UInt8} (h : concat (items.map write) = .ok bytes) :
    ∃ values, Reads limit (many reader items.length) bytes values ∧
      List.Forall₂ Matches items values := by
  induction items generalizing bytes with
  | nil =>
      rw [concat_nil_eq_ok_iff.1 h]
      exact ⟨[], reads_pure [], .nil⟩
  | cons item rest ih =>
      rw [List.map_cons, concat_cons_eq_ok_iff] at h
      obtain ⟨piece, hpiece, tail, htail, rfl⟩ := h
      obtain ⟨value, hvalue, hmatch⟩ := hitem item piece hpiece
      obtain ⟨values, hvalues, hmatches⟩ := ih htail
      exact ⟨value :: values, hvalue.bind hvalues.map, .cons hmatch hmatches⟩

/-- Where each item written is read back as itself, so is the list. -/
theorem reads_concat_self {write : α → Except ε (List UInt8)} {items : List α}
    {bytes : List UInt8} (h : concat (items.map write) = .ok bytes)
    (hitem : ∀ item ∈ items, ∀ piece, write item = .ok piece → Reads limit reader piece item) :
    Reads limit (many reader items.length) bytes items := by
  induction items generalizing bytes with
  | nil => exact concat_nil_eq_ok_iff.1 h ▸ reads_pure []
  | cons item rest ih =>
      rw [List.map_cons, concat_cons_eq_ok_iff] at h
      obtain ⟨piece, hpiece, tail, htail, rfl⟩ := h
      rw [List.forall_mem_cons] at hitem
      exact (hitem.1 piece hpiece).bind (ih htail hitem.2).map

end Reader

end VBuf.Lib
