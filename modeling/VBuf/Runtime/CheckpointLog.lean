import VBuf.Lib.AssocTotal
import VBuf.Lib.TornLog
import VBuf.Lib.Utf8
import VBuf.Runtime.Generic

/-!
# The checkpoint log

A run appends its tensors to a file, one record each, and a resumed run reads back
those it needs.  A crash cuts the file anywhere behind what was flushed.  The reader
cuts a torn record off, except when fewer than four bytes of it are there: these stay
in front of the records that the resumed run appends.
-/

namespace VBuf.Runtime

open VBuf.Lib VBuf.Lib.Reader

namespace Checkpoint

/-- A tensor with the bits of its values. -/
abbrev Tensor := GenericTensor UInt32

/-- `write_record`. -/
def writeRecord (name : String) (tensor : Tensor) : List UInt8 :=
  leBytes 4 (utf8 name).length ++ (utf8 name ++ (leBytes 4 tensor.dimensions.length ++
    (tensor.dimensions.flatMap (fun dimension => leBytes 8 dimension.toNat) ++
      (leBytes 8 tensor.values.length ++
        tensor.values.flatMap fun value => leBytes 4 value.toNat))))

def startsWith (name pattern : String) : Bool := (utf8 pattern).isPrefixOf (utf8 name)

def endsWith (name pattern : String) : Bool := (utf8 pattern).isSuffixOf (utf8 name)

/-- The records that a resumed run needs. -/
def needed (name : String) : Bool :=
  name == "prefill.input_token_ids" || name == "prefill.input_embedding" ||
    name == "prefill.final_norm" || name == "prefill.logits" ||
    (startsWith name "layer" &&
      (endsWith name ".output" || endsWith name ".kv_key" || endsWith name ".kv_value")) ||
    (startsWith name "generation.step" &&
      (endsWith name ".input_token_id" || endsWith name ".input_embedding" ||
        endsWith name ".output" || endsWith name ".kv_key" || endsWith name ".kv_value" ||
        endsWith name ".logits"))

/-- `chunks_exact(4)` with `f32::from_le_bytes`. -/
def words : List UInt8 → List UInt32
  | a :: b :: c :: d :: rest => UInt32.ofNat (ofLeBytes [a, b, c, d]) :: words rest
  | _ => []

/-- `u64::from_le_bytes` of the next eight bytes. -/
def readDimension : Reader (Stop String) UInt64 :=
  takeBytes 8 .torn >>= fun bytes => pure (UInt64.ofNat (ofLeBytes bytes))

/-- The values of a record that is needed; others are skipped. -/
def readValues (name : String) (dimensions : List UInt64) (count : Nat) :
    Reader (Stop String) (Option (String × Tensor)) :=
  remaining (count * 4) .torn >>= fun _ =>
    if needed name then
      takeBytes (count * 4) .torn >>= fun bytes => pure (some (name, ⟨dimensions, words bytes⟩))
    else
      check (2 ^ 63 ≤ count * 4) (.failed "checkpoint tensor offset exceeds host limits") >>=
        fun _ => seek (count * 4) >>= fun _ => pure none

def readCounted (name : String) (dimensions : List UInt64) :
    Reader (Stop String) (Option (String × Tensor)) :=
  takeBytes 8 .torn >>= fun bytes =>
    check (2 ^ 64 ≤ ofLeBytes bytes * 4) (.failed "checkpoint tensor byte count overflows") >>=
      fun _ => readValues name dimensions (ofLeBytes bytes)

def readRanked (name : String) (rank : Nat) : Reader (Stop String) (Option (String × Tensor)) :=
  check (64 < rank) .torn >>= fun _ => remaining (rank * 8) .torn >>= fun _ =>
    many readDimension rank >>= readCounted name

def readNamed (nameLength : Nat) : Reader (Stop String) (Option (String × Tensor)) :=
  remaining nameLength .torn >>= fun _ => takeBytes nameLength .torn >>= fun nameBytes =>
    require (fromUtf8 nameBytes) .torn >>= fun name =>
      takeBytes 4 .torn >>= fun bytes => readRanked name (ofLeBytes bytes)

/-- One iteration of `read_checkpoint_records`.  An end of the file within the first four
bytes only ends the loop; every later one cuts the record off. -/
def readRecord : Reader (Stop String) (Option (String × Tensor)) :=
  takeBytes 4 .finished >>= fun bytes => readNamed (ofLeBytes bytes)

abbrev Records := AssocMap String Tensor

/-- `records.insert(name, tensor)` for a needed record. -/
def insertRecord (records : Records) : Option (String × Tensor) → Records
  | some (name, tensor) => records.insert name tensor
  | none => records

/-- `read_checkpoint_records`: the records and the file it leaves. -/
def readCheckpointRecords (file : List UInt8) : Except String (Records × List UInt8) :=
  scan readRecord insertRecord file (file.length + 1) 0 ∅

/-! ### Records -/

/-- A record whose lengths fit their fields and the reader's limits. -/
structure Record where
  name : String
  tensor : Tensor
  name_fits : (utf8 name).length < 256 ^ 4
  rank_fits : tensor.dimensions.length ≤ 64
  values_fit : tensor.values.length * 4 < 2 ^ 63

namespace Record

def bytes (record : Record) : List UInt8 := writeRecord record.name record.tensor

/-- What the reader makes of the record. -/
def meaning (record : Record) : Option (String × Tensor) :=
  if needed record.name then some (record.name, record.tensor) else none

end Record

theorem words_append (value : UInt32) (rest : List UInt8) :
    words (leBytes 4 value.toNat ++ rest) = value :: words rest := by
  have hvalue : ofLeBytes (leBytes 4 value.toNat) = value.toNat :=
    ofLeBytes_leBytes_of_lt value.toNat_lt
  have hword : words (leBytes 4 value.toNat ++ rest) =
      UInt32.ofNat (ofLeBytes (leBytes 4 value.toNat)) :: words rest := rfl
  rw [hword, hvalue, UInt32.ofNat_toNat]

theorem words_values (values : List UInt32) :
    words (values.flatMap fun value => leBytes 4 value.toNat) = values := by
  induction values with
  | nil => rfl
  | cons value rest ih => rw [List.flatMap_cons, words_append, ih]

theorem values_length (values : List UInt32) :
    (values.flatMap fun value => leBytes 4 value.toNat).length = values.length * 4 := by
  induction values with
  | nil => rfl
  | cons value rest ih =>
      rw [List.flatMap_cons, List.length_append, leBytes_length, ih, List.length_cons]
      omega

theorem dimensions_length (dimensions : List UInt64) :
    (dimensions.flatMap fun dimension => leBytes 8 dimension.toNat).length =
      dimensions.length * 8 := by
  induction dimensions with
  | nil => rfl
  | cons dimension rest ih =>
      rw [List.flatMap_cons, List.length_append, leBytes_length, ih, List.length_cons]
      omega

section Pieces

variable {limit : Nat}

theorem reads_dimension (dimension : UInt64) :
    Reads limit readDimension (leBytes 8 dimension.toNat) dimension := by
  have hread : Reads limit readDimension (leBytes 8 dimension.toNat)
      (UInt64.ofNat (ofLeBytes (leBytes 8 dimension.toNat))) :=
    (reads_takeBytes (leBytes_length 8 _)).map
  rwa [ofLeBytes_leBytes_of_lt dimension.toNat_lt, UInt64.ofNat_toNat] at hread

theorem refuses_dimension (dimension : UInt64) :
    Refuses limit readDimension (leBytes 8 dimension.toNat) .torn :=
  (refuses_takeBytes (leBytes_length 8 _)).map (reads_takeBytes (leBytes_length 8 _))

variable (record : Record)

theorem reads_values :
    Reads limit (readValues record.name record.tensor.dimensions record.tensor.values.length)
      (record.tensor.values.flatMap fun value => leBytes 4 value.toNat) record.meaning := by
  have hlength := values_length record.tensor.values
  refine Reads.remaining_bind (Nat.le_of_eq hlength.symm) ?_
  unfold Record.meaning
  by_cases hneeded : needed record.name
  · rw [if_pos hneeded, if_pos hneeded]
    have hread : Reads limit (takeBytes (record.tensor.values.length * 4) (.torn : Stop String) >>=
        fun bytes => pure (some (record.name, (⟨record.tensor.dimensions, words bytes⟩ : Tensor))))
        (record.tensor.values.flatMap fun value => leBytes 4 value.toNat) _ :=
      (reads_takeBytes hlength).map
    rwa [words_values] at hread
  · rw [if_neg hneeded, if_neg hneeded]
    exact Reads.check_bind (Nat.not_le.2 record.values_fit) (reads_seek hlength).map

theorem refuses_values :
    Refuses limit (readValues record.name record.tensor.dimensions record.tensor.values.length)
      (record.tensor.values.flatMap fun value => leBytes 4 value.toNat) .torn :=
  refuses_remaining (values_length record.tensor.values)

/-- The count as the reader sees it. -/
theorem count_eq : ofLeBytes (leBytes 8 record.tensor.values.length) =
    record.tensor.values.length := by
  refine ofLeBytes_leBytes_of_lt ?_
  have hfits := record.values_fit
  omega

theorem count_fits : ¬ 2 ^ 64 ≤ record.tensor.values.length * 4 := by
  have hfits := record.values_fit
  omega

theorem reads_counted :
    Reads limit (readCounted record.name record.tensor.dimensions)
      (leBytes 8 record.tensor.values.length ++
        record.tensor.values.flatMap fun value => leBytes 4 value.toNat) record.meaning := by
  refine (reads_takeBytes (leBytes_length 8 _)).bind ?_
  rw [count_eq]
  exact Reads.check_bind (count_fits record) (reads_values record)

theorem refuses_counted :
    Refuses limit (readCounted record.name record.tensor.dimensions)
      (leBytes 8 record.tensor.values.length ++
        record.tensor.values.flatMap fun value => leBytes 4 value.toNat) .torn := by
  refine (refuses_takeBytes (leBytes_length 8 _)).bind (reads_takeBytes (leBytes_length 8 _)) ?_
  rw [count_eq]
  exact Refuses.check_bind (count_fits record) (refuses_values record)

theorem reads_ranked :
    Reads limit (readRanked record.name record.tensor.dimensions.length)
      (record.tensor.dimensions.flatMap (fun dimension => leBytes 8 dimension.toNat) ++
        (leBytes 8 record.tensor.values.length ++
          record.tensor.values.flatMap fun value => leBytes 4 value.toNat)) record.meaning := by
  refine Reads.check_bind (Nat.not_lt.2 record.rank_fits) (Reads.remaining_bind ?_ ?_)
  · rw [List.length_append, dimensions_length]
    exact Nat.le_add_right _ _
  · exact (reads_many fun dimension _ => reads_dimension dimension).bind (reads_counted record)

theorem refuses_ranked :
    Refuses limit (readRanked record.name record.tensor.dimensions.length)
      (record.tensor.dimensions.flatMap (fun dimension => leBytes 8 dimension.toNat) ++
        (leBytes 8 record.tensor.values.length ++
          record.tensor.values.flatMap fun value => leBytes 4 value.toNat)) .torn := by
  refine Refuses.check_bind (Nat.not_lt.2 record.rank_fits) (Refuses.remaining_bind ?_)
  exact (refuses_many (fun dimension _ => reads_dimension dimension)
    fun dimension _ => refuses_dimension dimension).bind
      (reads_many fun dimension _ => reads_dimension dimension) (refuses_counted record)

/-- The rank as the reader sees it. -/
theorem rank_eq : ofLeBytes (leBytes 4 record.tensor.dimensions.length) =
    record.tensor.dimensions.length := by
  refine ofLeBytes_leBytes_of_lt ?_
  have hfits := record.rank_fits
  omega

/-- The record behind the length of its name. -/
def Record.body : List UInt8 :=
  utf8 record.name ++ (leBytes 4 record.tensor.dimensions.length ++
    (record.tensor.dimensions.flatMap (fun dimension => leBytes 8 dimension.toNat) ++
      (leBytes 8 record.tensor.values.length ++
        record.tensor.values.flatMap fun value => leBytes 4 value.toNat)))

theorem Record.bytes_eq : record.bytes = leBytes 4 (utf8 record.name).length ++ record.body := rfl

theorem reads_named :
    Reads limit (readNamed (utf8 record.name).length) record.body record.meaning := by
  refine Reads.remaining_bind ?_ ((reads_takeBytes rfl).bind ?_)
  · rw [Record.body, List.length_append]
    exact Nat.le_add_right _ _
  · refine Reads.require_bind (fromUtf8_utf8 record.name) ?_
    refine (reads_takeBytes (leBytes_length 4 _)).bind ?_
    rw [rank_eq]
    exact reads_ranked record

theorem refuses_named :
    Refuses limit (readNamed (utf8 record.name).length) record.body .torn := by
  refine Refuses.remaining_bind ((refuses_takeBytes rfl).bind (reads_takeBytes rfl) ?_)
  refine Refuses.require_bind (fromUtf8_utf8 record.name) ?_
  refine (refuses_takeBytes (leBytes_length 4 _)).bind (reads_takeBytes (leBytes_length 4 _)) ?_
  rw [rank_eq]
  exact refuses_ranked record

/-- The record is read back. -/
theorem Record.reads : Reads limit readRecord record.bytes record.meaning := by
  refine (reads_takeBytes (leBytes_length 4 _)).bind ?_
  rw [ofLeBytes_leBytes_of_lt record.name_fits]
  exact reads_named record

end Pieces

/-- Why the reader stops at a record of which `k` bytes are there. -/
def stopAt (k : Nat) : Stop String := if k < 4 then .finished else .torn

/-- A cut record is refused. -/
theorem Record.refuses (record : Record) (before : List UInt8) {k : Nat}
    (hk : k < record.bytes.length) :
    readRecord (before ++ record.bytes.take k) before.length = .error (stopAt k) := by
  have hlength : (leBytes 4 (utf8 record.name).length).length = 4 := leBytes_length 4 _
  rw [Record.bytes_eq] at hk ⊢
  unfold stopAt
  by_cases hshort : k < 4
  · rw [if_pos hshort, List.take_append_of_le_length (by omega)]
    refine bind_of_error ?_
    exact refuses_takeBytes hlength before k (by omega) (Nat.lt_succ_self _)
  · have htake : before ++ (leBytes 4 (utf8 record.name).length ++ record.body).take k =
        before ++ leBytes 4 (utf8 record.name).length ++ record.body.take (k - 4) := by
      rw [List.take_append, List.take_of_length_le (by omega), List.append_assoc, hlength]
    have hread : takeBytes 4 (.finished : Stop String)
        (before ++ leBytes 4 (utf8 record.name).length ++ record.body.take (k - 4))
        before.length = .ok (leBytes 4 (utf8 record.name).length, _) :=
      reads_takeBytes hlength before (record.body.take (k - 4)) (Nat.lt_succ_self _)
    have hrest : k - 4 < record.body.length := by
      rw [List.length_append, hlength] at hk
      omega
    rw [if_neg hshort, htake, readRecord, bind_of_ok hread,
      ofLeBytes_leBytes_of_lt record.name_fits]
    exact refuses_named record _ (k - 4) hrest (Nat.lt_succ_self _)

/-! ### Whole logs -/

/-- The file with these records. -/
def log (records : List Record) : List UInt8 := records.flatMap Record.bytes

/-- What the reader gathers from these records. -/
def latest (records : List Record) : Records :=
  (records.map Record.meaning).foldl insertRecord ∅

theorem Record.bytes_length_ge (record : Record) : 16 ≤ record.bytes.length := by
  have h4 := leBytes_length 4 (utf8 record.name).length
  have h4' := leBytes_length 4 record.tensor.dimensions.length
  have h8 := leBytes_length 8 record.tensor.values.length
  rw [Record.bytes_eq, Record.body]
  simp only [List.length_append]
  omega

theorem length_le_log (records : List Record) : records.length ≤ (log records).length := by
  induction records with
  | nil => exact Nat.le_refl _
  | cons record rest ih =>
      have hbytes := record.bytes_length_ge
      have hlog : log (record :: rest) = record.bytes ++ log rest := List.flatMap_cons
      rw [hlog, List.length_append, List.length_cons]
      omega

/-- A log that ends in a cut record gives the records in front of it. -/
theorem readCheckpointRecords_cut (records : List Record) (record : Record) {k : Nat}
    (hk : k < record.bytes.length) :
    readCheckpointRecords (log records ++ record.bytes.take k) = .ok (latest records,
      if k < 4 then log records ++ record.bytes.take k else log records) := by
  have hread : ∀ item ∈ records, Reads ((log records ++ record.bytes.take k).length + 1) readRecord
      item.bytes item.meaning := fun item _ => item.reads
  have hfuel : records.length < (log records ++ record.bytes.take k).length + 1 := by
    have hlength := length_le_log records
    rw [List.length_append]
    omega
  have hstop := record.refuses (log records) hk
  unfold stopAt at hstop
  by_cases hshort : k < 4
  · rw [if_pos hshort] at hstop ⊢
    exact scan_finished hread (Nat.lt_succ_self _) hfuel hstop ∅
  · rw [if_neg hshort] at hstop ⊢
    exact scan_torn hread (Nat.lt_succ_self _) hfuel hstop ∅

/-- A whole log is read back as it is. -/
theorem latest_append (records : List Record) (record : Record) :
    latest (records ++ [record]) = insertRecord (latest records) record.meaning := by
  rw [latest, List.map_append, List.foldl_append]
  rfl

/-- A needed name has the tensor of its last record, another one none. -/
theorem lookup_latest (records : List Record) (name : String) :
    (latest records).lookup name = if needed name then
      (records.reverse.find? fun record => record.name = name).map Record.tensor else none := by
  induction records using List.reverseRecOn with
  | nil => simp [latest, AList.lookup_empty]
  | append_singleton records record ih =>
      rw [latest_append, List.reverse_append, List.reverse_singleton, List.singleton_append]
      unfold Record.meaning
      by_cases hname : record.name = name
      · subst hname
        rw [List.find?_cons_of_pos (by simp)]
        by_cases hneeded : needed record.name
        · rw [if_pos hneeded, if_pos hneeded]
          exact AList.lookup_insert _
        · rw [if_neg hneeded, if_neg hneeded]
          rwa [if_neg hneeded] at ih
      · rw [List.find?_cons_of_neg (by simpa using hname), ← ih]
        by_cases hneeded : needed record.name
        · rw [if_pos hneeded]
          exact AList.lookup_insert_ne (Ne.symm hname)
        · rw [if_neg hneeded]
          rfl

theorem inside_values (name : String) (dimensions : List UInt64) (count : Nat) :
    Inside (readValues name dimensions count) := by
  refine inside_remaining ?_
  intro bytes cursor value moved hinside h
  by_cases hneeded : needed name
  · rw [if_pos hneeded] at h
    exact (inside_takeBytes.bind fun _ => inside_pure _) bytes cursor value moved (by omega) h
  · rw [if_neg hneeded] at h
    obtain ⟨_, middle, hcheck, hseek⟩ := bind_eq_ok h
    obtain ⟨-, rfl⟩ := check_eq_ok hcheck
    -- The check in front of the skip has found these bytes in the file.
    have hmoved : moved = cursor + count * 4 := (Prod.mk.inj (Except.ok.inj hseek)).2.symm
    exact ⟨by omega, by omega⟩

theorem inside_ranked (name : String) (rank : Nat) : Inside (readRanked name rank) := by
  refine inside_check.bind fun _ => inside_remaining ?_
  intro bytes cursor value moved hinside
  refine Inside.bind ?_ (fun dimensions => ?_) bytes cursor value moved (by omega)
  · exact (inside_takeBytes.bind fun _ => inside_pure _).many rank
  · exact inside_takeBytes.bind fun _ => inside_check.bind fun _ => inside_values _ _ _

theorem inside_named (nameLength : Nat) : Inside (readNamed nameLength) := by
  refine inside_remaining ?_
  intro bytes cursor value moved hinside
  refine Inside.bind inside_takeBytes (fun nameBytes => ?_) bytes cursor value moved (by omega)
  exact inside_require.bind fun name => inside_takeBytes.bind fun _ => inside_ranked _ _

/-- Every iteration that goes on has moved inside the file. -/
theorem readRecord_moves (bytes : List UInt8) (cursor : Nat) (value : Option (String × Tensor))
    (moved : Nat) (h : readRecord bytes cursor = .ok (value, moved)) :
    cursor < moved ∧ moved ≤ bytes.length := by
  obtain ⟨_, middle, hlength, hnamed⟩ := bind_eq_ok h
  obtain ⟨hinside, -, rfl⟩ := takeBytes_eq_ok hlength
  have hmoved := inside_named _ bytes _ value moved hinside hnamed
  omega

/-- The loop ends on any file, and its result does not depend on the number of iterations. -/
theorem readCheckpointRecords_fuel (file : List UInt8) {fuel : Nat} (hfuel : file.length < fuel) :
    scan readRecord insertRecord file fuel 0 ∅ = readCheckpointRecords file :=
  scan_of_fuel readRecord_moves ∅ hfuel (Nat.lt_succ_self _)

/-- At any cut the needed records in front of it are read, and the file is cut off behind
them exactly when no byte of the torn record is there, or four are; fewer bytes stay. -/
theorem readCheckpointRecords_recovers (records : List Record) (record : Record) (k : Nat)
    (hk : k < record.bytes.length) :
    ∃ found file, readCheckpointRecords (log records ++ record.bytes.take k) = .ok (found, file) ∧
      (∀ name, found.lookup name = if needed name then
        (records.reverse.find? fun record => record.name = name).map Record.tensor else none) ∧
      log records <+: file ∧ (file = log records ↔ k = 0 ∨ 4 ≤ k) ∧
      (k < 4 → file = log records ++ record.bytes.take k) := by
  refine ⟨_, _, readCheckpointRecords_cut records record hk, lookup_latest records, ?_, ?_,
    fun hshort => if_pos hshort⟩
  · split
    · exact List.prefix_append _ _
    · exact List.prefix_refl _
  · by_cases hshort : k < 4
    · rw [if_pos hshort, List.append_right_eq_self, List.take_eq_nil_iff]
      have hbytes := record.bytes_length_ge
      have hne : record.bytes ≠ [] := List.ne_nil_of_length_pos (by omega)
      constructor
      · rintro (hzero | hnil)
        · exact Or.inl hzero
        · exact absurd hnil hne
      · rintro (hzero | hfour)
        · exact Or.inl hzero
        · omega
    · rw [if_neg hshort]
      exact ⟨fun _ => Or.inr (Nat.not_lt.1 hshort), fun _ => rfl⟩

def logits : Record := ⟨"prefill.logits", ⟨[2], [1065353216, 0]⟩, by decide, by decide, by decide⟩

/-- Of two records the second is torn behind the length of its name, or inside it. -/
theorem readCheckpointRecords_recovers_torn :
    (∃ found, readCheckpointRecords (log [logits] ++ logits.bytes.take 5) =
        .ok (found, log [logits]) ∧ found.lookup "prefill.logits" = some logits.tensor) ∧
      ∃ found, readCheckpointRecords (log [logits] ++ logits.bytes.take 2) =
        .ok (found, log [logits] ++ logits.bytes.take 2) ∧
        found.lookup "prefill.logits" = some logits.tensor := by
  have hlong : ∀ k < 8, k < logits.bytes.length := fun k hk =>
    Nat.lt_of_lt_of_le hk (Nat.le_trans (by decide) logits.bytes_length_ge)
  have hneeded : (if needed "prefill.logits" then
      ([logits].reverse.find? fun record => record.name = "prefill.logits").map Record.tensor
    else none) = some logits.tensor := by
    decide +kernel
  obtain ⟨cut, _, hcut, hnames, -, hfile, -⟩ :=
    readCheckpointRecords_recovers [logits] logits 5 (hlong 5 (by decide))
  obtain ⟨kept, _, hkept, hnames', -, -, hstays⟩ :=
    readCheckpointRecords_recovers [logits] logits 2 (hlong 2 (by decide))
  rw [hfile.2 (Or.inr (by decide))] at hcut
  rw [hstays (by decide)] at hkept
  exact ⟨⟨cut, hcut, (hnames _).trans hneeded⟩, kept, hkept, (hnames' _).trans hneeded⟩

/-- Bytes whose first four are no length that fits are cut off, with all that follows. -/
theorem readCheckpointRecords_misread (records : List Record) (tail : List UInt8)
    (hlength : 4 ≤ tail.length) (hmisread : tail.length - 4 < ofLeBytes (tail.take 4)) :
    readCheckpointRecords (log records ++ tail) = .ok (latest records, log records) := by
  have hread : ∀ item ∈ records, Reads ((log records ++ tail).length + 1) readRecord item.bytes
      item.meaning := fun item _ => item.reads
  have hfuel : records.length < (log records ++ tail).length + 1 := by
    have hle := length_le_log records
    rw [List.length_append]
    omega
  refine scan_torn hread (Nat.lt_succ_self _) hfuel ?_ ∅
  have htake : (tail.take 4).length = 4 := by
    rw [List.length_take]
    omega
  have hsplit : log records ++ tail = log records ++ tail.take 4 ++ tail.drop 4 := by
    rw [List.append_assoc, List.take_append_drop]
  have hfirst : takeBytes 4 (.finished : Stop String) (log records ++ tail.take 4 ++ tail.drop 4)
      (log records).length = .ok (tail.take 4, _) :=
    reads_takeBytes htake (log records) (tail.drop 4) (Nat.lt_succ_self _)
  have hshort : (log records ++ tail.take 4 ++ tail.drop 4).length -
      (log records ++ tail.take 4).length < ofLeBytes (tail.take 4) := by
    rw [List.length_append, List.length_drop]
    omega
  show readRecord (log records ++ tail) (log records).length = _
  rw [hsplit, readRecord, bind_of_ok hfirst, readNamed]
  refine bind_of_error ?_
  rw [remaining, if_pos hshort]

/-! ### Runs -/

/-- What a run does to its log: it writes a record, it flushes, or it dies with some bytes
behind the last flush on the disk and another run resumes. -/
inductive Action
  | write (record : Record)
  | flush
  | crash (persisted : Nat)

/-- The file up to the last flush, what was written since, and what the run has read. -/
structure Session where
  file : List UInt8
  buffered : List UInt8
  resumed : Records

namespace Session

def fresh : Session := ⟨[], [], ∅⟩

/-- `write_record`, `durable_flush`, and `read_checkpoint_records` with `append(true)`. -/
def step (session : Session) : Action → Except String Session
  | .write record => .ok { session with buffered := session.buffered ++ record.bytes }
  | .flush => .ok { session with file := session.file ++ session.buffered, buffered := [] }
  | .crash persisted => do
      let (resumed, file) ←
        readCheckpointRecords (session.file ++ session.buffered.take persisted)
      pure ⟨file, [], resumed⟩

theorem step_crash {session : Session} {persisted : Nat} {resumed : Records} {file : List UInt8}
    (h : readCheckpointRecords (session.file ++ session.buffered.take persisted) =
      .ok (resumed, file)) : session.step (.crash persisted) = .ok ⟨file, [], resumed⟩ := by
  rw [step, h]
  rfl

def run (session : Session) : List Action → Except String Session
  | [] => .ok session
  | action :: rest => do
      let session ← session.step action
      session.run rest

end Session

/-- The records of which all bytes are among the first `k`. -/
def whole : Nat → List Record → List Record
  | _, [] => []
  | k, record :: rest =>
      if record.bytes.length ≤ k then record :: whole (k - record.bytes.length) rest else []

/-- How many of the first `k` bytes belong to a record that is cut. -/
def torn : Nat → List Record → Nat
  | _, [] => 0
  | k, record :: rest =>
      if record.bytes.length ≤ k then torn (k - record.bytes.length) rest else k

/-- What a log is for: the records on the disk, the ones written since, and the ones that
the run has found there. -/
structure Log where
  durable : List Record
  pending : List Record
  resumed : List Record

namespace Log

def fresh : Log := ⟨[], [], []⟩

def step (log : Log) : Action → Log
  | .write record => { log with pending := log.pending ++ [record] }
  | .flush => { log with durable := log.durable ++ log.pending, pending := [] }
  | .crash persisted =>
      ⟨log.durable ++ whole persisted log.pending, [],
        log.durable ++ whole persisted log.pending⟩

def run (log : Log) (actions : List Action) : Log := actions.foldl step log

/-- Every record of the run, written or found. -/
def all (log : Log) : List Record := log.durable ++ log.pending

/-- The action leaves no record of which only one, two or three bytes are there. -/
def Clean (log : Log) : Action → Prop
  | .write _ => True
  | .flush => True
  | .crash persisted => torn persisted log.pending = 0 ∨ 4 ≤ torn persisted log.pending

/-- So does every action of the run. -/
def CleanRun (log : Log) : List Action → Prop
  | [] => True
  | action :: rest => log.Clean action ∧ (log.step action).CleanRun rest

end Log

/-- The records that a run writes. -/
def written : List Action → List Record
  | [] => []
  | .write record :: rest => record :: written rest
  | .flush :: rest => written rest
  | .crash _ :: rest => written rest

theorem written_append (a b : List Action) : written (a ++ b) = written a ++ written b := by
  induction a with
  | nil => rfl
  | cons action rest ih =>
      cases action with
      | write record => simp [written, ih]
      | flush => exact ih
      | crash persisted => exact ih

/-- The first bytes of a log are whole records and a cut one. -/
theorem take_log (records : List Record) (k : Nat) :
    ∃ record : Record, torn k records < record.bytes.length ∧
      (log records).take k = log (whole k records) ++ record.bytes.take (torn k records) := by
  induction records generalizing k with
  | nil =>
      have hrank : ([] : List UInt64).length ≤ 64 := Nat.zero_le _
      refine ⟨⟨"", ⟨[], []⟩, by decide, hrank, by decide⟩, ?_, ?_⟩
      · rw [torn]
        exact Nat.lt_of_lt_of_le (by decide) (Record.bytes_length_ge _)
      · rw [torn, List.take_zero]
        simp [log, whole]
  | cons first rest ih =>
      have hlog : log (first :: rest) = first.bytes ++ log rest := List.flatMap_cons
      rw [hlog, whole, torn]
      by_cases hwhole : first.bytes.length ≤ k
      · obtain ⟨record, hlength, htake⟩ := ih (k - first.bytes.length)
        rw [if_pos hwhole, if_pos hwhole]
        refine ⟨record, hlength, ?_⟩
        have hcons : log (first :: whole (k - first.bytes.length) rest) =
            first.bytes ++ log (whole (k - first.bytes.length) rest) := List.flatMap_cons
        rw [List.take_append, List.take_of_length_le hwhole, htake, hcons, List.append_assoc]
      · rw [if_neg hwhole, if_neg hwhole]
        refine ⟨first, by omega, ?_⟩
        rw [List.take_append_of_le_length (by omega)]
        rfl

/-- The session has the bytes of the log. -/
structure Represents (session : Session) (log : Log) : Prop where
  file : session.file = Checkpoint.log log.durable
  buffered : session.buffered = Checkpoint.log log.pending
  resumed : session.resumed = latest log.resumed

theorem log_append (a b : List Record) : log (a ++ b) = log a ++ log b := List.flatMap_append

/-- One clean step of the code does what the step of the log does. -/
theorem Represents.step {session : Session} {log : Log} (h : Represents session log)
    {action : Action} (hclean : log.Clean action) :
    ∃ session', session.step action = .ok session' ∧ Represents session' (log.step action) := by
  cases action with
  | write record =>
      refine ⟨_, rfl, h.file, ?_, h.resumed⟩
      show session.buffered ++ record.bytes = Checkpoint.log (log.pending ++ [record])
      rw [log_append, h.buffered]
      simp [Checkpoint.log]
  | flush =>
      refine ⟨_, rfl, ?_, rfl, h.resumed⟩
      show session.file ++ session.buffered = Checkpoint.log (log.durable ++ log.pending)
      rw [log_append, h.file, h.buffered]
  | crash persisted =>
      obtain ⟨record, hlength, htake⟩ := take_log log.pending persisted
      have hfile : session.file ++ session.buffered.take persisted =
          Checkpoint.log (log.durable ++ whole persisted log.pending) ++
            record.bytes.take (torn persisted log.pending) := by
        rw [h.file, h.buffered, htake, log_append, List.append_assoc]
      have hread := readCheckpointRecords_cut (log.durable ++ whole persisted log.pending) record
        hlength
      -- Nothing is left of the torn record, or the reader cuts it off.
      have hkept : (if torn persisted log.pending < 4 then
          Checkpoint.log (log.durable ++ whole persisted log.pending) ++
            record.bytes.take (torn persisted log.pending)
          else Checkpoint.log (log.durable ++ whole persisted log.pending)) =
            Checkpoint.log (log.durable ++ whole persisted log.pending) := by
        rcases hclean with hzero | hmany
        · rw [hzero, if_pos (by decide), List.take_zero, List.append_nil]
        · rw [if_neg (Nat.not_lt.2 hmany)]
      rw [hkept] at hread
      exact ⟨_, Session.step_crash (hfile ▸ hread), rfl, rfl, rfl⟩

/-- So does a whole run. -/
theorem Represents.run {session : Session} {log : Log} (h : Represents session log)
    {actions : List Action} (hclean : log.CleanRun actions) :
    ∃ session', session.run actions = .ok session' ∧ Represents session' (log.run actions) := by
  induction actions generalizing session log with
  | nil => exact ⟨session, rfl, h⟩
  | cons action rest ih =>
      obtain ⟨middle, hstep, hmiddle⟩ := h.step hclean.1
      obtain ⟨last, hrun, hlast⟩ := ih hmiddle hclean.2
      refine ⟨last, ?_, hlast⟩
      rw [Session.run, hstep]
      exact hrun

theorem represents_fresh : Represents .fresh .fresh := ⟨rfl, rfl, rfl⟩

theorem whole_initial (k : Nat) (records : List Record) : whole k records <+: records := by
  induction records generalizing k with
  | nil => exact List.prefix_refl _
  | cons record rest ih =>
      rw [whole]
      split
      · exact (List.prefix_cons_inj record).2 (ih _)
      · exact List.nil_prefix

namespace Log

variable {log : Log}

theorem durable_step (action : Action) : log.durable <+: (log.step action).durable := by
  cases action with
  | write record => exact List.prefix_refl _
  | flush => exact List.prefix_append _ _
  | crash persisted => exact List.prefix_append _ _

/-- What is on the disk stays there. -/
theorem durable_run (actions : List Action) : log.durable <+: (log.run actions).durable := by
  induction actions generalizing log with
  | nil => exact List.prefix_refl _
  | cons action rest ih => exact (durable_step action).trans ih

theorem run_append (before after : List Action) :
    log.run (before ++ after) = (log.run before).run after := List.foldl_append

/-- No record comes from nowhere, and their order is kept. -/
theorem all_run (actions : List Action) :
    (log.run actions).all.Sublist (log.all ++ written actions) := by
  induction actions generalizing log with
  | nil => simp [run, written]
  | cons action rest ih =>
      refine ih.trans ?_
      cases action with
      | write record =>
          have hall : (log.step (.write record)).all = log.all ++ [record] := by
            simp [all, step]
          rw [hall, written, List.append_assoc, List.singleton_append]
      | flush =>
          have hall : (log.step .flush).all = log.all := by simp [all, step]
          rw [hall, written]
      | crash persisted =>
          have hall : (log.step (.crash persisted)).all =
              log.durable ++ whole persisted log.pending := List.append_nil _
          rw [hall, written]
          exact ((whole_initial persisted log.pending).sublist.append_left log.durable).append_right
            (written rest)

end Log

/-- A run that leaves no one, two or three bytes of a record reads back, after a crash at
any byte, the records of a log that begins with all the run had at its last flush and
holds nothing that was not written. -/
theorem run_recovers (before after : List Action) (persisted : Nat)
    (hclean : Log.fresh.CleanRun (before ++ .flush :: (after ++ [.crash persisted]))) :
    ∃ session kept,
      Session.fresh.run (before ++ .flush :: (after ++ [.crash persisted])) = .ok session ∧
      session.file = log kept ∧
      (∀ name, session.resumed.lookup name = if needed name then
        (kept.reverse.find? fun record => record.name = name).map Record.tensor else none) ∧
      (Log.fresh.run before).all <+: kept ∧ kept.Sublist (written (before ++ after)) := by
  obtain ⟨session, hrun, hsession⟩ := represents_fresh.run hclean
  refine ⟨session, _, hrun, hsession.file, ?_, ?_, ?_⟩
  · intro name
    have hlast : (Log.fresh.run (before ++ .flush :: (after ++ [.crash persisted]))).resumed =
        (Log.fresh.run (before ++ .flush :: (after ++ [.crash persisted]))).durable := by
      have hactions : before ++ .flush :: (after ++ [.crash persisted]) =
          (before ++ .flush :: after) ++ [.crash persisted] := by simp
      rw [hactions, Log.run_append]
      rfl
    rw [hsession.resumed, hlast]
    exact lookup_latest _ name
  · have hflush : (Log.fresh.run before).all = ((Log.fresh.run before).step .flush).durable := rfl
    rw [hflush, Log.run_append]
    exact Log.durable_run (after ++ [.crash persisted])
  · have hall : (Log.fresh.run (before ++ .flush :: (after ++ [.crash persisted]))).all.Sublist
        (written (before ++ .flush :: (after ++ [.crash persisted]))) := Log.all_run _
    have hwritten : written (before ++ .flush :: (after ++ [.crash persisted])) =
        written (before ++ after) := by
      simp only [written_append, written, List.append_nil]
    rw [hwritten] at hall
    exact (List.sublist_append_left _ _).trans hall

/-- The second of two records is torn in the crash, the first was flushed. -/
theorem run_recovers_flushed :
    ∃ session kept,
      Session.fresh.run ([.write logits] ++ .flush :: ([.write logits] ++ [.crash 10])) =
        .ok session ∧
      session.file = log kept ∧
      (∀ name, session.resumed.lookup name = if needed name then
        (kept.reverse.find? fun record => record.name = name).map Record.tensor else none) ∧
      (Log.fresh.run [.write logits]).all <+: kept ∧
      kept.Sublist (written ([.write logits] ++ [.write logits])) :=
  run_recovers [.write logits] [.write logits] 10
    ⟨trivial, trivial, trivial, Or.inr (by decide +kernel), trivial⟩

/-- A single byte of a torn record costs the next run its log: the record that it flushes
is not there for the run after it. -/
theorem flushed_record_lost (first second : Record)
    (hname : (utf8 second.name).length < 256 ^ 3)
    (hsmall : second.bytes.length < 256 * (utf8 second.name).length + 3) :
    Session.fresh.run [.write first, .crash 1, .write second, .flush, .crash 0] =
      .ok ⟨[], [], ∅⟩ := by
  have hfirst := first.bytes_length_ge
  have hsecond := second.bytes_length_ge
  obtain ⟨byte, rest, hbytes⟩ :=
    List.exists_cons_of_length_pos (Nat.lt_of_lt_of_le (by decide) hfirst)
  have hcut : readCheckpointRecords [byte] = .ok (∅, [byte]) := by
    have hread := readCheckpointRecords_cut [] first (k := 1) (by omega)
    rw [hbytes] at hread
    exact hread
  have hlost : readCheckpointRecords (byte :: second.bytes) = .ok (∅, []) := by
    refine readCheckpointRecords_misread [] (byte :: second.bytes) ?_ ?_
    · rw [List.length_cons]
      omega
    · -- The last bytes of the length are read as its second to fourth.
      have hthree : second.bytes.take 3 = leBytes 3 (utf8 second.name).length := rfl
      have hnumber : ofLeBytes ((byte :: second.bytes).take 4) =
          byte.toNat + 256 * (utf8 second.name).length := by
        rw [List.take_succ_cons, hthree, ofLeBytes, ofLeBytes_leBytes_of_lt hname]
      rw [hnumber, List.length_cons]
      omega
  have hcrash : Session.step ⟨[], first.bytes, ∅⟩ (.crash 1) = .ok ⟨[byte], [], ∅⟩ := by
    refine Session.step_crash ?_
    rw [List.nil_append, hbytes]
    exact hcut
  have hlast : Session.step ⟨byte :: second.bytes, [], ∅⟩ (.crash 0) = .ok ⟨[], [], ∅⟩ := by
    refine Session.step_crash ?_
    rw [List.take_zero, List.append_nil]
    exact hlost
  have hbetween : Session.run ⟨[byte], [], ∅⟩ [.write second, .flush, .crash 0] =
      .ok ⟨[], [], ∅⟩ := by
    show Session.step ⟨byte :: second.bytes, [], ∅⟩ (.crash 0) >>= _ = _
    rw [hlast]
    rfl
  have hwrite : Session.step .fresh (.write first) = .ok ⟨[], first.bytes, ∅⟩ := rfl
  rw [Session.run, hwrite]
  show Session.run ⟨[], first.bytes, ∅⟩ (.crash 1 :: [.write second, .flush, .crash 0]) = _
  rw [Session.run, hcrash]
  exact hbetween

end Checkpoint

end VBuf.Runtime
