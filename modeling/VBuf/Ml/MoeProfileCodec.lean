import VBuf.Ml.DirectoryCodec
import VBuf.Ml.MoeProfile

/-!
# Reading a written expert catalogue

A written catalogue is read back when what the version cannot carry, and what
only the reader checks, is as the reader expects it: exactly then.
-/

namespace VBuf.Ml.MoeProfile

open VBuf.Lib VBuf.Lib.Reader VBuf.V06

/-- What the writer does not check and the reader needs: the count fits its field,
no scale identity is the one that stands for none, and the routing parameters are
those that the version carries. -/
def Carried (parameters : MoeParameters) (entries : List MoeEntry) : Prop :=
  entries.length < 4294967296 ∧ (∀ entry ∈ entries, entry.scaleOrdinal ≠ some 65535) ∧
    if entries.any hasOrdinal then parameters.RoutingValid else parameters.RoutingDefault

instance (parameters : MoeParameters) (entries : List MoeEntry) :
    Decidable (Carried parameters entries) := inferInstanceAs (Decidable (_ ∧ _ ∧ _))

theorem versionOf_eq_one_or_two (entries : List MoeEntry) :
    versionOf entries = 1 ∨ versionOf entries = 2 := by
  unfold versionOf
  cases entries.any hasOrdinal with
  | true => exact .inr rfl
  | false => exact .inl rfl

theorem versionOf_lt (entries : List MoeEntry) : versionOf entries < 65536 := by
  rcases versionOf_eq_one_or_two entries with h | h <;> rw [h] <;> decide

theorem perm_ordered (entries : List MoeEntry) : (ordered entries).Perm entries :=
  List.perm_insertionSort _ entries

theorem any_ordered (entries : List MoeEntry) :
    (ordered entries).any hasOrdinal = entries.any hasOrdinal :=
  (perm_ordered entries).any_eq

/-! ### Entries -/

variable {limit : Nat}

/-- What a written entry consists of. -/
theorem encodeEntry_eq_ok {parameters : MoeParameters} {version : Nat} {entry : MoeEntry}
    {piece : List UInt8} (h : encodeEntry parameters version entry = .ok piece) :
    (utf8 entry.childName).length ≤ 4294967295 ∧
      ∃ ordinals, ordinalBytes version entry = .ok ordinals ∧
        piece = leBytes 4 entry.layerIndex.toNat ++ leBytes 4 entry.expertIndex.toNat ++
          leBytes 2 entry.role.toNat ++ leBytes 2 0 ++ ordinals ++
          leBytes 4 (utf8 entry.childName).length ++ utf8 entry.childName := by
  simp only [encodeEntry, bind_eq_ok_iff, rejectIf_eq_ok_iff, pure_eq_ok_iff, not_or, not_lt] at h
  obtain ⟨_, ⟨-, -, -, hname⟩, ordinals, hordinals, rfl⟩ := h
  exact ⟨hname, ordinals, hordinals, rfl⟩

/-- The fixed part of an entry and its name are read as the entry that they hold. -/
theorem reads_readEntry_of_fixed {version : Nat} {fixed : List UInt8} {entry : MoeEntry}
    (hfixed : fixed.length = if version = 2 then 20 else 16)
    (hname : leAt fixed (if version = 2 then 16 else 12) 4 = (utf8 entry.childName).length)
    (hlayer : leAt fixed 0 4 = entry.layerIndex.toNat)
    (hexpert : leAt fixed 4 4 = entry.expertIndex.toNat)
    (hrole : leAt fixed 8 2 = entry.role.toNat)
    (hordinals : readOrdinals version fixed = (entry.tensorOrdinal, entry.scaleOrdinal)) :
    Reads limit (readEntry version) (fixed ++ utf8 entry.childName) entry := by
  refine (reads_takeBytes hfixed).bind ?_
  rw [hlayer, hexpert, hrole, hordinals, UInt32.ofNat_toNat, UInt32.ofNat_toNat,
    UInt16.ofNat_toNat, ← List.append_nil (utf8 entry.childName)]
  refine (reads_takeBytes hname.symm).bind ?_
  exact Reads.require_bind (fromUtf8_utf8 entry.childName) (reads_pure entry)

/-- An entry of the first version is read back. -/
theorem reads_readEntry_one {parameters : MoeParameters} {entry : MoeEntry} {piece : List UInt8}
    (h : encodeEntry parameters 1 entry = .ok piece) (hordinal : hasOrdinal entry = false) :
    Reads limit (readEntry 1) piece entry := by
  obtain ⟨hname, ordinals, hordinals, rfl⟩ := encodeEntry_eq_ok h
  cases hordinals
  simp only [hasOrdinal, Bool.or_eq_false_iff, Option.isSome_eq_false_iff,
    Option.isNone_iff_eq_none] at hordinal
  have hholds := holds_self (leBytes 4 entry.layerIndex.toNat ++
    leBytes 4 entry.expertIndex.toNat ++ leBytes 2 entry.role.toNat ++ leBytes 2 0 ++ [] ++
    leBytes 4 (utf8 entry.childName).length)
  simp only [holds_append, List.length_append, leBytes_length] at hholds
  obtain ⟨⟨⟨⟨⟨h₁, h₂⟩, h₃⟩, -⟩, -⟩, h₄⟩ := hholds
  refine reads_readEntry_of_fixed ?_ ?_ ?_ ?_ ?_ ?_
  · simp only [List.length_append, leBytes_length]
    rfl
  · exact leAt_of_holds h₄ (Nat.lt_succ_of_le hname)
  · exact leAt_of_holds h₁ entry.layerIndex.toNat_lt
  · exact leAt_of_holds h₂ entry.expertIndex.toNat_lt
  · exact leAt_of_holds h₃ entry.role.toNat_lt
  · rw [hordinal.1, hordinal.2]
    rfl

/-- An entry of the second version is read back, unless its scale identity is the
one that stands for none. -/
theorem reads_readEntry_two {parameters : MoeParameters} {entry : MoeEntry} {piece : List UInt8}
    (h : encodeEntry parameters 2 entry = .ok piece) (hscale : entry.scaleOrdinal ≠ some 65535) :
    Reads limit (readEntry 2) piece entry := by
  obtain ⟨hname, ordinals, hordinals, rfl⟩ := encodeEntry_eq_ok h
  simp only [ordinalBytes, if_true, bind_eq_ok_iff, okOr_eq_ok_iff, pure_eq_ok_iff] at hordinals
  obtain ⟨tensor, htensor, rfl⟩ := hordinals
  have hholds := holds_self (leBytes 4 entry.layerIndex.toNat ++
    leBytes 4 entry.expertIndex.toNat ++ leBytes 2 entry.role.toNat ++ leBytes 2 0 ++
    (leBytes 2 tensor.toNat ++ leBytes 2 (entry.scaleOrdinal.getD 65535).toNat) ++
    leBytes 4 (utf8 entry.childName).length)
  simp only [holds_append, List.length_append, leBytes_length] at hholds
  obtain ⟨⟨⟨⟨⟨h₁, h₂⟩, h₃⟩, -⟩, ⟨h₅, h₆⟩⟩, h₄⟩ := hholds
  refine reads_readEntry_of_fixed ?_ ?_ ?_ ?_ ?_ ?_
  · simp only [List.length_append, leBytes_length]
    rfl
  · exact leAt_of_holds h₄ (Nat.lt_succ_of_le hname)
  · exact leAt_of_holds h₁ entry.layerIndex.toNat_lt
  · exact leAt_of_holds h₂ entry.expertIndex.toNat_lt
  · exact leAt_of_holds h₃ entry.role.toNat_lt
  · have htensorAt := leAt_of_holds h₅ tensor.toNat_lt
    have hscaleAt := leAt_of_holds h₆ (entry.scaleOrdinal.getD 65535).toNat_lt
    unfold readOrdinals
    rw [if_pos rfl]
    simp only [Nat.zero_add, Nat.reduceAdd] at htensorAt hscaleAt
    rw [htensorAt, hscaleAt, UInt16.ofNat_toNat, UInt16.ofNat_toNat, htensor]
    cases hvalue : entry.scaleOrdinal with
    | none => rfl
    | some scale =>
        rw [hvalue] at hscale
        have hne : scale.toNat ≠ 65535 := by
          intro heq
          exact hscale (congrArg some (UInt16.toNat_inj.1 heq))
        rw [Option.getD_some, if_pos hne]

/-- The version of an entry is the version that its identities ask for. -/
theorem reads_readEntry {parameters : MoeParameters} {entries : List MoeEntry} {entry : MoeEntry}
    {piece : List UInt8} (hmem : entry ∈ entries)
    (h : encodeEntry parameters (versionOf entries) entry = .ok piece)
    (hscale : entry.scaleOrdinal ≠ some 65535) :
    Reads limit (readEntry (versionOf entries)) piece entry := by
  unfold versionOf at h ⊢
  cases hany : entries.any hasOrdinal with
  | true =>
      rw [hany] at h
      exact reads_readEntry_two h hscale
  | false =>
      rw [hany] at h
      have hnone := List.any_eq_false.1 hany entry hmem
      exact reads_readEntry_one h (Bool.eq_false_iff.2 hnone)

/-- No entry is read with the scale identity that stands for none. -/
theorem scaleOrdinal_of_readEntry {version cursor moved : Nat} {bytes : List UInt8}
    {entry : MoeEntry} (h : readEntry version bytes cursor = .ok (entry, moved)) :
    entry.scaleOrdinal ≠ some 65535 := by
  unfold readEntry at h
  obtain ⟨fixed, _, -, h⟩ := Reader.bind_eq_ok h
  obtain ⟨_, _, -, h⟩ := Reader.bind_eq_ok h
  obtain ⟨_, _, -, h⟩ := Reader.bind_eq_ok h
  obtain ⟨rfl, -⟩ := pure_eq_ok h
  show (readOrdinals version fixed).2 ≠ some 65535
  unfold readOrdinals
  split
  · show (if leAt fixed 14 2 ≠ 65535 then some (UInt16.ofNat (leAt fixed 14 2)) else none) ≠ _
    split
    · next hne =>
        intro heq
        have hlt : leAt fixed 14 2 < 256 ^ 2 := leAt_lt
        have hvalue := congrArg UInt16.toNat (Option.some.inj heq)
        rw [UInt16.toNat_ofNat_of_lt' hlt] at hvalue
        exact hne hvalue
    · simp
  · simp

/-! ### Header and extension -/

theorem headerBytes_length (parameters : MoeParameters) (version count : Nat) :
    (headerBytes parameters version count).length = 36 := by
  simp only [headerBytes, List.length_append, leBytes_length]
  rfl

/-- The fields of a written header. -/
theorem headerBytes_fields {parameters : MoeParameters} {version count : Nat} {bytes : List UInt8}
    (h : Holds bytes 0 (headerBytes parameters version count)) (hversion : version < 65536)
    (hcount : count < 4294967296) :
    slice bytes 0 8 = magic ∧ leAt bytes 8 2 = version ∧ leAt bytes 10 2 = 0 ∧
      leAt bytes 12 4 = parameters.expertCount.toNat ∧
      leAt bytes 16 4 = parameters.activeExpertCount.toNat ∧
      leAt bytes 20 4 = parameters.layerCount.toNat ∧
      leAt bytes 24 4 = (if parameters.sharedExperts then 1 else 0) ∧
      leAt bytes 28 4 = parameters.sharedExpertCount.toNat ∧ leAt bytes 32 4 = count := by
  simp only [headerBytes, holds_append, List.length_append, leBytes_length] at h
  obtain ⟨⟨⟨⟨⟨⟨⟨⟨h₁, h₂⟩, h₃⟩, h₄⟩, h₅⟩, h₆⟩, h₇⟩, h₈⟩, h₉⟩ := h
  have hflags : (if parameters.sharedExperts then 1 else 0) < 256 ^ 4 := by
    split <;> decide
  exact ⟨slice_of_holds h₁ rfl, leAt_of_holds h₂ hversion, leAt_of_holds h₃ (by decide),
    leAt_of_holds h₄ parameters.expertCount.toNat_lt,
    leAt_of_holds h₅ parameters.activeExpertCount.toNat_lt,
    leAt_of_holds h₆ parameters.layerCount.toNat_lt, leAt_of_holds h₇ hflags,
    leAt_of_holds h₈ parameters.sharedExpertCount.toNat_lt, leAt_of_holds h₉ hcount⟩

theorem extensionBytes_length (parameters : MoeParameters) :
    (extensionBytes parameters 2).length = 16 := by
  rw [extensionBytes, if_pos rfl]
  simp only [List.length_append, leBytes_length]

/-- The fields of a written extension. -/
theorem extensionBytes_fields (parameters : MoeParameters) :
    leAt (extensionBytes parameters 2) 0 1 = (if parameters.normalizeTopkProb then 1 else 0) ∧
      anyNonzero (slice (extensionBytes parameters 2) 1 3) = false ∧
      leAt (extensionBytes parameters 2) 4 4 = parameters.routingGroupCount.toNat ∧
      leAt (extensionBytes parameters 2) 8 4 = parameters.routingTopkGroupCount.toNat ∧
      leAt (extensionBytes parameters 2) 12 4 = parameters.routedScalingFactorBits.toNat := by
  have hholds := holds_self (extensionBytes parameters 2)
  nth_rewrite 2 [extensionBytes] at hholds
  simp only [if_pos, holds_append, List.length_append, leBytes_length] at hholds
  obtain ⟨⟨⟨h₁, h₂⟩, h₃⟩, h₄⟩ := hholds
  have hfirst : slice (extensionBytes parameters 2) 0 4 =
      leBytes 4 (if parameters.normalizeTopkProb then 1 else 0) :=
    slice_of_holds h₁ (leBytes_length _ _)
  -- The flag is the first of four bytes, and the other three are zero.
  have hbyte : slice (extensionBytes parameters 2) 0 1 =
      slice (leBytes 4 (if parameters.normalizeTopkProb then 1 else 0)) 0 1 := by
    rw [← hfirst, slice_slice (by decide)]
  have hrest : slice (extensionBytes parameters 2) 1 3 =
      slice (leBytes 4 (if parameters.normalizeTopkProb then 1 else 0)) 1 3 := by
    rw [← hfirst, slice_slice (by decide)]
  refine ⟨?_, ?_, leAt_of_holds h₂ parameters.routingGroupCount.toNat_lt,
    leAt_of_holds h₃ parameters.routingTopkGroupCount.toNat_lt,
    leAt_of_holds h₄ parameters.routedScalingFactorBits.toNat_lt⟩
  · rw [leAt, hbyte]
    cases parameters.normalizeTopkProb <;> decide
  · rw [hrest]
    cases parameters.normalizeTopkProb <;> decide

/-- Without an extension, the routing parameters are the default ones. -/
theorem routingDefault_readParameters (bytes : List UInt8) :
    (readParameters bytes []).RoutingDefault := by
  refine ⟨?_, rfl, rfl, rfl⟩
  simp [readParameters]

/-- The parameters of a written header and extension. -/
theorem readParameters_eq {parameters : MoeParameters} {entries : List MoeEntry} {count : Nat}
    {bytes : List UInt8} (h : Holds bytes 0 (headerBytes parameters (versionOf entries) count))
    (hcount : count < 4294967296)
    (hrouting : versionOf entries = 1 → parameters.RoutingDefault) :
    readParameters bytes (extensionBytes parameters (versionOf entries)) = parameters := by
  obtain ⟨-, -, -, h₁, h₂, h₃, h₄, h₅, -⟩ := headerBytes_fields h (versionOf_lt entries) hcount
  have hshared : decide (leAt bytes 24 4 % 2 ≠ 0) = parameters.sharedExperts := by
    rw [h₄]
    cases parameters.sharedExperts <;> rfl
  rcases versionOf_eq_one_or_two entries with hone | htwo
  · obtain ⟨hnormalize, hgroups, htopk, hscaling⟩ := hrouting hone
    rw [hone]
    show readParameters bytes [] = parameters
    cases parameters
    simp only at h₁ h₂ h₃ h₅ hshared hnormalize hgroups htopk hscaling
    subst hnormalize hgroups htopk hscaling
    simp [readParameters, h₁, h₂, h₃, h₅, ← hshared]
  · rw [htwo]
    obtain ⟨e₁, -, e₂, e₃, e₄⟩ := extensionBytes_fields parameters
    have hext : extensionBytes parameters 2 ≠ [] := by
      intro heq
      have hlength := extensionBytes_length parameters
      rw [heq] at hlength
      cases hlength
    have hflag : decide (extensionBytes parameters 2 ≠ [] ∧
        leAt (extensionBytes parameters 2) 0 1 ≠ 0) = parameters.normalizeTopkProb := by
      rw [e₁]
      cases parameters.normalizeTopkProb <;> simp [hext]
    simp only [readParameters, h₁, h₂, h₃, h₅, hshared, hflag, if_neg hext, e₂, e₃, e₄,
      UInt32.ofNat_toNat]

/-! ### The catalogue -/

/-- What `encode_payload` has checked, and what it writes. -/
theorem encodePayload_eq_ok {parameters : MoeParameters} {entries : List MoeEntry}
    {bytes : List UInt8} (h : encodePayload parameters entries = .ok bytes) :
    parameters.Valid ∧ ∃ table,
      concat ((ordered entries).map (encodeEntry parameters (versionOf (ordered entries)))) =
        .ok table ∧
      bytes = headerBytes parameters (versionOf (ordered entries)) entries.length ++
        extensionBytes parameters (versionOf (ordered entries)) ++ table := by
  simp only [encodePayload, bind_eq_ok_iff, rejectIf_eq_ok_iff, pure_eq_ok_iff, not_not] at h
  obtain ⟨_, hvalid, _, -, table, htable, rfl⟩ := h
  rw [(perm_ordered entries).length_eq]
  exact ⟨hvalid, table, htable, rfl⟩

theorem readExtension_eq_ok_iff {version : Nat} {bytes extension : List UInt8} :
    readExtension version bytes = .ok extension ↔
      if version = 2 then range? bytes 36 52 = some extension else extension = [] := by
  unfold readExtension
  split
  · exact okOr_eq_ok_iff
  · rw [Except.ok.injEq, eq_comm]

/-- What an accepted catalogue carries. -/
theorem carried_of_parsePayload {bytes : List UInt8} {parameters : MoeParameters}
    {entries : List MoeEntry} (h : parsePayload bytes = .ok (parameters, entries)) :
    entries.length < 4294967296 ∧ (∀ entry ∈ entries, entry.scaleOrdinal ≠ some 65535) ∧
      (leAt bytes 8 2 = 2 → parameters.RoutingValid) ∧
      (leAt bytes 8 2 = 1 → parameters.RoutingDefault) := by
  simp only [parsePayload, bind_eq_ok_iff, rejectIf_eq_ok_iff, pure_eq_ok_iff, Prod.exists,
    readExtension_eq_ok_iff, Prod.mk.injEq, not_and, not_or, not_not] at h
  obtain ⟨_, -, _, -, extension, hextension, _, hrouting, _, -, found, cursor, hentries, _, -,
    rfl, rfl⟩ := h
  obtain ⟨hlength, hscale⟩ := forall_of_many
    (fun _ _ _ _ hread => scaleOrdinal_of_readEntry hread) hentries
  have hcount : leAt bytes 32 4 < 256 ^ 4 := leAt_lt
  refine ⟨by omega, hscale, ?_, ?_⟩
  · intro htwo
    exact (hrouting htwo).2.2
  · intro hone
    rw [hone, if_neg (by decide)] at hextension
    rw [hextension]
    exact routingDefault_readParameters bytes

/-- The version that was selected tells how the routing parameters are carried. -/
theorem Carried.routing {parameters : MoeParameters} {entries : List MoeEntry}
    (h : Carried parameters entries) :
    (versionOf (ordered entries) = 1 → parameters.RoutingDefault) ∧
      (versionOf (ordered entries) = 2 → parameters.RoutingValid) := by
  obtain ⟨-, -, hrouting⟩ := h
  unfold versionOf
  rw [any_ordered]
  cases hcase : entries.any hasOrdinal with
  | true =>
      rw [hcase] at hrouting
      refine ⟨fun hone => ?_, fun _ => hrouting⟩
      cases hone
  | false =>
      rw [hcase] at hrouting
      refine ⟨fun _ => hrouting, fun htwo => ?_⟩
      cases htwo

/-- The extension of a written catalogue is read back: version two has it behind the
header, version one has none. -/
theorem readExtension_encoded {parameters : MoeParameters} {version count : Nat}
    {bytes table : List UInt8} (hversion : version = 1 ∨ version = 2)
    (hbytes : bytes =
      headerBytes parameters version count ++ extensionBytes parameters version ++ table) :
    readExtension version bytes = .ok (extensionBytes parameters version) := by
  rw [readExtension_eq_ok_iff]
  rcases hversion with rfl | rfl
  · rfl
  · rw [if_pos rfl, range?_eq_some_iff]
    have hlength := extensionBytes_length parameters
    have hheaderLength := headerBytes_length parameters 2 count
    refine ⟨by decide, ?_, ?_⟩
    · rw [hbytes, List.length_append, List.length_append]
      omega
    · have hmiddle := slice_append_middle (headerBytes parameters 2 count)
        (extensionBytes parameters 2) table
      rw [hheaderLength, hlength] at hmiddle
      rw [hbytes]
      exact hmiddle.symm

/-- A written extension passes its checks. -/
theorem extension_checked {parameters : MoeParameters} {version : Nat}
    (hrouting : version = 2 → parameters.RoutingValid) :
    ¬ (version = 2 ∧ (1 < leAt (extensionBytes parameters version) 0 1 ∨
      anyNonzero (slice (extensionBytes parameters version) 1 3) = true ∨
      ¬ parameters.RoutingValid)) := by
  rintro ⟨rfl, hbad⟩
  obtain ⟨e₁, e₂, -⟩ := extensionBytes_fields parameters
  rw [e₁, e₂] at hbad
  rcases hbad with hflag | hflag | hflag
  · cases hnormalize : parameters.normalizeTopkProb <;> rw [hnormalize] at hflag <;>
      exact absurd hflag (by decide)
  · cases hflag
  · exact hflag (hrouting rfl)

/-- The entries of a written catalogue are read back. -/
theorem many_readEntry_encoded {parameters : MoeParameters} {entries : List MoeEntry}
    {front table : List UInt8}
    (htable : concat (entries.map (encodeEntry parameters (versionOf entries))) = .ok table)
    (hscale : ∀ entry ∈ entries, entry.scaleOrdinal ≠ some 65535) :
    many (readEntry (versionOf entries)) entries.length (front ++ table) front.length =
      .ok (entries, (front ++ table).length) := by
  have hentries : Reads ((front ++ table).length + 1)
      (many (readEntry (versionOf entries)) entries.length) table entries := by
    refine reads_concat_self htable ?_
    intro entry hmem piece hpiece
    exact reads_readEntry hmem hpiece (hscale entry hmem)
  have hread := hentries front [] (by
    rw [List.append_nil]
    exact Nat.lt_succ_self _)
  rw [List.append_nil] at hread
  exact hread

/-- A written catalogue that carries its values is read back. -/
theorem parsePayload_of_carried {parameters : MoeParameters} {entries : List MoeEntry}
    {bytes : List UInt8} (h : encodePayload parameters entries = .ok bytes)
    (hcarried : Carried parameters entries) :
    parsePayload bytes = .ok (parameters, ordered entries) := by
  obtain ⟨hdefault, hvalidRouting⟩ := hcarried.routing
  obtain ⟨hcount, hscale, -⟩ := hcarried
  obtain ⟨hvalid, table, htable, hbytes⟩ := encodePayload_eq_ok h
  have hversion := versionOf_eq_one_or_two (ordered entries)
  have hheader : Holds bytes 0
      (headerBytes parameters (versionOf (ordered entries)) entries.length) := by
    rw [hbytes, List.append_assoc]
    exact (holds_append.1 (holds_self _)).1
  obtain ⟨hmagic, hversionAt, hreserved, -, -, -, hflags, -, hcountAt⟩ :=
    headerBytes_fields hheader (versionOf_lt (ordered entries)) hcount
  have hparameters := readParameters_eq hheader hcount hdefault
  have hrun := @many_readEntry_encoded _ _ (headerBytes parameters
    (versionOf (ordered entries)) entries.length ++
      extensionBytes parameters (versionOf (ordered entries))) _ htable
    (fun entry hmem => hscale entry ((perm_ordered entries).mem_iff.1 hmem))
  rw [← hbytes, List.length_append, headerBytes_length, (perm_ordered entries).length_eq] at hrun
  have hlong : 36 ≤ bytes.length := by
    rw [hbytes, List.length_append, List.length_append, headerBytes_length]
    omega
  have hflags' : ¬ 1 < leAt bytes 24 4 := by
    rw [hflags]
    split <;> decide
  have hversions : ¬ (versionOf (ordered entries) ≠ 1 ∧ versionOf (ordered entries) ≠ 2) := by
    rintro ⟨hone, htwo⟩
    exact hversion.elim hone htwo
  simp only [parsePayload, bind_eq_ok_iff, rejectIf_eq_ok_iff, pure_eq_ok_iff, hversionAt]
  refine ⟨(), ?_, (), hflags', _, readExtension_encoded hversion hbytes, (), ?_, (), ?_,
    (ordered entries, bytes.length), ?_, (), ?_, ?_⟩
  · rw [hmagic, hreserved]
    simpa using ⟨hlong, by simpa using hversions⟩
  · rw [hparameters]
    exact extension_checked hvalidRouting
  · rw [hparameters, not_not]
    exact hvalid
  · rw [hcountAt]
    exact hrun
  · simp
  · rw [hparameters]

/-- A written catalogue is read back, with its entries in order, exactly when the
version that was selected carries its values. -/
theorem parsePayload_encodePayload_iff {parameters : MoeParameters} {entries : List MoeEntry}
    {bytes : List UInt8} (h : encodePayload parameters entries = .ok bytes) :
    parsePayload bytes = .ok (parameters, ordered entries) ↔ Carried parameters entries := by
  constructor
  · intro hparse
    obtain ⟨hcount, hscale, htwo, hone⟩ := carried_of_parsePayload hparse
    rw [(perm_ordered entries).length_eq] at hcount
    obtain ⟨-, table, -, hbytes⟩ := encodePayload_eq_ok h
    have hversion := versionOf_lt (ordered entries)
    have hheader : Holds bytes 0
        (headerBytes parameters (versionOf (ordered entries)) entries.length) := by
      rw [hbytes, List.append_assoc]
      exact (holds_append.1 (holds_self _)).1
    obtain ⟨-, hversionAt, -⟩ := headerBytes_fields hheader hversion hcount
    refine ⟨hcount, ?_, ?_⟩
    · intro entry hmem
      exact hscale entry ((perm_ordered entries).mem_iff.2 hmem)
    · rw [hversionAt] at hone htwo
      unfold versionOf at hone htwo
      rw [any_ordered] at hone htwo
      cases hcase : entries.any hasOrdinal with
      | true =>
          rw [hcase] at htwo
          exact htwo rfl
      | false =>
          rw [hcase] at hone
          exact hone rfl
  · intro hcarried
    exact parsePayload_of_carried h hcarried

/-- Eight experts in one layer, with no routing groups. -/
def exampleParameters : MoeParameters where
  expertCount := 8
  activeExpertCount := 2
  layerCount := 1
  sharedExperts := false
  sharedExpertCount := 0
  normalizeTopkProb := false
  routingGroupCount := 0
  routingTopkGroupCount := 0
  routedScalingFactorBits := 0x3f800000

/-- An entry that is bound to a tensor. -/
def exampleEntry : MoeEntry := ⟨0, 3, 1, "e", some 321, none⟩

/-- What the writer makes of a catalogue. -/
def exampleBytes (parameters : MoeParameters) (entries : List MoeEntry) : List UInt8 :=
  ((encodePayload parameters entries).toOption).getD []

theorem encodePayload_groups : encodePayload { exampleParameters with
    routingGroupCount := 1, routingTopkGroupCount := 1 } [exampleEntry] =
      .ok (exampleBytes { exampleParameters with
        routingGroupCount := 1, routingTopkGroupCount := 1 } [exampleEntry]) := by
  decide +kernel

theorem parsePayload_encodePayload_iff_groups :
    parsePayload (exampleBytes { exampleParameters with
      routingGroupCount := 1, routingTopkGroupCount := 1 } [exampleEntry]) =
        .ok ({ exampleParameters with routingGroupCount := 1, routingTopkGroupCount := 1 },
          ordered [exampleEntry]) ↔
      Carried { exampleParameters with routingGroupCount := 1, routingTopkGroupCount := 1 }
        [exampleEntry] :=
  parsePayload_encodePayload_iff encodePayload_groups

/-- The writer accepts a bound catalogue without routing groups, the reader does not. -/
theorem parsePayload_withoutGroups :
    encodePayload exampleParameters [exampleEntry] =
        .ok (exampleBytes exampleParameters [exampleEntry]) ∧
      parsePayload (exampleBytes exampleParameters [exampleEntry]) =
        .error ⟨.malformedMoeDirectory, "MoE v2 routing extension is invalid"⟩ := by
  constructor
  · decide +kernel
  · decide +kernel

end VBuf.Ml.MoeProfile
