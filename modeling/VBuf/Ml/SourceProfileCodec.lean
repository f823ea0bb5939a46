import VBuf.Ml.SourceProfile

/-!
# Reading a written source profile

The descriptors of a registry are always read back.  The bindings are, exactly
when each of them lies inside the size that the registry declares for its source.
-/

namespace VBuf.Ml

open VBuf.Lib VBuf.Lib.Reader VBuf.Layout VBuf.V06

/-- The ids, sizes and algorithms of a descriptor are machine integers. -/
def SourceDescriptor.Bounded (descriptor : SourceDescriptor) : Prop :=
  descriptor.id.value < u64Bound ∧ (∀ size ∈ descriptor.declaredSize, size < u64Bound) ∧
    ∀ hash ∈ descriptor.hashes, hash.algorithm < 65536

/-- The range of a binding lies inside the declared size of its source. -/
def SourceRegistry.Within (registry : SourceRegistry) (binding : SourceBinding) : Prop :=
  ∃ source size, registry.get binding.2.2.sourceId = some source ∧
    source.declaredSize = some size ∧ binding.2.2.range.stop ≤ size

namespace SourceProfile

variable {limit : Nat}

theorem reads_readHash {hash : SourceHash} {piece : List UInt8} (h : encodeHash hash = .ok piece)
    (hbound : hash.algorithm < 65536) : Reads limit readHash piece hash := by
  simp only [encodeHash, bind_eq_ok_iff, rejectIf_eq_ok_iff, pure_eq_ok_iff, not_lt] at h
  obtain ⟨_, hlength, rfl⟩ := h
  have hholds := holds_self (leBytes 2 hash.algorithm ++ leBytes 2 hash.value.length)
  rw [holds_append, leBytes_length] at hholds
  have halgorithm := leAt_of_holds hholds.1 (by omega)
  have hcount := leAt_of_holds hholds.2 (by omega)
  refine (reads_takeBytes ?_).bind ?_
  · simp only [List.length_append, leBytes_length]
  · rw [halgorithm, hcount]
    exact (reads_takeBytes rfl).map

theorem readLocator_locatorBytes (locator : SourceLocator) :
    readLocator (locatorBytes locator).1 (locatorBytes locator).2 = .ok locator := by
  cases locator with
  | selfArtifact => rfl
  | file value => simp only [locatorBytes, readLocator, fromUtf8_utf8]; rfl
  | http value => simp only [locatorBytes, readLocator, fromUtf8_utf8]; rfl

theorem locatorBytes_kind_lt (locator : SourceLocator) : (locatorBytes locator).1 < 256 := by
  cases locator <;> simp [locatorBytes]

theorem entryHeader_length (id size kind locatorLen hashCount : Nat) :
    (entryHeader id size kind locatorLen hashCount).length = 32 := by
  simp only [entryHeader, List.length_append, leBytes_length]

/-- The fields of an entry are read where they were written. -/
theorem entryHeader_fields {id size kind locatorLen hashCount : Nat} (hid : id < u64Bound)
    (hsize : size < u64Bound) (hkind : kind < 256) (hlocator : locatorLen < 4294967296)
    (hcount : hashCount < 65536) :
    leAt (entryHeader id size kind locatorLen hashCount) 0 8 = id ∧
      leAt (entryHeader id size kind locatorLen hashCount) 8 8 = size ∧
      leAt (entryHeader id size kind locatorLen hashCount) 16 1 = kind ∧
      anyNonzero (slice (entryHeader id size kind locatorLen hashCount) 17 3) = false ∧
      leAt (entryHeader id size kind locatorLen hashCount) 20 4 = locatorLen ∧
      leAt (entryHeader id size kind locatorLen hashCount) 24 2 = hashCount ∧
      anyNonzero (slice (entryHeader id size kind locatorLen hashCount) 26 6) = false := by
  have hholds := holds_self (entryHeader id size kind locatorLen hashCount)
  nth_rewrite 2 [entryHeader] at hholds
  simp only [holds_append, List.length_append, leBytes_length] at hholds
  obtain ⟨⟨⟨⟨⟨⟨h₁, h₂⟩, h₃⟩, h₄⟩, h₅⟩, h₆⟩, h₇⟩ := hholds
  rw [u64Bound_eq] at hid hsize
  exact ⟨leAt_of_holds h₁ hid, leAt_of_holds h₂ hsize, leAt_of_holds h₃ hkind,
    anyNonzero_zero h₄, leAt_of_holds h₅ hlocator, leAt_of_holds h₆ hcount, anyNonzero_zero h₇⟩

/-- What a written descriptor consists of. -/
theorem encodeDescriptor_eq_ok {descriptor : SourceDescriptor} {piece : List UInt8}
    (h : encodeDescriptor descriptor = .ok piece) :
    ∃ size hashes, descriptor.declaredSize = some size ∧
      (locatorBytes descriptor.locator).2.length ≤ 4294967295 ∧
      descriptor.hashes.length ≤ 65535 ∧
      concat (descriptor.hashes.map encodeHash) = .ok hashes ∧
      piece = entryHeader descriptor.id.value size (locatorBytes descriptor.locator).1
        (locatorBytes descriptor.locator).2.length descriptor.hashes.length ++
        (locatorBytes descriptor.locator).2 ++ hashes := by
  simp only [encodeDescriptor, bind_eq_ok_iff, mapErr_eq_ok_iff, okOr_eq_ok_iff,
    rejectIf_eq_ok_iff, pure_eq_ok_iff, not_lt] at h
  obtain ⟨_, -, size, hsize, _, hlocator, _, hcount, hashes, hhashes, hpiece⟩ := h
  exact ⟨size, hashes, hsize, hlocator, hcount, hhashes, hpiece.symm⟩

/-- A written descriptor is read back. -/
theorem reads_readDescriptor {descriptor : SourceDescriptor} {piece : List UInt8}
    (h : encodeDescriptor descriptor = .ok piece) (hbound : descriptor.Bounded) :
    Reads limit readDescriptor piece descriptor := by
  obtain ⟨size, hashes, hsize, hlocator, hcount, hhashes, rfl⟩ := encodeDescriptor_eq_ok h
  obtain ⟨hid, hsizeBound, halgorithms⟩ := hbound
  obtain ⟨h₁, h₂, h₃, h₄, h₅, h₆, h₇⟩ := entryHeader_fields hid (hsizeBound size hsize)
    (locatorBytes_kind_lt descriptor.locator) (Nat.lt_succ_of_le hlocator)
    (Nat.lt_succ_of_le hcount)
  rw [List.append_assoc]
  refine (reads_takeBytes (entryHeader_length _ _ _ _ _)).bind ?_
  rw [h₁, h₂, h₃, h₅, h₆]
  refine Reads.check_bind (by rw [h₄, h₇]; decide) ?_
  refine (reads_takeBytes rfl).bind ?_
  refine Reads.lift_bind (readLocator_locatorBytes descriptor.locator) ?_
  rw [← hsize]
  exact (reads_concat_self hhashes fun hash hmem _ hpiece =>
    reads_readHash hpiece (halgorithms hash hmem)).map

/-- A source takes at least the 32 bytes of its entry. -/
theorem descriptors_length {descriptors : List SourceDescriptor} {bytes : List UInt8}
    (h : concat (descriptors.map encodeDescriptor) = .ok bytes) :
    32 * descriptors.length ≤ bytes.length := by
  induction descriptors generalizing bytes with
  | nil => exact Nat.zero_le _
  | cons descriptor rest ih =>
      rw [List.map_cons, concat_cons_eq_ok_iff] at h
      obtain ⟨piece, hpiece, tail, htail, rfl⟩ := h
      have hlong := ih htail
      obtain ⟨_, _, -, -, -, -, rfl⟩ := encodeDescriptor_eq_ok hpiece
      simp only [List.length_cons, List.length_append, entryHeader_length]
      omega

/-! ### Bindings -/

theorem encodeBindings_cons_eq_ok_iff {registry : SourceRegistry} {seen : List (UInt16 × UInt16)}
    {binding : SourceBinding} {rest : List SourceBinding} {bytes : List UInt8} :
    encodeBindings registry seen (binding :: rest) = .ok bytes ↔
      (binding.1, binding.2.1) ∉ seen ∧ registry.get binding.2.2.sourceId ≠ none ∧
        ∃ tail, encodeBindings registry (seen ++ [(binding.1, binding.2.1)]) rest = .ok tail ∧
          bytes = bindingBytes binding ++ tail := by
  simp only [encodeBindings, bind_eq_ok_iff, rejectIf_eq_ok_iff, pure_eq_ok_iff, exists_const,
    @eq_comm _ bytes]

/-- A range inside the declared size is bound to the source. -/
theorem tensorRef_eq_ok_iff {registry : SourceRegistry} {id : SourceId} {offset length : Nat}
    {reference : TensorRef} :
    registry.tensorRef id offset length = .ok reference ↔
      ∃ source size, registry.get id = some source ∧ source.declaredSize = some size ∧
        reference.sourceId = source.id ∧ reference.offset = offset ∧
        reference.length = length ∧ reference.range.stop ≤ size := by
  simp only [SourceRegistry.tensorRef, SourceDescriptor.tensorRef, bind_eq_ok_iff,
    okOr_eq_ok_iff, mapErr_eq_ok_iff, rejectIf_eq_ok_iff, pure_eq_ok_iff,
    ByteRange.new_eq_ok_iff, not_lt]
  constructor
  · intro h
    obtain ⟨source, hsource, range, ⟨hoffset, hlength⟩, size, hsize, _, hstop, rfl⟩ := h
    exact ⟨source, size, hsource, hsize, rfl, hoffset, hlength, hstop⟩
  · intro h
    obtain ⟨source, size, hsource, hsize, hid, hoffset, hlength, hstop⟩ := h
    exact ⟨source, hsource, reference.range, ⟨hoffset, hlength⟩, size, hsize, (), hstop,
      TensorRef.ext hid.symm rfl⟩

theorem id_of_get {registry : SourceRegistry} {id : SourceId} {source : SourceDescriptor}
    (h : registry.get id = some source) : source ∈ registry.descriptors ∧ source.id = id := by
  refine ⟨List.mem_of_find?_eq_some h, ?_⟩
  simpa using List.find?_some h

theorem bindingBytes_length (binding : SourceBinding) : (bindingBytes binding).length = 32 := by
  simp only [bindingBytes, List.length_append, leBytes_length]

theorem bindingBytes_fields {binding : SourceBinding}
    (hid : binding.2.2.sourceId.value < u64Bound) :
    leAt (bindingBytes binding) 0 2 = binding.1.toNat ∧
      leAt (bindingBytes binding) 2 2 = binding.2.1.toNat ∧
      anyNonzero (slice (bindingBytes binding) 4 4) = false ∧
      leAt (bindingBytes binding) 8 8 = binding.2.2.sourceId.value ∧
      leAt (bindingBytes binding) 16 8 = binding.2.2.offset ∧
      leAt (bindingBytes binding) 24 8 = binding.2.2.length := by
  have hholds := holds_self (bindingBytes binding)
  nth_rewrite 2 [bindingBytes] at hholds
  simp only [holds_append, List.length_append, leBytes_length] at hholds
  obtain ⟨⟨⟨⟨⟨h₁, h₂⟩, h₃⟩, h₄⟩, h₅⟩, h₆⟩ := hholds
  have hfits := binding.2.2.range.fits
  have hoffset : binding.2.2.offset < u64Bound := Nat.lt_of_le_of_lt (Nat.le_add_right _ _) hfits
  have hlength : binding.2.2.length < u64Bound := Nat.lt_of_le_of_lt (Nat.le_add_left _ _) hfits
  rw [u64Bound_eq] at hid hoffset hlength
  exact ⟨leAt_of_holds h₁ binding.1.toNat_lt, leAt_of_holds h₂ binding.2.1.toNat_lt,
    anyNonzero_zero h₃, leAt_of_holds h₄ hid, leAt_of_holds h₅ hoffset, leAt_of_holds h₆ hlength⟩

/-- Written bindings inside their sources are read back. -/
theorem reads_readBindings {registry : SourceRegistry} {seen : List (UInt16 × UInt16)}
    {bindings : List SourceBinding} {bytes : List UInt8}
    (hbound : ∀ descriptor ∈ registry.descriptors, descriptor.Bounded)
    (h : encodeBindings registry seen bindings = .ok bytes)
    (hwithin : ∀ binding ∈ bindings, registry.Within binding) :
    Reads limit (readBindings registry seen bindings.length) bytes bindings := by
  induction bindings generalizing seen bytes with
  | nil =>
      cases h
      exact reads_pure []
  | cons binding rest ih =>
      obtain ⟨hseen, -, tail, htail, rfl⟩ := encodeBindings_cons_eq_ok_iff.1 h
      rw [List.forall_mem_cons] at hwithin
      obtain ⟨source, size, hsource, hsize, hstop⟩ := hwithin.1
      obtain ⟨hmem, hid⟩ := id_of_get hsource
      have hidBound : binding.2.2.sourceId.value < u64Bound := hid ▸ (hbound source hmem).1
      obtain ⟨h₁, h₂, h₃, h₄, h₅, h₆⟩ := bindingBytes_fields hidBound
      have hreference : registry.tensorRef ⟨binding.2.2.sourceId.value⟩ binding.2.2.offset
          binding.2.2.length = .ok binding.2.2 :=
        tensorRef_eq_ok_iff.2 ⟨source, size, hsource, hsize, hid.symm, rfl, rfl, hstop⟩
      refine (reads_takeBytes (bindingBytes_length binding)).bind ?_
      rw [h₁, h₂, h₃, h₄, h₅, h₆, UInt16.ofNat_toNat, UInt16.ofNat_toNat, hreference]
      refine Reads.check_bind (by decide) ?_
      refine Reads.check_bind hseen ?_
      refine Reads.lift_bind rfl ?_
      exact (ih htail hwithin.2).map

theorem encodeBindings_length {registry : SourceRegistry} {seen : List (UInt16 × UInt16)}
    {bindings : List SourceBinding} {bytes : List UInt8}
    (h : encodeBindings registry seen bindings = .ok bytes) :
    bytes.length = 32 * bindings.length := by
  induction bindings generalizing seen bytes with
  | nil =>
      cases h
      rfl
  | cons binding rest ih =>
      obtain ⟨-, -, tail, htail, rfl⟩ := encodeBindings_cons_eq_ok_iff.1 h
      rw [List.length_append, bindingBytes_length, ih htail, List.length_cons]
      omega

/-- Every binding that is read lies inside its source. -/
theorem within_of_readBindings {registry : SourceRegistry} {seen : List (UInt16 × UInt16)}
    {count cursor moved : Nat} {bytes : List UInt8} {bindings : List SourceBinding}
    (h : readBindings registry seen count bytes cursor = .ok (bindings, moved)) :
    ∀ binding ∈ bindings, registry.Within binding := by
  induction count generalizing seen cursor moved bindings with
  | zero =>
      obtain ⟨rfl, -⟩ := pure_eq_ok h
      exact fun _ hmem => absurd hmem List.not_mem_nil
  | succ count ih =>
      unfold readBindings at h
      obtain ⟨entry, _, -, h⟩ := Reader.bind_eq_ok h
      obtain ⟨_, _, -, h⟩ := Reader.bind_eq_ok h
      obtain ⟨_, _, -, h⟩ := Reader.bind_eq_ok h
      obtain ⟨reference, _, hlift, h⟩ := Reader.bind_eq_ok h
      obtain ⟨rest, _, hrest, h⟩ := Reader.bind_eq_ok h
      obtain ⟨rfl, -⟩ := pure_eq_ok h
      obtain ⟨hreference, -⟩ := lift_eq_ok hlift
      rw [mapErr_eq_ok_iff, tensorRef_eq_ok_iff] at hreference
      obtain ⟨source, size, hsource, hsize, hid, -, -, hstop⟩ := hreference
      rw [List.forall_mem_cons]
      refine ⟨⟨source, size, ?_, hsize, hstop⟩, ih hrest⟩
      show registry.get reference.sourceId = some source
      rw [hid, (id_of_get hsource).2]
      exact hsource

/-! ### The profile -/

theorem new_registry {descriptors : List SourceDescriptor} {registry : SourceRegistry}
    (h : SourceRegistry.new descriptors = .ok registry) : registry.descriptors = descriptors := by
  simp only [SourceRegistry.new, bind_eq_ok_iff, rejectIf_eq_ok_iff, pure_eq_ok_iff] at h
  obtain ⟨_, -, _, -, rfl⟩ := h
  rfl

theorem encodeProfile_eq_ok {registry : SourceRegistry} {bindings : List SourceBinding}
    {bytes : List UInt8} (h : encodeProfile registry bindings = .ok bytes) :
    ∃ sources table, concat (registry.descriptors.map encodeDescriptor) = .ok sources ∧
      encodeBindings registry [] bindings = .ok table ∧ bytes.length ≤ maxBytes ∧
      bytes = magic ++ leBytes 2 version ++ leBytes 2 0 ++
        leBytes 4 registry.descriptors.length ++ leBytes 4 bindings.length ++ leBytes 4 0 ++
        sources ++ table := by
  simp only [encodeProfile, bind_eq_ok_iff, rejectIf_eq_ok_iff, pure_eq_ok_iff, not_lt] at h
  obtain ⟨sources, hsources, table, htable, _, hsize, rfl⟩ := h
  exact ⟨sources, table, hsources, htable, hsize, rfl⟩

/-- What an accepted profile binds lies inside its sources. -/
theorem within_of_parseBytes {bytes : List UInt8} {metadata : PersistentSourceMetadata}
    (h : parseBytes bytes = .ok metadata) :
    ∀ binding ∈ metadata.bindings, metadata.registry.Within binding := by
  simp only [parseBytes, bind_eq_ok_iff, pure_eq_ok_iff, Prod.exists] at h
  obtain ⟨_, -, _, -, _, -, found, cursor, hbody, _, -, rfl⟩ := h
  unfold readBody at hbody
  obtain ⟨descriptors, _, -, hbody⟩ := Reader.bind_eq_ok hbody
  obtain ⟨registry, _, -, hbody⟩ := Reader.bind_eq_ok hbody
  obtain ⟨bindings, _, hbindings, hbody⟩ := Reader.bind_eq_ok hbody
  obtain ⟨rfl, -⟩ := pure_eq_ok hbody
  exact within_of_readBindings hbindings

/-- A written profile is read back when its bindings lie inside their sources. -/
theorem parseBytes_of_within {descriptors : List SourceDescriptor} {registry : SourceRegistry}
    {bindings : List SourceBinding} {bytes : List UInt8}
    (hnew : SourceRegistry.new descriptors = .ok registry)
    (hbound : ∀ descriptor ∈ descriptors, descriptor.Bounded)
    (h : encodeProfile registry bindings = .ok bytes)
    (hwithin : ∀ binding ∈ bindings, registry.Within binding) :
    parseBytes bytes = .ok ⟨registry, bindings⟩ := by
  obtain ⟨sources, table, hsources, htable, hsize, hbytes⟩ := encodeProfile_eq_ok h
  have hregistry := new_registry hnew
  rw [hregistry] at hsources hbytes
  rw [← hregistry] at hbound
  have hbound' := hregistry ▸ hbound
  have hlong := descriptors_length hsources
  have hdescriptors : Reads (bytes.length + 1) _ _ _ := reads_concat_self hsources
    fun descriptor hmem _ hpiece => reads_readDescriptor hpiece (hbound' descriptor hmem)
  have htableLength := encodeBindings_length htable
  have hbindings : Reads (bytes.length + 1) _ _ _ := reads_readBindings hbound htable hwithin
  -- The body behind the 24 bytes of the header.
  have hbody : Reads (bytes.length + 1) (readBody descriptors.length bindings.length)
      (sources ++ table) ⟨registry, bindings⟩ := by
    refine hdescriptors.bind ?_
    rw [hnew]
    exact Reads.lift_bind rfl hbindings.map
  have hlength : bytes.length = 24 + sources.length + table.length := by
    rw [hbytes]
    simp only [List.length_append, leBytes_length]
    rfl
  have hholds := holds_self bytes
  nth_rewrite 2 [hbytes] at hholds
  simp only [holds_append, List.length_append, leBytes_length] at hholds
  obtain ⟨⟨⟨⟨⟨⟨⟨hmagic, hversion⟩, hflags⟩, hsourceCount⟩, hbindingCount⟩, hreserved⟩, -⟩, -⟩ :=
    hholds
  unfold maxBytes at hsize
  have hmagic' : slice bytes 0 8 = magic := hmagic
  have hversion' : leAt bytes 8 2 = version := leAt_of_holds hversion (by decide)
  have hflags' : anyNonzero (slice bytes 10 2) = false := anyNonzero_zero hflags
  have hsourceCount' : leAt bytes 12 4 = descriptors.length :=
    leAt_of_holds hsourceCount (by omega)
  have hbindingCount' : leAt bytes 16 4 = bindings.length :=
    leAt_of_holds hbindingCount (by omega)
  have hreserved' : anyNonzero (slice bytes 20 4) = false := anyNonzero_zero hreserved
  have hrun : readBody descriptors.length bindings.length bytes 24 =
      .ok (⟨registry, bindings⟩, bytes.length) := by
    have hrun := hbody (bytes.take 24) [] (by
      rw [List.append_nil, hbytes]
      simp [magic]
      omega)
    have htake : bytes.take 24 ++ (sources ++ table) = bytes := by
      rw [hbytes]
      simp [magic, leBytes]
    rw [List.append_nil, htake, List.length_take] at hrun
    rwa [Nat.min_eq_left (by omega)] at hrun
  simp only [parseBytes, bind_eq_ok_iff, rejectIf_eq_ok_iff, hversion', hflags', hsourceCount',
    hbindingCount', hreserved', not_or, not_lt, not_not, hrun]
  refine ⟨(), ⟨by omega, hsize, hmagic'⟩, (), trivial, (), by decide, _, rfl, (), rfl, rfl⟩

theorem parseProfile_of_region {bootstrap : Bootstrap} {region : SemanticRegion}
    (h : bootstrap.region .sourceMetadata = some region)
    {metadata : PersistentSourceMetadata} :
    parseProfile bootstrap = .ok (some metadata) ↔
      parseBytes region.range.bytes = .ok metadata := by
  unfold parseProfile
  rw [h]
  simp only [bind_eq_ok_iff, pure_eq_ok_iff, Option.some.injEq, exists_eq_right]

/-- A written profile is read back from its region exactly when each binding lies
inside the size that the registry declares for its source; every binding that is
read does. -/
theorem parseProfile_encodeProfile_iff (registry : SourceRegistry)
    (bindings : List SourceBinding) :
    (∀ descriptors bytes, SourceRegistry.new descriptors = .ok registry →
      (∀ descriptor ∈ descriptors, descriptor.Bounded) →
      encodeProfile registry bindings = .ok bytes →
      ∀ bootstrap region, bootstrap.region .sourceMetadata = some region →
        region.range.bytes = bytes →
        (parseProfile bootstrap = .ok (some ⟨registry, bindings⟩) ↔
          ∀ binding ∈ bindings, registry.Within binding)) ∧
    ∀ bootstrap metadata, parseProfile bootstrap = .ok (some metadata) →
      ∀ binding ∈ metadata.bindings, metadata.registry.Within binding := by
  have hsound : ∀ bootstrap metadata, parseProfile bootstrap = .ok (some metadata) →
      ∀ binding ∈ metadata.bindings, metadata.registry.Within binding := by
    intro bootstrap metadata h
    cases hregion : bootstrap.region .sourceMetadata with
    | none =>
        unfold parseProfile at h
        rw [hregion] at h
        cases h
    | some region => exact within_of_parseBytes ((parseProfile_of_region hregion).1 h)
  refine ⟨?_, hsound⟩
  intro descriptors bytes hnew hbound hencode bootstrap region hregion hbytes
  constructor
  · intro h
    exact hsound bootstrap _ h
  · intro hwithin
    rw [parseProfile_of_region hregion, hbytes]
    exact parseBytes_of_within hnew hbound hencode hwithin

theorem foreign_fits : 50 + 10 < u64Bound := by
  rw [u64Bound_eq]
  decide

/-- A range of the artifact, checked against a descriptor that declares 100 bytes. -/
def foreignReference : TensorRef := ⟨.self, ⟨50, 10, foreign_fits⟩⟩

/-- What the writer makes of it for a registry that declares 10 bytes. -/
def foreignBytes : List UInt8 :=
  ((encodeProfile (.ofSelf 10) [(1, 0, foreignReference)]).toOption).getD []

/-- The writer accepts a binding that the reader of its bytes rejects. -/
theorem parseBytes_foreignBytes :
    SourceRegistry.new [.selfArtifact 10] = .ok (.ofSelf 10) ∧
      (SourceDescriptor.selfArtifact 100).tensorRef 50 10 = .ok foreignReference ∧
      encodeProfile (.ofSelf 10) [(1, 0, foreignReference)] = .ok foreignBytes ∧
      parseBytes foreignBytes =
        .error ⟨.malformedSourceMetadata, "source binding range is invalid"⟩ := by
  refine ⟨rfl, ?_, ?_, ?_⟩
  · decide +kernel
  · decide +kernel
  · decide +kernel

end SourceProfile

end VBuf.Ml
