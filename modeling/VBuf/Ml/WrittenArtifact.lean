import Mathlib.Data.List.Pairwise
import VBuf.Ml.Integrity
import VBuf.V06.RoundTrip

/-!
# Written artifacts

What the writer is told about bootstrap and integrity regions is found when the
finished stream is opened: the roles lead to the payloads of their calls, and a
sealed payload is verified.
-/

namespace VBuf.Ml

open VBuf.Lib VBuf.Layout VBuf.V06

/-- Items that all have a result have a list of results. -/
theorem exists_forall₂ {α β : Type} {R : α → β → Prop} {items : List α}
    (h : ∀ item ∈ items, ∃ result, R item result) : ∃ results, List.Forall₂ R items results := by
  induction items with
  | nil => exact ⟨[], List.Forall₂.nil⟩
  | cons item rest ih =>
      rw [List.forall_mem_cons] at h
      obtain ⟨result, hresult⟩ := h.1
      obtain ⟨results, hresults⟩ := ih h.2
      exact ⟨result :: results, List.Forall₂.cons hresult hresults⟩

/-- The index of the n-th key of that value. -/
def nthKey (keys : List UInt16) (keyId : UInt16) (occurrence : Nat) : Option Nat :=
  ((keys.zipIdx.filter fun pair => pair.1 = keyId)[occurrence]?).map Prod.snd

theorem nthOccurrence_eq_nthKey (blocks : List Block) (keyId occurrence : UInt16) :
    nthOccurrence blocks keyId occurrence =
      nthKey (blocks.map Block.keyId) keyId occurrence.toNat := by
  rw [nthKey, List.zipIdx_map, List.filter_map, List.getElem?_map, Option.map_map]
  rfl

/-- The call that a key and an occurrence name. -/
def writtenCall (calls : List BlockWrite) (keyId occurrence : UInt16) : Option BlockWrite :=
  (nthKey (calls.map fun call => call.options.keyId) keyId occurrence.toNat).bind
    fun index => calls[index]?

/-- An accepted stream whose blocks say what the calls said. -/
structure Validated.Writes (validated : Validated) (baseShift : Nat) (calls : List BlockWrite) :
    Prop where
  formed : WellFormed validated.bytes validated.header validated.blocks
  blocks : validated.blocks.map (Block.descriptor validated.bytes) =
    calls.map (BlockWrite.descriptor baseShift)

/-- The reader opens what the writer has finished. -/
theorem writes_of_writeStream {inner s : Sink} {baseShift : Nat} {mode : StreamMode}
    {calls : List BlockWrite} (hrun : Writer.writeStream inner baseShift mode calls = .ok s)
    (bytes : V06.ByteSlice) (hbytes : bytes.toList = s.data) :
    ∃ validated, parseV06 bytes.toList = .ok validated ∧
      Validated.Writes validated baseShift calls := by
  obtain ⟨hshift, -, hencodable, hdata, -, -⟩ := Writer.writeStream_eq_ok_iff.1 hrun
  have hlength := bytes.length_le
  have heq : bytes.toList = encodeStream baseShift mode calls := hbytes.trans hdata
  rw [heq] at hlength ⊢
  have hpow : 2 ^ baseShift ≤ 2 ^ 8 := Nat.pow_le_pow_right (by decide) hshift.2
  have hformed := @encodeStream_wellFormed baseShift mode calls hshift (by
    unfold isizeMax at hlength
    unfold u64Bound
    omega) hencodable
  exact ⟨⟨_, _, _⟩, parseV06_eq_ok_iff.2 ⟨rfl, hformed⟩, hformed,
    layoutBlocks_descriptor (encodeStream_holds baseShift mode calls).2.2⟩

namespace Validated.Writes

variable {validated : Validated} {baseShift : Nat} {calls : List BlockWrite}

theorem keys (h : Validated.Writes validated baseShift calls) :
    validated.blocks.map Block.keyId = calls.map fun call => call.options.keyId := by
  have hkeys := congrArg (List.map BlockDescriptor.keyId) h.blocks
  rwa [List.map_map, List.map_map] at hkeys

/-- The block of an index says what the call of that index said. -/
theorem getElem? (h : Validated.Writes validated baseShift calls) {index : Nat} {call : BlockWrite}
    (hcall : calls[index]? = some call) :
    ∃ block, validated.blocks[index]? = some block ∧
      block.descriptor validated.bytes = call.descriptor baseShift := by
  have hsame := congrArg (fun descriptors => descriptors[index]?) h.blocks
  simp only [List.getElem?_map, hcall, Option.map_some, Option.map_eq_some_iff] at hsame
  exact hsame

/-- The payload range of a block that says what a call said holds the payload of the call. -/
theorem payloadRange (h : Validated.Writes validated baseShift calls) {index : Nat} {block : Block}
    {call : BlockWrite} (hblock : validated.blocks[index]? = some block)
    (hsame : block.descriptor validated.bytes = call.descriptor baseShift) :
    ∃ range, validated.payloadRange index = .ok range ∧ range.bytes = call.payload := by
  obtain ⟨-, range, -, hrange, -⟩ := h.formed.payloadsInside index block hblock
  have hlength := (h.formed.blockAt (List.mem_of_getElem? hblock)).payloadEnd_eq
  refine ⟨range, hrange, ?_⟩
  rw [Validated.payloadRange_bytes hblock hlength hrange]
  exact congrArg BlockDescriptor.payload hsame

/-- A named call is found as the block of that name. -/
theorem named (h : Validated.Writes validated baseShift calls) {keyId occurrence : UInt16}
    {call : BlockWrite} (hcall : writtenCall calls keyId occurrence = some call) :
    ∃ index, nthOccurrence validated.blocks keyId occurrence = some index ∧
      calls[index]? = some call := by
  obtain ⟨index, hindex, hget⟩ := Option.bind_eq_some_iff.1 hcall
  exact ⟨index, by rw [nthOccurrence_eq_nthKey, h.keys, hindex], hget⟩

/-- A key that one call has is the key of one block. -/
theorem single (h : Validated.Writes validated baseShift calls) {keyId : UInt16} {call : BlockWrite}
    (hcall : (calls.filter fun call => call.options.keyId = keyId) = [call]) :
    ∃ block index, keyBlocks validated.blocks keyId = [(block, index)] ∧
      validated.blocks[index]? = some block ∧
      block.descriptor validated.bytes = call.descriptor baseShift := by
  have hfiltered := congrArg (List.filter fun descriptor => descriptor.keyId = keyId) h.blocks
  rw [List.filter_map, List.filter_map] at hfiltered
  have hcalls : calls.filter
      ((fun descriptor : BlockDescriptor => decide (descriptor.keyId = keyId)) ∘
      BlockWrite.descriptor baseShift) = [call] := hcall
  rw [hcalls, List.map_singleton] at hfiltered
  have hblocks : (keyBlocks validated.blocks keyId).map
      (fun pair => pair.1.descriptor validated.bytes) = [call.descriptor baseShift] := by
    rw [← hfiltered, keyBlocks]
    have hfst : (validated.blocks.zipIdx.filter (fun pair => pair.1.keyId = keyId)).map Prod.fst =
        validated.blocks.filter fun block => block.keyId = keyId := by
      conv_rhs => rw [← List.zipIdx_map_fst 0 validated.blocks, List.filter_map]
      rfl
    have hmap := congrArg (List.map (Block.descriptor validated.bytes)) hfst
    rw [List.map_map] at hmap
    exact hmap
  obtain ⟨pair, hpair, hsame⟩ := List.map_eq_singleton_iff.1 hblocks
  refine ⟨pair.1, pair.2, hpair, ?_, hsame⟩
  have hmem : pair ∈ keyBlocks validated.blocks keyId := by
    rw [hpair]
    exact List.mem_singleton_self pair
  exact List.mem_zipIdx_iff_getElem?.1 (List.mem_filter.1 hmem).1

end Validated.Writes

/-! ### The bootstrap -/

namespace Bootstrap

/-- The calls carry a bootstrap region that lists the roles. -/
structure Written (calls : List BlockWrite) (roles : List BootstrapEntry) : Prop where
  region : ∃ call, (calls.filter fun call => call.options.keyId = keyId) = [call] ∧
    call.semantic = .opaqueBytes ∧ call.bitWidth = 8 ∧ encodePayload roles = .ok call.payload
  optional : ∀ entry ∈ roles, RegionRole.fromId entry.roleId = none → entry.required = false
  required : ∀ entry ∈ roles, ∀ role, RegionRole.fromId entry.roleId = some role →
    entry.required = role.isRequired
  named : ∀ entry ∈ roles, (RegionRole.fromId entry.roleId).isSome →
    (writtenCall calls entry.keyId entry.occurrence).isSome
  distinct : (roles.filterMap fun entry => RegionRole.fromId entry.roleId).Nodup
  directory : RegionRole.tensorDirectory.id ∈ roles.map BootstrapEntry.roleId
  metadata : RegionRole.modelMetadata.id ∈ roles.map BootstrapEntry.roleId

/-- A region stands for a listed role and holds the payload of the call it names. -/
structure RegionOf (validated : Validated) (calls : List BlockWrite) (entry : BootstrapEntry)
    (region : SemanticRegion) : Prop where
  role : RegionRole.fromId entry.roleId = some region.role
  keyId : region.keyId = entry.keyId
  occurrence : region.occurrence = entry.occurrence
  call : ∃ call, writtenCall calls entry.keyId entry.occurrence = some call ∧
    calls[region.blockIndex]? = some call ∧ region.range.bytes = call.payload

theorem id_of_fromId {id : UInt16} {role : RegionRole} (h : RegionRole.fromId id = some role) :
    id = role.id := by
  have hid : id = UInt16.ofNat id.toNat := UInt16.ofNat_toNat.symm
  unfold RegionRole.fromId at h
  split at h <;> cases h <;> (rename_i hcode; rw [hid, hcode]; rfl)

variable {validated : Validated} {baseShift : Nat} {calls : List BlockWrite}

/-- A listed role is resolved to its region. -/
theorem discoverEntry_eq (h : Validated.Writes validated baseShift calls)
    {entry : BootstrapEntry} {regions : List SemanticRegion} {role : RegionRole}
    (hrole : RegionRole.fromId entry.roleId = some role)
    (hfresh : role ∉ regions.map SemanticRegion.role) (hrequired : entry.required = role.isRequired)
    (hnamed : (writtenCall calls entry.keyId entry.occurrence).isSome) :
    ∃ region, discoverEntry validated regions entry = .ok (regions ++ [region]) ∧
      region.role = role ∧ RegionOf validated calls entry region := by
  obtain ⟨call, hcall⟩ := Option.isSome_iff_exists.1 hnamed
  obtain ⟨index, hindex, hget⟩ := h.named hcall
  obtain ⟨block, hblock, hsame⟩ := h.getElem? hget
  obtain ⟨range, hrange, hbytes⟩ := h.payloadRange hblock hsame
  refine ⟨⟨role, entry.keyId, entry.occurrence, index, range⟩, ?_, rfl,
    ⟨hrole, rfl, rfl, call, hcall, hget, hbytes⟩⟩
  unfold discoverEntry
  rw [hrole]
  simp only [bind_eq_ok_iff, rejectIf_eq_ok_iff, okOr_eq_ok_iff, pure_eq_ok_iff, not_not, ofV06,
    mapErr_eq_ok_iff]
  exact ⟨(), hfresh, (), hrequired, index, hindex, range, hrange, rfl⟩

/-- The loop over the listed roles finds a region for each known one, and no other. -/
theorem discoverEntries_eq (h : Validated.Writes validated baseShift calls)
    {roles : List BootstrapEntry} {regions : List SemanticRegion}
    (hoptional : ∀ entry ∈ roles, RegionRole.fromId entry.roleId = none → entry.required = false)
    (hrequired : ∀ entry ∈ roles, ∀ role, RegionRole.fromId entry.roleId = some role →
      entry.required = role.isRequired)
    (hnamed : ∀ entry ∈ roles, (RegionRole.fromId entry.roleId).isSome →
      (writtenCall calls entry.keyId entry.occurrence).isSome)
    (hdistinct : (roles.filterMap fun entry => RegionRole.fromId entry.roleId).Nodup)
    (hfresh : ∀ entry ∈ roles, ∀ region ∈ regions, entry.roleId ≠ region.role.id) :
    ∃ found, roles.foldlM (discoverEntry validated) regions = .ok (regions ++ found) ∧
      (∀ region ∈ found, ∃ entry ∈ roles, RegionOf validated calls entry region) ∧
      ∀ entry ∈ roles, (RegionRole.fromId entry.roleId).isSome →
        ∃ region ∈ found, RegionOf validated calls entry region := by
  induction roles generalizing regions with
  | nil =>
      refine ⟨[], by rw [List.append_nil]; rfl, ?_, ?_⟩
      · intro region hmem
        cases hmem
      · intro entry hmem
        cases hmem
  | cons entry rest ih =>
      rw [List.forall_mem_cons] at hoptional hrequired hnamed hfresh
      rw [List.foldlM_cons]
      cases hrole : RegionRole.fromId entry.roleId with
      | none =>
          -- An unknown optional role is skipped.
          have hstep : discoverEntry validated regions entry = .ok regions := by
            unfold discoverEntry
            rw [hrole, hoptional.1 hrole]
            rfl
          simp only [List.filterMap_cons, hrole] at hdistinct
          obtain ⟨found, hfound, hfrom, hto⟩ := ih hoptional.2 hrequired.2 hnamed.2 hdistinct
            hfresh.2
          refine ⟨found, by rw [hstep]; exact hfound, ?_, ?_⟩
          · intro region hmem
            obtain ⟨other, hother, hregion⟩ := hfrom region hmem
            exact ⟨other, List.mem_cons_of_mem entry hother, hregion⟩
          · rw [List.forall_mem_cons]
            refine ⟨fun hsome => ?_, hto⟩
            rw [hrole] at hsome
            cases hsome
      | some role =>
          have hid := id_of_fromId hrole
          simp only [List.filterMap_cons, hrole, List.nodup_cons] at hdistinct
          have hnew : role ∉ regions.map SemanticRegion.role := by
            intro hmem
            obtain ⟨region, hregion, hsame⟩ := List.mem_map.1 hmem
            refine hfresh.1 region hregion ?_
            rw [hid, hsame]
          obtain ⟨first, hstep, hfirst, hregion⟩ := discoverEntry_eq h hrole hnew
            (hrequired.1 role hrole) (hnamed.1 (by rw [hrole]; rfl))
          obtain ⟨found, hfound, hfrom, hto⟩ := @ih (regions ++ [first]) hoptional.2 hrequired.2
            hnamed.2 hdistinct.2 (by
              intro other hother region hmem
              rcases List.mem_append.1 hmem with hold | hlast
              · exact hfresh.2 other hother region hold
              · obtain rfl := List.mem_singleton.1 hlast
                rw [hfirst, ← hid]
                intro hsame
                exact hdistinct.1 (List.mem_filterMap.2 ⟨other, hother, hsame ▸ hrole⟩))
          refine ⟨first :: found, ?_, ?_, ?_⟩
          · rw [hstep]
            refine hfound.trans ?_
            rw [List.append_assoc, List.singleton_append]
          · rw [List.forall_mem_cons]
            refine ⟨⟨entry, List.mem_cons_self, hregion⟩, fun region hmem => ?_⟩
            obtain ⟨other, hother, hsame⟩ := hfrom region hmem
            exact ⟨other, List.mem_cons_of_mem entry hother, hsame⟩
          · rw [List.forall_mem_cons]
            refine ⟨fun _ => ⟨first, List.mem_cons_self, hregion⟩, fun other hother hsome => ?_⟩
            obtain ⟨region, hmem, hsame⟩ := hto other hother hsome
            exact ⟨region, List.mem_cons_of_mem first hmem, hsame⟩

/-- A written bootstrap is discovered: each listed role leads to the payload of its call, and a
role that is not listed has no region. -/
theorem discover_of_writes (h : Validated.Writes validated baseShift calls)
    {roles : List BootstrapEntry} (hwritten : Written calls roles) :
    ∃ bootstrap, discover validated = .ok bootstrap ∧
      (∀ entry ∈ roles, ∀ role, RegionRole.fromId entry.roleId = some role →
        ∃ region, bootstrap.region role = some region ∧ RegionOf validated calls entry region) ∧
      ∀ role : RegionRole, role.id ∉ roles.map BootstrapEntry.roleId →
        bootstrap.region role = none := by
  obtain ⟨call, hsingle, hsemantic, hwidth, hpayload⟩ := hwritten.region
  obtain ⟨block, index, hkey, hblock, hsame⟩ := h.single hsingle
  obtain ⟨payload, hrange, hbytes⟩ := h.payloadRange hblock hsame
  obtain ⟨found, hfound, hfrom, hto⟩ := @discoverEntries_eq _ _ _ h roles [] hwritten.optional
    hwritten.required hwritten.named hwritten.distinct (fun _ _ _ hmem => by cases hmem)
  rw [List.nil_append] at hfound
  -- A listed role has a region, and the regions of one role stand for one entry.
  have hregion : ∀ entry ∈ roles, ∀ role, RegionRole.fromId entry.roleId = some role →
      ∃ region, (Bootstrap.mk profileVersionSupported found).region role = some region ∧
        RegionOf validated calls entry region := by
    intro entry hentry role hrole
    obtain ⟨first, hfirst, hof⟩ := hto entry hentry (by rw [hrole]; rfl)
    have hsome : ((Bootstrap.mk profileVersionSupported found).region role).isSome = true := by
      rw [region, List.find?_isSome]
      refine ⟨first, hfirst, ?_⟩
      rw [decide_eq_true_eq]
      exact Option.some.inj (hof.role.symm.trans hrole)
    obtain ⟨region, hfind⟩ := Option.isSome_iff_exists.1 hsome
    have hrole' : region.role = role := by simpa using List.find?_some hfind
    obtain ⟨other, hother, hof'⟩ := hfrom region (List.mem_of_find?_eq_some hfind)
    have hsymm : Std.Symm fun a b : BootstrapEntry => ∀ role,
        RegionRole.fromId a.roleId = some role → ∀ role', RegionRole.fromId b.roleId = some role' →
          role ≠ role' :=
      ⟨fun a b h role ha role' hb => (h role' hb role ha).symm⟩
    have hsame : other = entry := by
      by_contra hne
      exact (List.pairwise_filterMap.1 hwritten.distinct).forall hother hentry hne _ hof'.role _
        hrole hrole'
    rw [← hsame]
    exact ⟨region, hfind, hof'⟩
  have hlisted : ∀ role : RegionRole, role.id ∈ roles.map BootstrapEntry.roleId →
      role ∈ found.map SemanticRegion.role := by
    intro role hmem
    obtain ⟨entry, hentry, hid⟩ := List.mem_map.1 hmem
    obtain ⟨region, hmem', hof⟩ := hto entry hentry (by rw [hid, RegionRole.fromId_id]; rfl)
    refine List.mem_map.2 ⟨region, hmem', ?_⟩
    have hrole := hof.role
    rw [hid, RegionRole.fromId_id] at hrole
    exact (Option.some.inj hrole).symm
  refine ⟨⟨profileVersionSupported, found⟩, ?_, hregion, ?_⟩
  · unfold discover
    rw [hkey]
    simp only [bind_eq_ok_iff, rejectIf_eq_ok_iff, okOr_eq_ok_iff, pure_eq_ok_iff, not_or, not_not,
      ofV06, mapErr_eq_ok_iff, Prod.exists]
    have hsemantic' : block.semantic = .opaqueBytes :=
      (congrArg BlockDescriptor.semantic hsame).trans hsemantic
    have hwidth' : block.bitWidth = 8 := (congrArg BlockDescriptor.bitWidth hsame).trans hwidth
    refine ⟨index, rfl, block, hblock, (), ⟨hsemantic', hwidth'⟩, payload, hrange,
      profileVersionSupported, roles, ?_, found, hfound, (), ?_, rfl⟩
    · rw [hbytes]
      exact parsePayload_encodePayload hpayload
    · exact ⟨hlisted _ hwritten.directory, hlisted _ hwritten.metadata⟩
  · intro role hnone
    rw [region, List.find?_eq_none]
    intro region hmem hrole
    rw [decide_eq_true_eq] at hrole
    obtain ⟨entry, hentry, hof⟩ := hfrom region hmem
    refine hnone (List.mem_map.2 ⟨entry, hentry, ?_⟩)
    rw [id_of_fromId hof.role, hrole]

/-- The roles that the writer was given are the regions that are discovered. -/
theorem discover_writeStream {inner s : Sink} {mode : StreamMode} {roles : List BootstrapEntry}
    (hrun : Writer.writeStream inner baseShift mode calls = .ok s) (bytes : V06.ByteSlice)
    (hbytes : bytes.toList = s.data) (hwritten : Written calls roles) :
    ∃ validated bootstrap, parseV06 bytes.toList = .ok validated ∧
      discover validated = .ok bootstrap ∧
      (∀ entry ∈ roles, ∀ role, RegionRole.fromId entry.roleId = some role →
        ∃ region, bootstrap.region role = some region ∧ RegionOf validated calls entry region) ∧
      ∀ role : RegionRole, role.id ∉ roles.map BootstrapEntry.roleId →
        bootstrap.region role = none := by
  obtain ⟨validated, hparse, hwrites⟩ := writes_of_writeStream hrun bytes hbytes
  obtain ⟨bootstrap, hdiscover, hregions⟩ := discover_of_writes hwrites hwritten
  exact ⟨validated, bootstrap, hparse, hdiscover, hregions⟩

end Bootstrap

/-! ### The seal -/

namespace IntegrityMetadata

variable {sha256 : List UInt8 → Digest}

/-- The calls carry the digests of payloads that they also write. -/
structure Sealed (sha256 : List UInt8 → Digest) (calls : List BlockWrite)
    (roles : List BootstrapEntry) (entries : List IntegrityEntry) : Prop where
  written : Bootstrap.Written calls roles
  region : ∃ role ∈ roles, role.roleId = RegionRole.integrityMetadata.id ∧
    ∃ call, writtenCall calls role.keyId role.occurrence = some call ∧
      call.semantic = .opaqueBytes ∧ call.options.physical = .array ∧ call.bitWidth = 8 ∧
      call.options.continuation = false ∧ encodePayload entries = .ok call.payload
  digests : ∀ entry ∈ entries, ∃ call,
    writtenCall calls entry.keyId entry.occurrence = some call ∧
      call.options.continuation = false ∧ entry.digest = sha256 call.payload

/-- An entry that names a written call is resolved. -/
theorem resolved_of_writes {validated : Validated} {baseShift : Nat} {calls : List BlockWrite}
    (h : Validated.Writes validated baseShift calls) {entry : IntegrityEntry} {call : BlockWrite}
    (hcall : writtenCall calls entry.keyId entry.occurrence = some call)
    (hwhole : call.options.continuation = false) :
    ∃ record, Resolved validated entry record ∧ record.range.bytes = call.payload := by
  obtain ⟨index, hindex, hget⟩ := h.named hcall
  obtain ⟨block, hblock, hsame⟩ := h.getElem? hget
  obtain ⟨range, hrange, hbytes⟩ := h.payloadRange hblock hsame
  refine ⟨⟨entry.keyId, entry.occurrence, index, range, entry.digest⟩, ?_, hbytes⟩
  exact ⟨rfl, rfl, rfl, hindex, hrange, block, hblock,
    (congrArg BlockDescriptor.continuation hsame).trans hwhole⟩

/-- The metadata of a sealed artifact lists the digests of what was written. -/
theorem discover_of_sealed {validated : Validated} {baseShift : Nat} {calls : List BlockWrite}
    {roles : List BootstrapEntry} {entries : List IntegrityEntry}
    (h : Validated.Writes validated baseShift calls) (hsealed : Sealed sha256 calls roles entries) :
    ∃ bootstrap metadata, Bootstrap.discover validated = .ok bootstrap ∧
      discover validated bootstrap = .ok (some metadata) ∧
      Listed validated bootstrap (ordered entries) := by
  obtain ⟨bootstrap, hbootstrap, hregions, -⟩ := Bootstrap.discover_of_writes h hsealed.written
  obtain ⟨role, hrole, hid, call, hcall, htype⟩ := hsealed.region
  obtain ⟨hsemantic, hphysical, hwidth, hwhole, hencode⟩ := htype
  obtain ⟨hsorted, hmax, hlisting⟩ := encodePayload_eq_ok_iff.1 hencode
  obtain ⟨region, hregion, hof⟩ := hregions role hrole .integrityMetadata (by
    rw [hid, RegionRole.fromId_id])
  obtain ⟨other, hother, hget, hbytes⟩ := hof.call
  cases hcall.symm.trans hother
  obtain ⟨block, hblock, hsame⟩ := h.getElem? hget
  have hlisted : Listed validated bootstrap (ordered entries) := by
    refine ⟨⟨region, hregion, hbytes.trans hlisting, block, hblock, ?_⟩, ?_, hsorted⟩
    · exact ⟨(congrArg BlockDescriptor.semantic hsame).trans hsemantic,
        (congrArg BlockDescriptor.physical hsame).trans hphysical,
        (congrArg BlockDescriptor.bitWidth hsame).trans hwidth,
        (congrArg BlockDescriptor.continuation hsame).trans hwhole⟩
    · rwa [(ordered_perm entries).length_eq]
  have hresolved : ∀ entry ∈ ordered entries, ∃ record, Resolved validated entry record := by
    intro entry hmem
    obtain ⟨target, htarget, hwhole', -⟩ :=
      hsealed.digests entry ((ordered_perm entries).mem_iff.1 hmem)
    obtain ⟨record, hrecord, -⟩ := resolved_of_writes h htarget hwhole'
    exact ⟨record, hrecord⟩
  obtain ⟨records, hrecords⟩ := exists_forall₂ hresolved
  exact ⟨bootstrap, ⟨records⟩, hbootstrap,
    discover_eq_ok_some_iff.2 ⟨ordered entries, hlisted, hrecords⟩, hlisted⟩

/-- The payload that a call wrote is the one of that name. -/
theorem namedPayload_of_writes {validated : Validated} {baseShift : Nat} {calls : List BlockWrite}
    (h : Validated.Writes validated baseShift calls) {keyId occurrence : UInt16}
    {call : BlockWrite} (hcall : writtenCall calls keyId occurrence = some call) :
    namedPayload validated keyId occurrence = some call.payload := by
  obtain ⟨index, hindex, hget⟩ := h.named hcall
  obtain ⟨block, hblock, hsame⟩ := h.getElem? hget
  rw [namedPayload, TensorDirectory.namedBlock, hindex, Option.bind_some, hblock, Option.map_some]
  exact congrArg (fun descriptor => some (BlockDescriptor.payload descriptor)) hsame

/-- The two payloads are the same, or they collide. -/
def SameOrCollision (sha256 : List UInt8 → Digest) (a b : List UInt8) : Prop :=
  a = b ∨ a ≠ b ∧ sha256 a = sha256 b

/-- Every sealed payload of a written artifact is verified; and in every artifact that carries the
same list, a verified target is the payload that was sealed, unless the two collide. -/
theorem sealed_verified {inner s : Sink} {baseShift : Nat} {mode : StreamMode}
    {calls : List BlockWrite} {roles : List BootstrapEntry} {entries : List IntegrityEntry}
    (hrun : Writer.writeStream inner baseShift mode calls = .ok s) (bytes : V06.ByteSlice)
    (hbytes : bytes.toList = s.data) (hsealed : Sealed sha256 calls roles entries) :
    (∃ validated bootstrap metadata, parseV06 bytes.toList = .ok validated ∧
      Bootstrap.discover validated = .ok bootstrap ∧
      discover validated bootstrap = .ok (some metadata) ∧
      ∀ entry ∈ entries, verifyTarget sha256 metadata entry.keyId entry.occurrence = .ok ()) ∧
    ∀ bytes' validated' bootstrap' metadata', parseV06 bytes' = .ok validated' →
      discover validated' bootstrap' = .ok (some metadata') →
      Listed validated' bootstrap' (ordered entries) →
      ∀ entry ∈ entries, verifyTarget sha256 metadata' entry.keyId entry.occurrence = .ok () →
        ∃ call payload, writtenCall calls entry.keyId entry.occurrence = some call ∧
          namedPayload validated' entry.keyId entry.occurrence = some payload ∧
          SameOrCollision sha256 payload call.payload := by
  constructor
  · obtain ⟨validated, hparse, hwrites⟩ := writes_of_writeStream hrun bytes hbytes
    obtain ⟨bootstrap, metadata, hbootstrap, hdiscover, hlisted⟩ :=
      discover_of_sealed hwrites hsealed
    refine ⟨validated, bootstrap, metadata, hparse, hbootstrap, hdiscover, ?_⟩
    intro entry hmem
    obtain ⟨call, hcall, -, hdigest⟩ := hsealed.digests entry hmem
    obtain ⟨payload, hpayload, hverdict⟩ := verdict_of_listed sha256 hparse hdiscover hlisted
      ((ordered_perm entries).mem_iff.2 hmem)
    rw [namedPayload_of_writes hwrites hcall] at hpayload
    cases hpayload
    rw [hverdict, verdict, hdigest, rejectIf_eq_ok_iff]
    exact fun hne => hne rfl
  · intro bytes' validated' bootstrap' metadata' hparse hdiscover hlisted entry hmem hverified
    obtain ⟨call, hcall, -, hdigest⟩ := hsealed.digests entry hmem
    obtain ⟨payload, hpayload, hverdict⟩ := verdict_of_listed sha256 hparse hdiscover hlisted
      ((ordered_perm entries).mem_iff.2 hmem)
    rw [hverdict, verdict, rejectIf_eq_ok_iff, not_not, hdigest] at hverified
    refine ⟨call, payload, hcall, hpayload, ?_⟩
    by_cases hsame : payload = call.payload
    · exact Or.inl hsame
    · exact Or.inr ⟨hsame, hverified⟩

/-- A bootstrap of a tensor directory, a metadata region and integrity metadata. -/
def sealedRoles : List BootstrapEntry := [⟨1, true, 1, 0⟩, ⟨2, true, 2, 0⟩, ⟨4, false, 4, 0⟩]

/-- The SHA-256 digest of the bytes `abc`. -/
def abcDigest : Digest where
  bytes := [186, 120, 22, 191, 143, 1, 207, 234, 65, 65, 64, 222, 93, 174, 34, 35, 176, 3, 97, 163,
    150, 23, 122, 156, 180, 16, 255, 97, 242, 0, 21, 173]
  width := rfl

/-- SHA-256 at the bytes `abc`. -/
def abcSha256 (bytes : List UInt8) : Digest :=
  if bytes = [97, 98, 99] then abcDigest else Digest.ofSlice []

def sealedEntries : List IntegrityEntry := [⟨3, 0, abcDigest⟩]

def sealedBootstrap : List UInt8 := ((Bootstrap.encodePayload sealedRoles).toOption).getD []

def sealedListing : List UInt8 := ((encodePayload sealedEntries).toOption).getD []

/-- An artifact whose one payload is sealed. -/
def sealedCalls : List BlockWrite :=
  [TensorDirectory.arrayCall 0xF000 .opaqueBytes 8 sealedBootstrap.length sealedBootstrap,
   TensorDirectory.arrayCall 1 .opaqueBytes 8 0 [],
   TensorDirectory.arrayCall 2 .opaqueBytes 8 0 [],
   TensorDirectory.arrayCall 3 .opaqueBytes 8 3 [97, 98, 99],
   TensorDirectory.arrayCall 4 .opaqueBytes 8 sealedListing.length sealedListing]

/-- The sink behind the run that writes it. -/
def sealedSink : Sink :=
  (Writer.writeStream (exampleSink [] (by decide)) 3 .knownSize sealedCalls).toOption.get
    (by decide +kernel)

theorem sealedSink_eq :
    Writer.writeStream (exampleSink [] (by decide)) 3 .knownSize sealedCalls = .ok sealedSink :=
  eq_ok_get _

def sealedBytes : V06.ByteSlice := ⟨sealedSink.data, by decide +kernel⟩

theorem sealedCalls_written : Bootstrap.Written sealedCalls sealedRoles := by
  refine ⟨⟨_, rfl, rfl, rfl, by decide +kernel⟩, ?_, ?_, ?_, by decide, by decide, by decide⟩
  all_goals decide +kernel

theorem sealedCalls_sealed : Sealed abcSha256 sealedCalls sealedRoles sealedEntries := by
  refine
    ⟨sealedCalls_written, ⟨⟨4, false, 4, 0⟩, by decide, rfl, _, rfl, rfl, rfl, rfl, rfl, ?_⟩, ?_⟩
  · decide +kernel
  · intro entry hmem
    obtain rfl := List.mem_singleton.1 hmem
    exact ⟨_, rfl, rfl, by decide +kernel⟩

theorem sealed_verified_abc :
    ∃ validated bootstrap metadata, parseV06 sealedBytes.toList = .ok validated ∧
      Bootstrap.discover validated = .ok bootstrap ∧
      discover validated bootstrap = .ok (some metadata) ∧
      ∀ entry ∈ sealedEntries,
        verifyTarget abcSha256 metadata entry.keyId entry.occurrence = .ok () :=
  (sealed_verified sealedSink_eq sealedBytes rfl sealedCalls_sealed).1

def sealedView : Validated := (parseV06 sealedBytes.toList).toOption.get (by decide +kernel)

def sealedRegions : Bootstrap := (Bootstrap.discover sealedView).toOption.get (by decide +kernel)

def sealedFound : Option IntegrityMetadata :=
  (discover sealedView sealedRegions).toOption.get (by decide +kernel)

def sealedMetadata : IntegrityMetadata := sealedFound.get (by decide +kernel)

theorem sealedMetadata_eq : discover sealedView sealedRegions = .ok (some sealedMetadata) := by
  rw [sealedMetadata, Option.some_get]
  exact eq_ok_get _

theorem verifyTarget_exact_abc :
    ∃ entries, Listed sealedView sealedRegions entries ∧
      (∀ entry ∈ entries, ∃ payload,
        namedPayload sealedView entry.keyId entry.occurrence = some payload ∧
          verifyTarget abcSha256 sealedMetadata entry.keyId entry.occurrence =
            verdict abcSha256 payload entry.digest) ∧
      ∀ keyId occurrence,
        (∀ entry ∈ entries, ¬ (entry.keyId = keyId ∧ entry.occurrence = occurrence)) →
          verifyTarget abcSha256 sealedMetadata keyId occurrence =
            .error ⟨.noIntegrityAvailable, "no integrity record covers target"⟩ :=
  verifyTarget_exact abcSha256 (eq_ok_get _) sealedMetadata_eq

theorem discover_writeStream_sealed :
    ∃ validated bootstrap, parseV06 sealedBytes.toList = .ok validated ∧
      Bootstrap.discover validated = .ok bootstrap ∧
      (∀ entry ∈ sealedRoles, ∀ role, RegionRole.fromId entry.roleId = some role →
        ∃ region, bootstrap.region role = some region ∧
          Bootstrap.RegionOf validated sealedCalls entry region) ∧
      ∀ role : RegionRole, role.id ∉ sealedRoles.map BootstrapEntry.roleId →
        bootstrap.region role = none :=
  Bootstrap.discover_writeStream sealedSink_eq sealedBytes rfl sealedCalls_written

end IntegrityMetadata

end VBuf.Ml
