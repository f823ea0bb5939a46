import VBuf.Ml.Nested
import VBuf.Ml.PayloadPaths

/-!
# Overlapping children

The overlap test compares offsets that are relative to parent blocks.  Within one
block it is exact; between two blocks the children never share a byte, and the test
may still report an overlap.
-/

namespace VBuf.Ml.NestedDirectory

open VBuf.Lib VBuf.Layout VBuf.V06

/-- Everything about an entry that `parse` checks on its own. -/
structure Admissible (parent : Validated) (entry : NestedEntry) (index : Nat) (target : Block)
    (child : NestedChild) : Prop where
  named : nthOccurrence parent.blocks entry.keyId entry.occurrence = some index
  block : parent.blocks[index]? = some target
  nonempty : 0 < entry.childLength
  fits : entry.childOffset + entry.childLength < u64Bound
  inside : entry.childOffset + entry.childLength ≤ target.payloadLen
  canonical : readChild parent index entry = .ok child

/-- The entries are valid but for overlaps: sorted, and each admissible. -/
def OtherwiseValid (parent : Validated) (entries : List NestedEntry) : Prop :=
  entries.Pairwise (fun a b => byteKey a.name < byteKey b.name) ∧
    ∀ entry ∈ entries, ∃ index target child, Admissible parent entry index target child

/-- A byte of the artifact belongs to the child of an entry. -/
def HoldsByte (parent : Validated) (entry : NestedEntry) (position : Nat) : Prop :=
  ∃ index target, nthOccurrence parent.blocks entry.keyId entry.occurrence = some index ∧
    parent.blocks[index]? = some target ∧ target.payloadStart + entry.childOffset ≤ position ∧
    position < target.payloadStart + entry.childOffset + entry.childLength

/-- Two children have a byte of the artifact in common. -/
def ShareByte (parent : Validated) (a b : NestedEntry) : Prop :=
  ∃ position, HoldsByte parent a position ∧ HoldsByte parent b position

/-- Two entries name one parent block. -/
def SameBlock (parent : Validated) (a b : NestedEntry) : Prop :=
  nthOccurrence parent.blocks a.keyId a.occurrence =
    nthOccurrence parent.blocks b.keyId b.occurrence

/-- The ranges of two entries intersect, each relative to its parent block. -/
def Intersect (a b : NestedEntry) : Prop :=
  b.childOffset < a.childOffset + a.childLength ∧ a.childOffset < b.childOffset + b.childLength

/-- Some two entries of the list are related. -/
def SomePair (R : NestedEntry → NestedEntry → Prop) (entries : List NestedEntry) : Prop :=
  ∃ a b, [a, b].Sublist entries ∧ R a b

variable {parent : Validated} {entry : NestedEntry} {entries : List NestedEntry}

theorem somePair_cons {R : NestedEntry → NestedEntry → Prop} :
    SomePair R (entry :: entries) ↔ (∃ b ∈ entries, R entry b) ∨ SomePair R entries := by
  constructor
  · rintro ⟨a, b, hsub, hR⟩
    rcases List.sublist_cons_iff.1 hsub with hrest | ⟨_, heq, hrest⟩
    · exact .inr ⟨a, b, hrest, hR⟩
    · cases heq
      exact .inl ⟨b, List.singleton_sublist.1 hrest, hR⟩
  · rintro (⟨b, hmem, hR⟩ | ⟨a, b, hsub, hR⟩)
    · exact ⟨entry, b, (List.singleton_sublist.2 hmem).cons_cons entry, hR⟩
    · exact ⟨a, b, hsub.cons entry, hR⟩

/-! ### The loop -/

/-- The range of an entry meets one that was seen. -/
def Meets (occupied : List (Nat × Nat)) (entry : NestedEntry) : Prop :=
  ∃ range ∈ occupied,
    entry.childOffset < range.2 ∧ range.1 < entry.childOffset + entry.childLength

theorem meets_append {occupied : List (Nat × Nat)} {b : NestedEntry} :
    Meets (occupied ++ [(entry.childOffset, entry.childOffset + entry.childLength)]) b ↔
      Meets occupied b ∨ Intersect entry b := by
  unfold Meets Intersect
  constructor
  · rintro ⟨range, hmem, hmeets⟩
    rcases List.mem_append.1 hmem with hold | hnew
    · exact .inl ⟨range, hold, hmeets⟩
    · obtain rfl := List.mem_singleton.1 hnew
      exact .inr hmeets
  · rintro (⟨range, hmem, hmeets⟩ | hmeets)
    · exact ⟨range, List.mem_append_left _ hmem, hmeets⟩
    · exact ⟨_, List.mem_append_right _ List.mem_cons_self, hmeets⟩

/-- One admissible entry passes every check but that of overlaps. -/
theorem parseChildren_cons {previous : Option String} {occupied : List (Nat × Nat)}
    {index : Nat} {target : Block} {child : NestedChild}
    (h : Admissible parent entry index target child)
    (hprevious : ∀ name ∈ previous, byteKey name < byteKey entry.name) :
    parseChildren parent previous occupied (entry :: entries) =
      (rejectIf (∃ range ∈ occupied, entry.childOffset < range.2 ∧
          range.1 < entry.childOffset + entry.childLength) overlapError >>= fun _ =>
        parseChildren parent (some entry.name)
          (occupied ++ [(entry.childOffset, entry.childOffset + entry.childLength)]) entries >>=
          fun children => pure (child :: children)) := by
  have horder : ¬ ∃ name ∈ previous, byteKey entry.name ≤ byteKey name := by
    rintro ⟨name, hname, hle⟩
    exact absurd (hprevious name hname) (not_lt.2 hle)
  have htarget : findTarget parent entry = .ok (index, target) := by
    simp only [findTarget, bind_eq_ok_iff, okOr_eq_ok_iff, pure_eq_ok_iff]
    exact ⟨index, h.named, target, h.block, rfl⟩
  have hfits : ¬ u64Bound ≤ entry.childOffset + entry.childLength := Nat.not_le.2 h.fits
  have hinside : ¬ (entry.childLength = 0 ∨
      target.payloadLen < entry.childOffset + entry.childLength) := by
    have hpos := h.nonempty
    have hle := h.inside
    omega
  rw [parseChildren, htarget, rejectIf, if_neg horder]
  show (rejectIf _ _ >>= fun _ => _) = _
  rw [rejectIf, if_neg hfits]
  show (rejectIf _ _ >>= fun _ => _) = _
  rw [rejectIf, if_neg hinside]
  show (rejectIf _ _ >>= fun _ => readChild parent index entry >>= _) = _
  rw [h.canonical]
  rfl

/-- The loop reports an overlap when a range meets one that was seen, or another of
the list. -/
theorem parseChildren_eq_overlap_iff {previous : Option String} {occupied : List (Nat × Nat)}
    (hsorted : entries.Pairwise (fun a b => byteKey a.name < byteKey b.name))
    (hprevious : ∀ name ∈ previous, ∀ entry ∈ entries, byteKey name < byteKey entry.name)
    (hvalid : ∀ entry ∈ entries, ∃ index target child, Admissible parent entry index target child) :
    parseChildren parent previous occupied entries = .error overlapError ↔
      (∃ entry ∈ entries, Meets occupied entry) ∨ SomePair Intersect entries := by
  induction entries generalizing previous occupied with
  | nil =>
      constructor
      · intro h
        cases h
      · rintro (⟨entry, hmem, -⟩ | ⟨a, b, hsub, -⟩)
        · exact absurd hmem List.not_mem_nil
        · exact absurd hsub.length_le (by simp)
  | cons entry rest ih =>
      rw [List.forall_mem_cons] at hvalid
      obtain ⟨⟨index, target, child, hadmissible⟩, hrest⟩ := hvalid
      obtain ⟨hfirst, hstrict⟩ := List.pairwise_cons.1 hsorted
      have hbefore : ∀ name ∈ some entry.name, ∀ other ∈ rest,
          byteKey name < byteKey other.name := by
        intro name hname other hother
        obtain rfl := Option.mem_some_iff.1 hname
        exact hfirst other hother
      have hnext := @ih (some entry.name)
        (occupied ++ [(entry.childOffset, entry.childOffset + entry.childLength)])
        hstrict hbefore hrest
      rw [parseChildren_cons hadmissible (fun name hname =>
        hprevious name hname entry List.mem_cons_self), somePair_cons, List.exists_mem_cons_iff]
      by_cases hmeets : Meets occupied entry
      · have hmeets' : ∃ range ∈ occupied, entry.childOffset < range.2 ∧
            range.1 < entry.childOffset + entry.childLength := hmeets
        rw [rejectIf, if_pos hmeets']
        exact ⟨fun _ => .inl (.inl hmeets), fun _ => rfl⟩
      · have hmeets' : ¬ ∃ range ∈ occupied, entry.childOffset < range.2 ∧
            range.1 < entry.childOffset + entry.childLength := hmeets
        rw [rejectIf, if_neg hmeets']
        simp only [meets_append] at hnext
        have hbind : ∀ result : Except MlError (List NestedChild),
            (result >>= fun children => pure (child :: children)) = .error overlapError ↔
              result = .error overlapError := by
          intro result
          cases result with
          | error error => exact Iff.rfl
          | ok children => exact ⟨fun h => (by cases h), fun h => (by cases h)⟩
        show (parseChildren _ _ _ _ >>= fun children => pure (child :: children)) = _ ↔ _
        rw [hbind, hnext]
        constructor
        · rintro (⟨other, hmem, hold | hpair⟩ | hsome)
          · exact .inl (.inr ⟨other, hmem, hold⟩)
          · exact .inr (.inl ⟨other, hmem, hpair⟩)
          · exact .inr (.inr hsome)
        · rintro ((hnow | ⟨other, hmem, hold⟩) | (⟨other, hmem, hpair⟩ | hsome))
          · exact absurd hnow hmeets
          · exact .inl ⟨other, hmem, .inl hold⟩
          · exact .inl ⟨other, hmem, .inr hpair⟩
          · exact .inr hsome

/-! ### Bytes of the artifact -/

/-- Payloads of different blocks stand apart. -/
theorem payloads_apart (hwell : WellFormed parent.bytes parent.header parent.blocks) {i j : Nat}
    {first second : Block} (hij : i < j) (hfirst : parent.blocks[i]? = some first)
    (hsecond : parent.blocks[j]? = some second) :
    first.payloadStart + first.payloadLen ≤ second.payloadStart := by
  obtain ⟨range, payload, hrange, hpayload, -, hstop, -⟩ := hwell.payloadsInside i first hfirst
  obtain ⟨range', payload', hrange', hpayload', hoffset, -, -⟩ :=
    hwell.payloadsInside j second hsecond
  have happart := hwell.tilesDataRegion.increasing hij hrange hrange'
  obtain ⟨block, hblock, -, -, hend⟩ := Validated.payloadRange_eq_ok_iff.1 hpayload
  obtain ⟨block', hblock', -, hstart, -⟩ := Validated.payloadRange_eq_ok_iff.1 hpayload'
  rw [hfirst] at hblock
  rw [hsecond] at hblock'
  cases hblock
  cases hblock'
  have hlength := (hwell.blockAt (List.mem_of_getElem? hfirst)).payloadEnd_eq
  omega

/-- Two children share a byte exactly when they name one block and their ranges in
it intersect. -/
theorem shareByte_iff (hwell : WellFormed parent.bytes parent.header parent.blocks)
    {a b : NestedEntry} {i j : Nat} {first second : Block} {child child' : NestedChild}
    (ha : Admissible parent a i first child) (hb : Admissible parent b j second child') :
    ShareByte parent a b ↔ SameBlock parent a b ∧ Intersect a b := by
  have hapos := ha.nonempty
  have hbpos := hb.nonempty
  have hain := ha.inside
  have hbin := hb.inside
  unfold SameBlock Intersect
  rw [ha.named, hb.named, Option.some.injEq]
  constructor
  · rintro ⟨position, ⟨i', first', hi, hblock, hlow, hhigh⟩, ⟨j', second', hj, hblock', hlow',
      hhigh'⟩⟩
    rw [ha.named] at hi
    rw [hb.named] at hj
    cases hi
    cases hj
    rw [ha.block] at hblock
    rw [hb.block] at hblock'
    cases hblock
    cases hblock'
    rcases Nat.lt_trichotomy i j with hlt | rfl | hgt
    · have happart := payloads_apart hwell hlt ha.block hb.block
      omega
    · have hsame : first = second := Option.some.inj (ha.block.symm.trans hb.block)
      subst hsame
      exact ⟨rfl, by omega⟩
    · have happart := payloads_apart hwell hgt hb.block ha.block
      omega
  · rintro ⟨rfl, hbefore, hafter⟩
    have hsame : first = second := Option.some.inj (ha.block.symm.trans hb.block)
    subst hsame
    refine ⟨first.payloadStart + max a.childOffset b.childOffset,
      ⟨i, first, ha.named, ha.block, ?_, ?_⟩, ⟨i, first, hb.named, hb.block, ?_, ?_⟩⟩ <;> omega

/-- Entries that are otherwise valid are reported as overlapping exactly when two of
them share a byte of the artifact, if and only if two children of one block
intersect, or no two children of different blocks have ranges that intersect. -/
theorem parse_overlap_iff {bytes : List UInt8} {bootstrap : Bootstrap}
    (hparent : parseV06 bytes = .ok parent) (hentries : parseEntries parent bootstrap = .ok entries)
    (hvalid : OtherwiseValid parent entries) :
    (parse parent bootstrap = .error overlapError ↔ SomePair (ShareByte parent) entries) ↔
      SomePair (fun a b => SameBlock parent a b ∧ Intersect a b) entries ∨
        ¬ SomePair (fun a b => ¬ SameBlock parent a b ∧ Intersect a b) entries := by
  obtain ⟨rfl, hwell⟩ := parseV06_eq_ok_iff.1 hparent
  obtain ⟨hsorted, hall⟩ := hvalid
  have hparse : parse parent bootstrap = parseChildren parent none [] entries := by
    rw [parse, hentries]
    rfl
  have hnone : ¬ ∃ entry ∈ entries, Meets [] entry := by
    rintro ⟨entry, -, range, hmem, -⟩
    exact List.not_mem_nil hmem
  have hoverlap := @parseChildren_eq_overlap_iff parent entries none [] hsorted
    (fun _ hname => by cases hname) hall
  rw [or_iff_right hnone] at hoverlap
  have hshare : SomePair (ShareByte parent) entries ↔
      SomePair (fun a b => SameBlock parent a b ∧ Intersect a b) entries := by
    unfold SomePair
    constructor
    · rintro ⟨a, b, hsub, hshare⟩
      obtain ⟨i, first, child, ha⟩ := hall a (hsub.subset (by simp))
      obtain ⟨j, second, child', hb⟩ := hall b (hsub.subset (by simp))
      exact ⟨a, b, hsub, (shareByte_iff hwell ha hb).1 hshare⟩
    · rintro ⟨a, b, hsub, hshare⟩
      obtain ⟨i, first, child, ha⟩ := hall a (hsub.subset (by simp))
      obtain ⟨j, second, child', hb⟩ := hall b (hsub.subset (by simp))
      exact ⟨a, b, hsub, (shareByte_iff hwell ha hb).2 hshare⟩
  -- An intersecting pair is one of the two kinds.
  have hsplit : SomePair Intersect entries ↔
      SomePair (fun a b => SameBlock parent a b ∧ Intersect a b) entries ∨
        SomePair (fun a b => ¬ SameBlock parent a b ∧ Intersect a b) entries := by
    constructor
    · rintro ⟨a, b, hsub, hmeet⟩
      by_cases hsame : SameBlock parent a b
      · exact .inl ⟨a, b, hsub, hsame, hmeet⟩
      · exact .inr ⟨a, b, hsub, hsame, hmeet⟩
    · rintro (⟨a, b, hsub, -, hmeet⟩ | ⟨a, b, hsub, -, hmeet⟩)
      · exact ⟨a, b, hsub, hmeet⟩
      · exact ⟨a, b, hsub, hmeet⟩
  rw [hparse, hoverlap, hshare, hsplit]
  tauto

/-! ### Two children in two blocks -/

/-- The checks of one entry, computed. -/
def passes (parent : Validated) (entry : NestedEntry) : Bool :=
  match findTarget parent entry with
  | .ok (index, target) =>
      decide (0 < entry.childLength ∧ entry.childOffset + entry.childLength < u64Bound ∧
        entry.childOffset + entry.childLength ≤ target.payloadLen) &&
        (readChild parent index entry).toOption.isSome
  | .error _ => false

theorem passes_iff : passes parent entry = true ↔
    ∃ index target child, Admissible parent entry index target child := by
  unfold passes
  constructor
  · intro h
    cases htarget : findTarget parent entry with
    | error error =>
        rw [htarget] at h
        cases h
    | ok found =>
        obtain ⟨index, target⟩ := found
        simp only [htarget, Bool.and_eq_true, decide_eq_true_eq] at h
        obtain ⟨⟨hpos, hfits, hinside⟩, hchild⟩ := h
        simp only [findTarget, bind_eq_ok_iff, okOr_eq_ok_iff, pure_eq_ok_iff] at htarget
        obtain ⟨index', hindex, target', htarget', heq⟩ := htarget
        cases heq
        exact ⟨index, target, _, hindex, htarget', hpos, hfits, hinside,
          eq_ok_get hchild⟩
  · rintro ⟨index, target, child, h⟩
    have htarget : findTarget parent entry = .ok (index, target) := by
      simp only [findTarget, bind_eq_ok_iff, okOr_eq_ok_iff, pure_eq_ok_iff]
      exact ⟨index, h.named, target, h.block, rfl⟩
    simp only [htarget, h.canonical, Bool.and_eq_true, decide_eq_true_eq]
    exact ⟨⟨h.nonempty, h.fits, h.inside⟩, rfl⟩

instance : Decidable (∃ index target child, Admissible parent entry index target child) :=
  decidable_of_iff (passes parent entry = true) passes_iff

instance : Decidable (OtherwiseValid parent entries) := inferInstanceAs (Decidable (_ ∧ _))

/-- A stream without blocks. -/
def emptyStream : List UInt8 := encodeStream 3 .knownSize []

/-- Two children at the start of two blocks of one key. -/
def twoBlockEntries : List NestedEntry :=
  [⟨"a", 7, 0, 0, emptyStream.length⟩, ⟨"b", 7, 1, 0, emptyStream.length⟩]

/-- The bytes of an entry. -/
def entryBytes (entry : NestedEntry) : List UInt8 :=
  leBytes 2 (utf8 entry.name).length ++ leBytes 2 0 ++ leBytes 2 entry.keyId.toNat ++
    leBytes 2 entry.occurrence.toNat ++ leBytes 8 entry.childOffset ++
    leBytes 8 entry.childLength ++ utf8 entry.name

/-- The nested directory of a list of children. -/
def directoryOf (entries : List NestedEntry) : List UInt8 :=
  magic ++ leBytes 2 version ++ leBytes 2 0 ++ leBytes 4 entries.length ++ leBytes 4 0 ++
    entries.flatMap entryBytes

/-- A bootstrap with a nested directory. -/
def nestedBootstrap : List UInt8 :=
  Bootstrap.magic ++ leBytes 2 1 ++ leBytes 2 0 ++ leBytes 2 3 ++ leBytes 2 0 ++
    Bootstrap.entryBytes ⟨1, true, 2, 0⟩ ++ Bootstrap.entryBytes ⟨2, true, 1, 0⟩ ++
    Bootstrap.entryBytes ⟨5, false, 3, 0⟩

/-- An artifact with the children and the blocks of one key that hold them. -/
def artifactOf (entries : List NestedEntry) (payloads : List (List UInt8)) : List UInt8 :=
  encodeStream 3 .knownSize
    ([TensorDirectory.arrayCall 0xF000 .opaqueBytes 8 nestedBootstrap.length nestedBootstrap,
      TensorDirectory.arrayCall 1 .opaqueBytes 8 0 [],
      TensorDirectory.arrayCall 2 .opaqueBytes 8 0 [],
      TensorDirectory.arrayCall 3 .opaqueBytes 8 (directoryOf entries).length
        (directoryOf entries)] ++
      payloads.map fun payload => TensorDirectory.arrayCall 7 .opaqueBytes 8 payload.length payload)

/-- An artifact with two blocks that hold one child each. -/
def twoBlockArtifact : List UInt8 := artifactOf twoBlockEntries [emptyStream, emptyStream]

/-- The parsed artifact. -/
def twoBlockView : Validated := (parseV06 twoBlockArtifact).toOption.get (by decide +kernel)

/-- Its bootstrap. -/
def twoBlockRegions : Bootstrap :=
  (Bootstrap.discover twoBlockView).toOption.get (by decide +kernel)

theorem twoBlockView_eq : parseV06 twoBlockArtifact = .ok twoBlockView :=
  eq_ok_get _

theorem otherwiseValid_twoBlock : OtherwiseValid twoBlockView twoBlockEntries := by
  decide +kernel

/-- Two children over the same bytes of one block. -/
def sharedEntries : List NestedEntry :=
  [⟨"a", 7, 0, 0, emptyStream.length⟩, ⟨"b", 7, 0, 0, emptyStream.length⟩]

/-- The parsed artifact of the two. -/
def sharedView : Validated :=
  (parseV06 (artifactOf sharedEntries [emptyStream])).toOption.get (by decide +kernel)

/-- Its bootstrap. -/
def sharedRegions : Bootstrap :=
  (Bootstrap.discover sharedView).toOption.get (by decide +kernel)

/-- Children that share bytes are reported as overlapping. -/
theorem parse_overlap_iff_shared :
    parse sharedView sharedRegions = .error overlapError ∧
      SomePair (ShareByte sharedView) sharedEntries := by
  have hreported : parse sharedView sharedRegions = .error overlapError := by decide +kernel
  have hintersect : SomePair (fun a b => SameBlock sharedView a b ∧ Intersect a b) sharedEntries :=
    ⟨_, _, List.Sublist.refl _, by unfold SameBlock Intersect; decide +kernel⟩
  exact ⟨hreported, ((parse_overlap_iff (eq_ok_get _ : parseV06 _ = .ok sharedView)
    (by decide +kernel) (by decide +kernel)).2 (Or.inl hintersect)).1 hreported⟩

/-- The two children stand in different blocks, and are reported as overlapping. -/
theorem parse_twoBlock :
    parse twoBlockView twoBlockRegions = .error overlapError ∧
      OtherwiseValid twoBlockView twoBlockEntries ∧
      ¬ SomePair (ShareByte twoBlockView) twoBlockEntries := by
  refine ⟨by decide +kernel, by decide +kernel, ?_⟩
  rintro ⟨a, b, hsub, hshare⟩
  have hpair : [a, b] = twoBlockEntries := hsub.eq_of_length rfl
  obtain ⟨rfl, rfl⟩ : a = ⟨"a", 7, 0, 0, emptyStream.length⟩ ∧
      b = ⟨"b", 7, 1, 0, emptyStream.length⟩ := by
    simpa [twoBlockEntries] using hpair
  obtain ⟨-, hwell⟩ := parseV06_eq_ok_iff.1 twoBlockView_eq
  obtain ⟨-, hall⟩ := otherwiseValid_twoBlock
  obtain ⟨i, first, child, ha⟩ := hall _ (hsub.subset List.mem_cons_self)
  obtain ⟨j, second, child', hb⟩ :=
    hall _ (hsub.subset (List.mem_cons_of_mem _ List.mem_cons_self))
  obtain ⟨hblock, -⟩ := (shareByte_iff (by
    have hbytes := (parseV06_eq_ok_iff.1 twoBlockView_eq).1
    rw [hbytes]
    exact hwell) ha hb).1 hshare
  exact absurd hblock (by unfold SameBlock; decide +kernel)

end VBuf.Ml.NestedDirectory
