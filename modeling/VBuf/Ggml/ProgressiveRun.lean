import Mathlib.Logic.Function.Basic
import Mathlib.Logic.Relation
import VBuf.Ggml.ProgressiveSafety

/-!
# Instances over one store

Any number of `ProgressiveRangeSource` instances open, read and crash over the
same mirror and coverage files; they interleave between any two system calls.
Whatever the calls answer, every coverage bit stands for source bytes and every
read that succeeds delivers the bytes it was asked for.
-/

namespace VBuf.Ggml

open VBuf.Lib

/-! ### Opening -/

section Opening

variable (source : List UInt8) {identity : ProgressiveSourceIdentity}

namespace ProgressiveSourceIdentity

/-- An opened store: a bitmap the mirror supports, and a mirror of full size. -/
def Opened (coverage? : Option (List UInt8)) (s : Store) : Prop :=
  ∀ coverage, coverage? = some coverage → Justified source coverage s ∧ Shown source 0 0 s

theorem opened_none {s : Store} : Opened source none s := by
  intro coverage h
  cases h

theorem sidecarHeader_length (size : Nat) : (identity.sidecarHeader size).length = 80 := by
  simp [sidecarHeader, progressiveCoverageMagic, identity.hash_length]

theorem initializeSidecar_spec :
    (storeSharing source).Spec (Shown source 0 0) identity.initializeSidecar (Opened source) := by
  have hfull : (storeSharing source).Stable (Shown source 0 0) := stable_shown 0 0
  have hheader := (positionedWrite_coverage source
    (identity.sidecarHeader (List.replicate identity.coverageBytes (0 : UInt8)).length) 0).frame
    hfull
  refine Sharing.Spec.bind (hheader.weaken ?_ (fun _ _ _ h => h)) ?_
  · intro s hs
    refine ⟨?_, hs⟩
    -- no chunk has its bit among the header's bytes
    intro i hi chunk _ hposition
    rw [sidecarHeader_length] at hi
    unfold progressiveCoverageHeaderBytes at hposition
    omega
  · intro header
    have hmiddle := (Sharing.Stable.const (S := storeSharing source) True).and hfull
    refine Sharing.Spec.ite ?_ ?_
    · intro _
      have hbitmap := (positionedWrite_coverage source
        (List.replicate identity.coverageBytes 0) progressiveCoverageHeaderBytes).frame hfull
      refine Sharing.Spec.bind (hbitmap.weaken ?_ (fun _ _ _ h => h)) ?_
      · intro s hs
        refine ⟨?_, hs.2⟩
        intro i _
        rw [byteAt_replicate_zero]
        exact byteSupported_zero _ s
      · intro bitmap
        refine Sharing.Spec.done hmiddle ?_
        intro s _ hs coverage hcoverage
        refine ⟨?_, hs.2⟩
        intro chunk _ hbit
        cases bitmap with
        | false => cases hcoverage
        | true =>
            obtain rfl := Option.some.inj hcoverage
            rw [bitIsSet, byteAt_replicate_zero] at hbit
            simp at hbit
    · intro _
      exact Sharing.Spec.done hmiddle (fun _ _ _ => opened_none source)

/-- A bitmap read from the sidecar. -/
theorem justified_of_read {coverage : List UInt8} {s : Store}
    (h : ∀ i, i < coverage.length →
      ByteSupported source (progressiveCoverageHeaderBytes + i) (byteAt coverage i) s) :
    Justified source coverage s := by
  intro chunk hchunk hbit
  rcases Nat.lt_or_ge (chunk / 8) coverage.length with hlow | hhigh
  · exact h _ hlow chunk hchunk rfl hbit
  · rw [bitIsSet, byteAt_of_length_le hhigh] at hbit
    simp at hbit

theorem readSidecarHeader_spec :
    (storeSharing source).Spec (Shown source 0 0) identity.readSidecarHeader (Opened source) := by
  have hfull : (storeSharing source).Stable (Shown source 0 0) := stable_shown 0 0
  have hheader := (positionedRead_spec source .coverage (fun _ _ _ => True) hfull
    (fun _ _ => Sharing.Stable.const _) (fun _ _ _ _ => trivial)
    progressiveCoverageHeaderBytes 0).frame hfull
  refine Sharing.Spec.bind (hheader.weaken (fun s hs => ⟨hs, hs⟩)
    (fun _ _ _ h => h.2)) ?_
  intro header?
  cases header? with
  | none => exact Sharing.Spec.done hfull (fun _ _ _ => opened_none source)
  | some header =>
      refine Sharing.Spec.ite ?_ ?_
      · intro _
        have hbitmap := (positionedRead_spec source .coverage (ByteSupported source) hfull
          stable_byteSupported (fun s hinv _ => inv_iff_byteSupported.1 hinv)
          identity.coverageBytes progressiveCoverageHeaderBytes).frame hfull
        refine Sharing.Spec.bind (hbitmap.weaken (fun s hs => ⟨hs, hs⟩) (fun _ _ _ h => h)) ?_
        intro coverage?
        have hmiddle := (Sharing.Stable.forall (fun coverage => Sharing.Stable.imp
          (p := coverage? = some coverage) ((Sharing.Stable.const (S := storeSharing source)
            (coverage.length = identity.coverageBytes)).and (Sharing.Stable.forall (fun i =>
              Sharing.Stable.imp (p := i < identity.coverageBytes) (stable_byteSupported
                (progressiveCoverageHeaderBytes + i) (byteAt coverage i))))))).and hfull
        cases coverage? with
        | none => exact Sharing.Spec.done hmiddle (fun _ _ _ => opened_none source)
        | some read =>
            refine Sharing.Spec.done hmiddle ?_
            intro s _ hs coverage hcoverage
            by_cases hclear : identity.extraBitsClear read = true
            · rw [if_pos hclear] at hcoverage
              obtain rfl := Option.some.inj hcoverage
              obtain ⟨hlength, hbytes⟩ := hs.1 read rfl
              exact ⟨justified_of_read source (fun i hi => hbytes i (by omega)), hs.2⟩
            · rw [if_neg hclear] at hcoverage
              cases hcoverage
      · intro _
        exact Sharing.Spec.done hfull (fun _ _ _ => opened_none source)

theorem sizeMirror_spec (hidentity : identity.declaredSize = source.length) (mirrorSize : Nat) :
    (storeSharing source).Spec (fun s => mirrorSize = source.length → Shown source 0 0 s)
      (identity.sizeMirror mirrorSize) (fun sized s => sized = true → Shown source 0 0 s) := by
  have hpre : (storeSharing source).Stable
      (fun s => mirrorSize = source.length → Shown source 0 0 s) :=
    Sharing.Stable.imp (stable_shown 0 0)
  refine Sharing.Spec.ite ?_ ?_
  · intro _
    refine @Sharing.Spec.call _ _ _ _ _ _ _ (fun (sized : Bool) s => sized = true →
      Shown source 0 0 s) _ _ hpre ?_ ?_
    · intro s (sized : Bool) t hinv _ heffect
      cases sized with
      | false =>
          obtain rfl : t = s := heffect
          exact ⟨hinv, (storeSharing source).refl _, fun h => absurd h Bool.false_ne_true⟩
      | true =>
          have heq : t = s.set .mirror (resize s.mirror identity.declaredSize) := heffect
          rw [hidentity] at heq
          rw [heq]
          obtain ⟨hinv', hkeeps⟩ := keeps_truncate hinv
          exact ⟨hinv', hkeeps, fun _ => ⟨resize_length _ _, fun p _ hp =>
            absurd hp (Nat.not_lt_zero p)⟩⟩
    · intro (sized : Bool)
      exact Sharing.Spec.done (Sharing.Stable.imp (stable_shown 0 0)) (fun _ _ hs => hs)
  · intro _
    refine Sharing.Spec.done hpre ?_
    intro s _ hs hsized
    exact hs (by rw [← hidentity]; exact of_decide_eq_true hsized)

/-- `mirrorSize` is what `fstat` saw. -/
theorem openSized_spec (hidentity : identity.declaredSize = source.length)
    (mirrorSize coverageSize : Nat) :
    (storeSharing source).Spec (fun s => mirrorSize = source.length → Shown source 0 0 s)
      (identity.openSized mirrorSize coverageSize) (Opened source) := by
  have hpre : (storeSharing source).Stable
      (fun s => mirrorSize = source.length → Shown source 0 0 s) :=
    Sharing.Stable.imp (stable_shown 0 0)
  unfold openSized
  refine Sharing.Spec.ite (fun _ => Sharing.Spec.done hpre (fun _ _ _ => opened_none source)) ?_
  intro _
  refine Sharing.Spec.bind (sizeMirror_spec source hidentity mirrorSize) ?_
  intro sized
  cases sized with
  | false =>
      exact Sharing.Spec.done (Sharing.Stable.imp (stable_shown 0 0))
        (fun _ _ _ => opened_none source)
  | true =>
      have hfull : ∀ s, (true = true → Shown source 0 0 s) → Shown source 0 0 s :=
        fun s hs => hs rfl
      refine Sharing.Spec.ite (fun h => absurd h (by decide)) ?_
      intro _
      refine Sharing.Spec.ite ?_ ?_
      · intro _
        exact (initializeSidecar_spec source).weaken hfull (fun _ _ _ h => h)
      · intro _
        refine Sharing.Spec.ite ?_ ?_
        · intro _
          exact Sharing.Spec.done (Sharing.Stable.imp (stable_shown 0 0))
            (fun _ _ _ => opened_none source)
        · intro _
          exact (readSidecarHeader_spec source).weaken hfull (fun _ _ _ h => h)

/-- A call that reads the sizes and changes nothing. -/
theorem call_spec {α : Type} (c : StoreCall) {pre : Store → Prop}
    (middle : c.Response → Store → Prop)
    {next : c.Response → StoreProgram α} {post : α → Store → Prop}
    (hpre : (storeSharing source).Stable pre)
    (hsame : ∀ s r t, storeEffect source c s r t → pre s → t = s ∧ middle r s)
    (hnext : ∀ r, (storeSharing source).Spec (middle r) (next r) post) :
    (storeSharing source).Spec pre (.call c next) post := by
  refine Sharing.Spec.call hpre ?_ hnext
  intro s r t hinv hs heffect
  obtain ⟨rfl, hmiddle⟩ := hsame s r t heffect hs
  exact ⟨hinv, (storeSharing source).refl _, hmiddle⟩

theorem openStore_spec (hidentity : identity.declaredSize = source.length) :
    (storeSharing source).Spec (fun _ => True) identity.openStore (Opened source) := by
  have htrue := Sharing.Stable.const (S := storeSharing source) True
  refine call_spec source (.openFile .mirror) (fun _ _ => True) htrue
    (fun s r t heffect _ => ⟨heffect, trivial⟩) ?_
  intro (opened : Bool)
  cases opened with
  | false => exact Sharing.Spec.done htrue (fun _ _ _ => opened_none source)
  | true =>
      refine call_spec source (.fstat .mirror) (fun (size? : Option Nat) s =>
        ∀ size, size? = some size → size = source.length → Shown source 0 0 s) htrue ?_ ?_
      · intro s (size? : Option Nat) t heffect _
        obtain ⟨heq, hsize⟩ := heffect
        refine ⟨heq, ?_⟩
        intro size hsome hlength
        have hmirror : size = s.mirror.length := hsize size hsome
        exact ⟨by omega, fun p _ hp => absurd hp (Nat.not_lt_zero p)⟩
      · intro (size? : Option Nat)
        have hstable : (storeSharing source).Stable (fun s => ∀ size, size? = some size →
            size = source.length → Shown source 0 0 s) :=
          Sharing.Stable.forall (fun size => Sharing.Stable.imp
            (Sharing.Stable.imp (stable_shown 0 0)))
        cases size? with
        | none => exact Sharing.Spec.done hstable (fun _ _ _ => opened_none source)
        | some mirrorSize =>
            refine call_spec source (.openFile .coverage) (fun _ s =>
              mirrorSize = source.length → Shown source 0 0 s) hstable ?_ ?_
            · intro s r t heffect hs
              exact ⟨heffect, hs mirrorSize rfl⟩
            · intro (coverageOpened : Bool)
              have hstable' : (storeSharing source).Stable (fun s => mirrorSize = source.length →
                  Shown source 0 0 s) := Sharing.Stable.imp (stable_shown 0 0)
              cases coverageOpened with
              | false => exact Sharing.Spec.done hstable' (fun _ _ _ => opened_none source)
              | true =>
                  refine call_spec source (.fstat .coverage) (fun _ s =>
                    mirrorSize = source.length → Shown source 0 0 s) hstable' ?_ ?_
                  · intro s (coverageSize : Option Nat) t heffect hs
                    exact ⟨heffect.1, hs⟩
                  · intro (coverageSize : Option Nat)
                    cases coverageSize with
                    | none => exact Sharing.Spec.done hstable' (fun _ _ _ => opened_none source)
                    | some size => exact openSized_spec source hidentity mirrorSize size

end ProgressiveSourceIdentity

end Opening

/-! ### Runs -/

/-- A read that an instance has answered. -/
structure Delivery where
  offset : Nat
  length : Nat
  read : RangeRead
  deriving DecidableEq, Repr

/-- Where an instance is.  A mutex keeps one read at a time; the coverage of a
reading instance is inside its program. -/
inductive InstancePhase
  | closed
  | opening (identity : ProgressiveSourceIdentity) (program : StoreProgram (Option (List UInt8)))
  | ready (identity : ProgressiveSourceIdentity) (coverage : List UInt8) (last : Option Delivery)
  | reading (identity : ProgressiveSourceIdentity) (offset length : Nat)
      (program : StoreProgram (RangeRead × List UInt8))

/-- The two files and the instances over them. -/
structure StoreWorld (ι : Type) where
  store : Store
  phase : ι → InstancePhase

section Runs

open ProgressiveSourceIdentity

variable {ι : Type} [DecidableEq ι] (source : List UInt8)

def StoreWorld.moved (w : StoreWorld ι) (i : ι) (store : Store) (phase : InstancePhase) :
    StoreWorld ι :=
  { store, phase := Function.update w.phase i phase }

/-- One step of one instance.  A constructor call passes the checks of the
identity, which is that of the source; a crash is possible anywhere. -/
inductive StoreStep : StoreWorld ι → StoreWorld ι → Prop
  | start {w : StoreWorld ι} {i : ι} {identity : ProgressiveSourceIdentity}
      (hphase : w.phase i = .closed) (hsource : identity.declaredSize = source.length)
      (hhash : identity.hashAlgorithm = 1) (hsize : identity.declaredSize ≠ 0) :
      StoreStep w (w.moved i w.store (.opening identity identity.openStore))
  | openCall {w : StoreWorld ι} {i : ι} {identity : ProgressiveSourceIdentity} {c : StoreCall}
      {next : c.Response → StoreProgram (Option (List UInt8))} {r : c.Response} {store : Store}
      (hphase : w.phase i = .opening identity (.call c next))
      (heffect : storeEffect source c w.store r store) :
      StoreStep w (w.moved i store (.opening identity (next r)))
  | opened {w : StoreWorld ι} {i : ι} {identity : ProgressiveSourceIdentity}
      {coverage : List UInt8} (hphase : w.phase i = .opening identity (.done (some coverage))) :
      StoreStep w (w.moved i w.store (.ready identity coverage none))
  | refused {w : StoreWorld ι} {i : ι} {identity : ProgressiveSourceIdentity}
      (hphase : w.phase i = .opening identity (.done none)) :
      StoreStep w (w.moved i w.store .closed)
  | request {w : StoreWorld ι} {i : ι} {identity : ProgressiveSourceIdentity}
      {coverage : List UInt8} {last : Option Delivery} (destination : Bool) (offset length : Nat)
      (hphase : w.phase i = .ready identity coverage last) :
      StoreStep w (w.moved i w.store
        (.reading identity offset length (identity.readRange coverage destination offset length)))
  | readCall {w : StoreWorld ι} {i : ι} {identity : ProgressiveSourceIdentity}
      {offset length : Nat} {c : StoreCall} {next : c.Response → StoreProgram (RangeRead × List UInt8)}
      {r : c.Response} {store : Store}
      (hphase : w.phase i = .reading identity offset length (.call c next))
      (heffect : storeEffect source c w.store r store) :
      StoreStep w (w.moved i store (.reading identity offset length (next r)))
  | answered {w : StoreWorld ι} {i : ι} {identity : ProgressiveSourceIdentity}
      {offset length : Nat} {read : RangeRead} {coverage : List UInt8}
      (hphase : w.phase i = .reading identity offset length (.done (read, coverage))) :
      StoreStep w (w.moved i w.store (.ready identity coverage (some ⟨offset, length, read⟩)))
  | crash (w : StoreWorld ι) (i : ι) : StoreStep w (w.moved i w.store .closed)

/-- What an instance knows of the files, wherever it is. -/
def InstancePhase.Sound (s : Store) : InstancePhase → Prop
  | .closed => True
  | .opening identity program => identity.declaredSize = source.length ∧
      (storeSharing source).Safe program (Opened source) s
  | .ready identity coverage last => identity.declaredSize = source.length ∧
      (Justified source coverage s ∧ Shown source 0 0 s) ∧
      ∀ d, last = some d → Delivers source d.offset d.length d.read
  | .reading identity offset length program => identity.declaredSize = source.length ∧
      (storeSharing source).Safe program (fun answer s => Delivers source offset length answer.1 ∧
        Justified source answer.2 s ∧ Shown source 0 0 s) s

/-- The invariant of a run. -/
structure StoreWorld.Sound (w : StoreWorld ι) : Prop where
  inv : (storeSharing source).inv w.store
  phase : ∀ i, (w.phase i).Sound source w.store

variable {source}

theorem InstancePhase.Sound.stable {s t : Store} {phase : InstancePhase}
    (h : phase.Sound source s) (hkeeps : (storeSharing source).keeps s t) :
    phase.Sound source t := by
  cases phase with
  | closed => trivial
  | opening identity program => exact ⟨h.1, h.2.stable hkeeps⟩
  | ready identity coverage last =>
      exact ⟨h.1, stable_progress source coverage 0 0 s t hkeeps h.2.1,
        h.2.2⟩
  | reading identity offset length program => exact ⟨h.1, h.2.stable hkeeps⟩

/-- One instance moves; the others keep what they know. -/
theorem StoreWorld.Sound.moved {w : StoreWorld ι} {i : ι} {store : Store} {phase : InstancePhase}
    (h : w.Sound source) (hinv : (storeSharing source).inv store)
    (hkeeps : (storeSharing source).keeps w.store store) (hphase : phase.Sound source store) :
    (w.moved i store phase).Sound source := by
  refine ⟨hinv, ?_⟩
  intro j
  show (Function.update w.phase i phase j).Sound source store
  by_cases heq : j = i
  · subst heq
    rw [Function.update_self]
    exact hphase
  · rw [Function.update_of_ne heq]
    exact (h.phase j).stable hkeeps

/-- A move that leaves the files alone. -/
theorem StoreWorld.Sound.moved_same {w : StoreWorld ι} {i : ι} {phase : InstancePhase}
    (h : w.Sound source) (hphase : phase.Sound source w.store) :
    (w.moved i w.store phase).Sound source :=
  h.moved h.inv ((storeSharing source).refl _) hphase

theorem StoreStep.sound {w w' : StoreWorld ι} (hstep : StoreStep source w w') (h : w.Sound source) :
    w'.Sound source := by
  have hrefl := (storeSharing source).refl w.store
  cases hstep with
  | start hphase hsource hhash hsize =>
      exact h.moved_same
        ⟨hsource, openStore_spec source hsource w.store trivial⟩
  | @openCall i identity c next r store hphase heffect =>
      have hi := h.phase i
      rw [hphase] at hi
      obtain ⟨hinv, hkeeps, hnext⟩ := hi.2 w.store hrefl h.inv r store heffect
      exact h.moved hinv hkeeps ⟨hi.1, hnext⟩
  | @opened i identity coverage hphase =>
      have hi := h.phase i
      rw [hphase] at hi
      have hopened := hi.2 w.store hrefl h.inv coverage rfl
      exact h.moved_same ⟨hi.1, hopened, fun d hd => by cases hd⟩
  | refused hphase => exact h.moved_same trivial
  | @request i identity coverage last destination offset length hphase =>
      have hi := h.phase i
      rw [hphase] at hi
      exact h.moved_same ⟨hi.1, readRange_spec source hi.1 coverage
        destination offset length w.store hi.2.1⟩
  | @readCall i identity offset length c next r store hphase heffect =>
      have hi := h.phase i
      rw [hphase] at hi
      obtain ⟨hinv, hkeeps, hnext⟩ := hi.2 w.store hrefl h.inv r store heffect
      exact h.moved hinv hkeeps ⟨hi.1, hnext⟩
  | @answered i identity offset length read coverage hphase =>
      have hi := h.phase i
      rw [hphase] at hi
      obtain ⟨hdelivers, hknown⟩ := hi.2 w.store hrefl h.inv
      refine h.moved_same ⟨hi.1, hknown, ?_⟩
      intro d hd
      obtain rfl := Option.some.inj hd
      exact hdelivers
  | crash => exact h.moved_same trivial

/-- The invariant holds along every run. -/
theorem sound_of_run {w w' : StoreWorld ι} (hrun : Relation.ReflTransGen (StoreStep source) w w')
    (h : w.Sound source) : w'.Sound source := by
  induction hrun with
  | refl => exact h
  | tail _ hstep ih => exact hstep.sound ih

omit [DecidableEq ι] in
/-- No sidecar claims anything. -/
theorem sound_of_fresh {w : StoreWorld ι} (hcoverage : w.store.coverage = [])
    (hclosed : ∀ i, w.phase i = .closed) : w.Sound source := by
  refine ⟨?_, ?_⟩
  · rw [inv_iff_byteSupported]
    intro p
    rw [hcoverage, byteAt_nil]
    exact byteSupported_zero p _
  · intro i
    rw [hclosed i]
    trivial

/-- A shown chunk, as the piece of the file it is. -/
theorem slice_of_chunkShown {chunk : Nat} {s : Store} (h : ChunkShown source chunk s) :
    slice s.mirror (chunk * chunkSize) (min chunkSize (source.length - chunk * chunkSize)) =
      slice source (chunk * chunkSize) (min chunkSize (source.length - chunk * chunkSize)) := by
  have hlength := h.1
  have hnext : (chunk + 1) * chunkSize = chunk * chunkSize + chunkSize := Nat.succ_mul _ _
  refine ext_byteAt ?_ ?_
  · rw [slice_length, slice_length, hlength]
  · intro i hi
    rw [slice_length] at hi
    rw [byteAt_slice (by omega),
      byteAt_slice (by omega)]
    exact h.2 _ (by omega) (by omega)

/-- Over any run of any instances, with an honest remote: a coverage bit, in the
sidecar or in the memory of an instance, stands for source bytes in the mirror,
and a read that succeeded delivered the bytes it was asked for. -/
theorem never_serves_wrong_bytes (source : List UInt8) (w w' : StoreWorld ι)
    (hcoverage : w.store.coverage = []) (hclosed : ∀ i, w.phase i = .closed)
    (hrun : Relation.ReflTransGen (StoreStep source) w w') :
    (∀ chunk, chunk * chunkSize < source.length → coverageBit w'.store chunk →
      slice w'.store.mirror (chunk * chunkSize)
          (min chunkSize (source.length - chunk * chunkSize)) =
        slice source (chunk * chunkSize) (min chunkSize (source.length - chunk * chunkSize))) ∧
    ∀ i identity coverage last, w'.phase i = .ready identity coverage last →
      (∀ chunk, chunk < identity.chunkCount → bitIsSet coverage chunk →
        slice w'.store.mirror (chunk * chunkSize) (identity.chunkLength chunk) =
          slice source (chunk * chunkSize) (identity.chunkLength chunk)) ∧
      ∀ d, last = some d → d.read.returned →
        d.offset + d.length ≤ source.length ∧
          d.read.destination = slice source d.offset d.length := by
  have hsound := sound_of_run hrun (sound_of_fresh hcoverage hclosed)
  refine ⟨?_, ?_⟩
  · intro chunk hchunk hbit
    exact slice_of_chunkShown (hsound.inv chunk hchunk hbit)
  · intro i identity coverage last hphase
    have hi := hsound.phase i
    rw [hphase] at hi
    obtain ⟨hidentity, ⟨hjustified, -⟩, hdelivers⟩ := hi
    refine ⟨?_, fun d hd hreturned => hdelivers d hd hreturned⟩
    intro chunk hchunk hbit
    rw [lt_chunkCount_iff, hidentity] at hchunk
    rw [chunkLength, hidentity]
    exact slice_of_chunkShown (hjustified chunk hchunk hbit)

/-! ### Calls done as a whole -/

variable (source)

/-- The response of a system that does every call as a whole, and the files after it. -/
def wholeCall : (c : StoreCall) → Store → c.Response × Store
  | .openFile _, s => (true, s)
  | .fstat file, s => (some (s.get file).length, s)
  | .ftruncate file length, s => (true, s.set file (resize (s.get file) length))
  | .pwrite file bytes offset, s => (bytes.length, s.set file (ByteSink.put (s.get file) offset bytes))
  | .pread file length offset, s => (slice (s.get file) offset length, s)
  | .remoteRead offset length, s =>
      (⟨true, { requestedOffset := offset, requestedLength := length, returnedBytes := length },
        slice source offset length⟩, s)

/-- The answer of a program that runs alone over such a system, and the files after it. -/
def finish {α : Type} : StoreProgram α → Store → α × Store
  | .done a, s => (a, s)
  | .call c next, s => finish (next (wholeCall source c s).1) (wholeCall source c s).2

variable {source}

theorem wholeCall_effect (c : StoreCall) (s : Store) :
    storeEffect source c s (wholeCall source c s).1 (wholeCall source c s).2 := by
  cases c with
  | openFile file => exact rfl
  | fstat file => exact ⟨rfl, fun n hn => (Option.some.inj hn).symm⟩
  | ftruncate file length => exact rfl
  | pwrite file bytes offset =>
      refine ⟨Nat.le_refl _, ?_⟩
      show s.set file (ByteSink.put (s.get file) offset bytes) =
        s.set file (ByteSink.put (s.get file) offset (bytes.take bytes.length))
      rw [List.take_length]
  | pread file length offset =>
      have hlength : (slice (s.get file) offset length).length ≤ length := by
        rw [slice_length]
        exact Nat.min_le_left _ _
      refine ⟨rfl, hlength, ?_⟩
      show slice (s.get file) offset length =
        slice (s.get file) offset (slice (s.get file) offset length).length
      unfold slice
      rw [List.length_take, List.take_eq_take_min]
  | remoteRead offset length => exact ⟨rfl, fun _ _ _ _ => rfl⟩

theorem moved_moved (w : StoreWorld ι) (i : ι) (s t : Store) (phase after : InstancePhase) :
    (w.moved i s phase).moved i t after = w.moved i t after := by
  simp [StoreWorld.moved]

theorem moved_phase (w : StoreWorld ι) (i : ι) (s : Store) (phase : InstancePhase) :
    (w.moved i s phase).phase i = phase := Function.update_self _ _ _

/-- A closed instance opens the store. -/
theorem run_opens {w : StoreWorld ι} {i : ι} {identity : ProgressiveSourceIdentity}
    {coverage : List UInt8} {store : Store} (hphase : w.phase i = .closed)
    (hsource : identity.declaredSize = source.length) (hhash : identity.hashAlgorithm = 1)
    (hsize : identity.declaredSize ≠ 0)
    (hfinish : finish source identity.openStore w.store = (some coverage, store)) :
    Relation.ReflTransGen (StoreStep source) w (w.moved i store (.ready identity coverage none)) := by
  have hprogram : ∀ (program : StoreProgram (Option (List UInt8))) (s : Store),
      finish source program s = (some coverage, store) →
      Relation.ReflTransGen (StoreStep source) (w.moved i s (.opening identity program))
        (w.moved i store (.ready identity coverage none)) := by
    intro program
    induction program with
    | done answer =>
        rintro s ⟨⟩
        refine Relation.ReflTransGen.single ?_
        have hstep : StoreStep source _ _ := .opened
          (moved_phase w i store (.opening identity (.done (some coverage))))
        rwa [moved_moved] at hstep
    | call c next ih =>
        intro s hs
        refine Relation.ReflTransGen.head ?_ (ih (wholeCall source c s).1 _ hs)
        have hstep : StoreStep source _ _ := .openCall (moved_phase w i s (.opening identity (.call c next)))
          (wholeCall_effect c s)
        rwa [moved_moved] at hstep
  exact Relation.ReflTransGen.head (.start hphase hsource hhash hsize) (hprogram _ _ hfinish)

/-- An instance that is ready answers a read. -/
theorem run_reads {w : StoreWorld ι} {i : ι} {identity : ProgressiveSourceIdentity}
    {coverage covered : List UInt8} {last : Option Delivery} {destination : Bool}
    {offset length : Nat} {read : RangeRead} {store : Store}
    (hphase : w.phase i = .ready identity coverage last)
    (hfinish : finish source (identity.readRange coverage destination offset length) w.store =
      ((read, covered), store)) :
    Relation.ReflTransGen (StoreStep source) w
      (w.moved i store (.ready identity covered (some ⟨offset, length, read⟩))) := by
  have hprogram : ∀ (program : StoreProgram (RangeRead × List UInt8)) (s : Store),
      finish source program s = ((read, covered), store) →
      Relation.ReflTransGen (StoreStep source)
        (w.moved i s (.reading identity offset length program))
        (w.moved i store (.ready identity covered (some ⟨offset, length, read⟩))) := by
    intro program
    induction program with
    | done answer =>
        rintro s ⟨⟩
        refine Relation.ReflTransGen.single ?_
        have hstep : StoreStep source _ _ := .answered
          (moved_phase w i store (.reading identity offset length (.done (read, covered))))
        rwa [moved_moved] at hstep
    | call c next ih =>
        intro s hs
        refine Relation.ReflTransGen.head ?_ (ih (wholeCall source c s).1 _ hs)
        have hstep : StoreStep source _ _ := .readCall
          (moved_phase w i s (.reading identity offset length (.call c next)))
          (wholeCall_effect c s)
        rwa [moved_moved] at hstep
  exact Relation.ReflTransGen.head (.request destination offset length hphase)
    (hprogram _ _ hfinish)

end Runs

/-- The identity of a source of three bytes. -/
def exampleIdentity : ProgressiveSourceIdentity where
  declaredSize := 3
  hashAlgorithm := 1
  fullSourceHash := List.replicate 32 0
  declaredSize_lt := by decide
  hash_length := by decide

def exampleSource : List UInt8 := [7, 8, 9]

/-- The files after one instance has opened them, and after it has read two bytes. -/
def openedStore : Store := (finish exampleSource exampleIdentity.openStore ⟨[], []⟩).2

def fetchedStore : Store :=
  (finish exampleSource (exampleIdentity.readRange [0] true 1 2) openedStore).2

/-- A read of the source that succeeded. -/
def exampleRead (offset length : Nat) : RangeRead where
  returned := true
  result :=
    { requestedOffset := offset
      requestedLength := length
      returnedBytes := length
      statusCode := 200
      sourceId := "progressive-local" }
  destination := slice exampleSource offset length

/-- One instance fetches the chunk and crashes; another one opens the files that it left
and answers from the mirror. -/
theorem run_restart :
    Relation.ReflTransGen (StoreStep exampleSource)
      (⟨⟨[], []⟩, fun _ => .closed⟩ : StoreWorld Bool)
      ⟨fetchedStore, fun i => if i = false then
        .ready exampleIdentity [1] (some ⟨0, 3, exampleRead 0 3⟩) else .closed⟩ := by
  let w : StoreWorld Bool := ⟨⟨[], []⟩, fun _ => .closed⟩
  let read := w.moved true fetchedStore (.ready exampleIdentity [1] (some ⟨1, 2, exampleRead 1 2⟩))
  let crashed := w.moved true fetchedStore .closed
  have hopen : Relation.ReflTransGen (StoreStep exampleSource) w
      (w.moved true openedStore (.ready exampleIdentity [0] none)) :=
    run_opens rfl rfl rfl (by decide) (by decide +kernel)
  have hread : Relation.ReflTransGen (StoreStep exampleSource)
      (w.moved true openedStore (.ready exampleIdentity [0] none)) read := by
    have hrun := run_reads (moved_phase w true openedStore (.ready exampleIdentity [0] none))
      (by decide +kernel : finish exampleSource (exampleIdentity.readRange [0] true 1 2)
        openedStore = ((exampleRead 1 2, [1]), fetchedStore))
    rwa [moved_moved] at hrun
  have hcrash : StoreStep exampleSource read crashed := by
    have hstep : StoreStep exampleSource _ _ := .crash read true
    rwa [moved_moved] at hstep
  have hreopen : Relation.ReflTransGen (StoreStep exampleSource) crashed
      (crashed.moved false fetchedStore (.ready exampleIdentity [1] none)) :=
    run_opens rfl rfl rfl (by decide) (by decide +kernel)
  have hreread := run_reads
    (moved_phase crashed false fetchedStore (.ready exampleIdentity [1] none))
    (by decide +kernel : finish exampleSource (exampleIdentity.readRange [1] true 0 3)
      fetchedStore = ((exampleRead 0 3, [1]), fetchedStore))
  rw [moved_moved] at hreread
  have hend : crashed.moved false fetchedStore
      (.ready exampleIdentity [1] (some ⟨0, 3, exampleRead 0 3⟩)) =
        ⟨fetchedStore, fun i => if i = false then
          .ready exampleIdentity [1] (some ⟨0, 3, exampleRead 0 3⟩) else .closed⟩ := by
    refine congrArg (StoreWorld.mk fetchedStore) (funext fun i => ?_)
    cases i <;> rfl
  rw [← hend]
  exact (hopen.trans hread).trans ((hreopen.trans hreread).head hcrash)

/-- In that run the bit of the chunk is set, the mirror holds the chunk, and the second
instance has delivered the three bytes. -/
theorem never_serves_wrong_bytes_restart :
    coverageBit fetchedStore 0 = true ∧ slice fetchedStore.mirror 0 3 = slice exampleSource 0 3 ∧
      (exampleRead 0 3).returned = true ∧
        (exampleRead 0 3).destination = slice exampleSource 0 3 := by
  obtain ⟨hstore, hready⟩ := never_serves_wrong_bytes exampleSource _ _ rfl (fun _ => rfl)
    run_restart
  have hbit : coverageBit fetchedStore 0 = true := by decide +kernel
  refine ⟨hbit, hstore 0 (by decide) hbit, rfl, ?_⟩
  exact ((hready false exampleIdentity [1] _ rfl).2 _ rfl rfl).2

end VBuf.Ggml
