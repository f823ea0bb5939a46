import Mathlib.Data.Nat.Bitwise
import VBuf.Ggml.ProgressiveSource

/-!
# A coverage bit stands for source bytes

Every write to the mirror puts source bytes in their place, so a chunk that is
right stays right whoever runs next.  A coverage bit, in the sidecar or in an
instance's memory, is only ever set for such a chunk.  Both facts are the
invariant of a `Sharing` over the two files, and every program of the source
meets its triple there.
-/

namespace VBuf.Ggml

open VBuf.Lib
open VBuf.Lib.ByteSink (put)

/-! ### Bits -/

theorem bitMask_toNat (chunk : Nat) : (bitMask chunk).toNat = 2 ^ (chunk % 8) := by
  have hlt : chunk % 8 < 8 := Nat.mod_lt _ (by omega)
  rw [bitMask, UInt8.toNat_ofNat']
  exact Nat.mod_eq_of_lt (Nat.pow_lt_pow_right (by omega) hlt)

theorem and_bitMask (byte : UInt8) (chunk : Nat) :
    (byte &&& bitMask chunk != 0) = byte.toNat.testBit (chunk % 8) := by
  have hand : (byte &&& bitMask chunk).toNat =
      (byte.toNat.testBit (chunk % 8)).toNat * 2 ^ (chunk % 8) := by
    rw [UInt8.toNat_and, bitMask_toNat, Nat.and_two_pow]
  cases hbit : byte.toNat.testBit (chunk % 8) with
  | false =>
      rw [hbit] at hand
      have hzero : byte &&& bitMask chunk = 0 := UInt8.toNat_inj.1 (by simpa using hand)
      simp [hzero]
  | true =>
      rw [hbit] at hand
      have hne : byte &&& bitMask chunk ≠ 0 := by
        intro hzero
        have hpos : 0 < 2 ^ (chunk % 8) := Nat.two_pow_pos _
        rw [hzero] at hand
        simp at hand
        omega
      simp [hne]

/-- Adding a chunk's bit to a byte shows no other chunk of the byte. -/
theorem or_bitMask (byte : UInt8) {chunk other : Nat} (hbyte : chunk / 8 = other / 8)
    (hbit : (byte ||| bitMask chunk) &&& bitMask other != 0) :
    other = chunk ∨ byte &&& bitMask other != 0 := by
  rw [and_bitMask, UInt8.toNat_or, Nat.testBit_or, bitMask_toNat, Nat.testBit_two_pow] at hbit
  rw [and_bitMask]
  by_cases heq : chunk % 8 = other % 8
  · exact Or.inl (by omega)
  · right
    simpa [heq] using hbit

theorem byteAt_set (coverage : List UInt8) (i j : Nat) (value : UInt8) (hi : i < coverage.length) :
    byteAt (coverage.set i value) j = if j = i then value else byteAt coverage j := by
  unfold byteAt
  by_cases heq : j = i
  · subst heq
    simp [hi]
  · rw [if_neg heq, List.getD_eq_getElem?_getD, List.getD_eq_getElem?_getD,
      List.getElem?_set_ne (Ne.symm heq)]

theorem bitIsSet_setBit {coverage : List UInt8} {chunk other : Nat}
    (hbit : bitIsSet (setBit coverage chunk) other) : other = chunk ∨ bitIsSet coverage other := by
  unfold bitIsSet setBit at hbit
  by_cases hlength : chunk / 8 < coverage.length
  · rw [byteAt_set _ _ _ _ hlength] at hbit
    by_cases hbyte : other / 8 = chunk / 8
    · rw [if_pos hbyte] at hbit
      rcases or_bitMask _ hbyte.symm hbit with heq | hold
      · exact Or.inl heq
      · right
        unfold bitIsSet
        rw [hbyte]
        exact hold
    · rw [if_neg hbyte] at hbit
      exact Or.inr hbit
  · rw [List.set_eq_of_length_le (Nat.le_of_not_lt hlength)] at hbit
    exact Or.inr hbit

/-! ### What the calls do -/

/-- A remote that claims the whole range holds the source's bytes. -/
def RangeRead.Honest (source : List UInt8) (offset length : Nat) (read : RangeRead) : Prop :=
  read.returned → read.result.requestedOffset = offset → read.result.requestedLength = length →
    read.result.returnedBytes = length → read.destination = slice source offset length

/-- The files after a call with its response.  A failed call changes nothing; a
write that fails later has written what it reported before. -/
def storeEffect (source : List UInt8) : (c : StoreCall) → Store → c.Response → Store → Prop
  | .openFile _, s, _, t => t = s
  | .fstat file, s, (size : Option Nat), t => t = s ∧ ∀ n, size = some n → n = (s.get file).length
  | .ftruncate file length, s, (done : Bool), t =>
      t = if done then s.set file (resize (s.get file) length) else s
  | .pwrite file bytes offset, s, (count : Nat), t =>
      count ≤ bytes.length ∧ t = s.set file (put (s.get file) offset (bytes.take count))
  | .pread file length offset, s, (bytes : List UInt8), t =>
      t = s ∧ bytes.length ≤ length ∧ bytes = slice (s.get file) offset bytes.length
  | .remoteRead offset length, s, (read : RangeRead), t =>
      t = s ∧ read.Honest source offset length

/-! ### The invariant -/

section Sharing

variable (source : List UInt8)

/-- The mirror has its size and shows the source on a range. -/
def Shown (low high : Nat) (s : Store) : Prop :=
  s.mirror.length = source.length ∧
    ∀ p, low ≤ p → p < high → byteAt s.mirror p = byteAt source p

def ChunkShown (chunk : Nat) (s : Store) : Prop :=
  Shown source (chunk * chunkSize) (min ((chunk + 1) * chunkSize) source.length) s

/-- A chunk's bit in the sidecar. -/
def coverageBit (s : Store) (chunk : Nat) : Bool :=
  byteAt s.coverage (progressiveCoverageHeaderBytes + chunk / 8) &&& bitMask chunk != 0

/-- A byte of the sidecar at a position claims only chunks the mirror shows. -/
def ByteSupported (position : Nat) (byte : UInt8) (s : Store) : Prop :=
  ∀ chunk, chunk * chunkSize < source.length →
    progressiveCoverageHeaderBytes + chunk / 8 = position →
    byte &&& bitMask chunk != 0 → ChunkShown source chunk s

/-- A bitmap in memory claims only chunks the mirror shows. -/
def Justified (coverage : List UInt8) (s : Store) : Prop :=
  ∀ chunk, chunk * chunkSize < source.length → bitIsSet coverage chunk → ChunkShown source chunk s

/-- The two files of the source, shared by any number of instances. -/
def storeSharing : Sharing StoreCall StoreCall.Response Store where
  effect := storeEffect source
  inv := fun s => ∀ chunk, chunk * chunkSize < source.length → coverageBit s chunk →
    ChunkShown source chunk s
  keeps := fun s t => ∀ low high, Shown source low high s → Shown source low high t
  refl := fun _ _ _ h => h
  trans := fun _ _ _ hst htu low high h => htu low high (hst low high h)

variable {source}

theorem Shown.mono {low high low' high' : Nat} {s : Store} (h : Shown source low high s)
    (hlow : low ≤ low') (hhigh : high' ≤ high) : Shown source low' high' s :=
  ⟨h.1, fun p hp hp' => h.2 p (hlow.trans hp) (hp'.trans_le hhigh)⟩

theorem stable_shown (low high : Nat) : (storeSharing source).Stable (Shown source low high) :=
  fun _ _ hkeeps h => hkeeps low high h

theorem stable_byteSupported (position : Nat) (byte : UInt8) :
    (storeSharing source).Stable (ByteSupported source position byte) :=
  fun _ _ hkeeps h chunk hchunk hposition hbit => hkeeps _ _ (h chunk hchunk hposition hbit)

theorem stable_justified (coverage : List UInt8) :
    (storeSharing source).Stable (Justified source coverage) :=
  fun _ _ hkeeps h chunk hchunk hbit => hkeeps _ _ (h chunk hchunk hbit)

/-- The invariant, byte by byte of the sidecar. -/
theorem inv_iff_byteSupported {s : Store} :
    (storeSharing source).inv s ↔ ∀ p, ByteSupported source p (byteAt s.coverage p) s := by
  constructor
  · intro h p chunk hchunk hp hbit
    refine h chunk hchunk ?_
    rw [coverageBit, hp]
    exact hbit
  · intro h chunk hchunk hbit
    exact h _ chunk hchunk rfl hbit

theorem byteSupported_zero (position : Nat) (s : Store) : ByteSupported source position 0 s := by
  intro chunk _ _ hbit
  simp at hbit

/-! ### One call -/

/-- Source bytes written to their place in a mirror of full size. -/
theorem keeps_mirror_put {s : Store} {bytes : List UInt8} {offset : Nat}
    (hinv : (storeSharing source).inv s) (hlength : s.mirror.length = source.length)
    (hfits : offset + bytes.length ≤ source.length)
    (hbytes : ∀ i, i < bytes.length → byteAt bytes i = byteAt source (offset + i)) :
    (storeSharing source).inv (s.set .mirror (put s.mirror offset bytes)) ∧
      (storeSharing source).keeps s (s.set .mirror (put s.mirror offset bytes)) := by
  have hput : (put s.mirror offset bytes).length = source.length := by
    rw [length_put]
    split <;> omega
  have hshown : ∀ low high, Shown source low high s →
      Shown source low high (s.set .mirror (put s.mirror offset bytes)) := by
    intro low high h
    refine ⟨hput, ?_⟩
    intro p hlow hhigh
    show byteAt (put s.mirror offset bytes) p = byteAt source p
    rw [byteAt_put]
    split
    next hrange =>
        rw [hbytes (p - offset) (by omega), Nat.add_sub_cancel' hrange.1]
    next => exact h.2 p hlow hhigh
  exact ⟨fun chunk hchunk hbit => hshown _ _ (hinv chunk hchunk hbit), hshown⟩

/-- The write shows its range. -/
theorem shown_mirror_put {s : Store} {bytes : List UInt8} {low offset : Nat}
    (h : Shown source low offset s) (hfits : offset + bytes.length ≤ source.length)
    (hbytes : ∀ i, i < bytes.length → byteAt bytes i = byteAt source (offset + i)) :
    Shown source low (offset + bytes.length) (s.set .mirror (put s.mirror offset bytes)) := by
  have hput : (put s.mirror offset bytes).length = source.length := by
    have hlength := h.1
    rw [length_put]
    split <;> omega
  refine ⟨hput, ?_⟩
  intro p hlow hhigh
  show byteAt (put s.mirror offset bytes) p = byteAt source p
  rw [byteAt_put]
  split
  next hrange => rw [hbytes (p - offset) (by omega), Nat.add_sub_cancel' hrange.1]
  next hrange => exact h.2 p hlow (by omega)

/-- Supported bytes written to the sidecar. -/
theorem keeps_coverage_put {s : Store} {bytes : List UInt8} {offset : Nat}
    (hinv : (storeSharing source).inv s)
    (hbytes : ∀ i, i < bytes.length → ByteSupported source (offset + i) (byteAt bytes i) s) :
    (storeSharing source).inv (s.set .coverage (put s.coverage offset bytes)) ∧
      (storeSharing source).keeps s (s.set .coverage (put s.coverage offset bytes)) := by
  refine ⟨?_, fun _ _ h => h⟩
  rw [inv_iff_byteSupported] at hinv ⊢
  intro p
  show ByteSupported source p (byteAt (put s.coverage offset bytes) p) s
  rw [byteAt_put]
  split
  next hrange =>
      have hi := hbytes (p - offset) (by omega)
      rwa [Nat.add_sub_cancel' hrange.1] at hi
  next => exact hinv p

/-- Giving the mirror its size: a mirror of another size showed nothing. -/
theorem keeps_truncate {s : Store} (hinv : (storeSharing source).inv s) :
    (storeSharing source).inv (s.set .mirror (resize s.mirror source.length)) ∧
      (storeSharing source).keeps s (s.set .mirror (resize s.mirror source.length)) := by
  have hshown : ∀ low high, Shown source low high s →
      Shown source low high (s.set .mirror (resize s.mirror source.length)) := by
    intro low high h
    have hsame : resize s.mirror source.length = s.mirror := by
      rw [resize, ← h.1, List.take_length, Nat.sub_self, List.replicate_zero, List.append_nil]
    rw [hsame]
    exact h
  exact ⟨fun chunk hchunk hbit => hshown _ _ (hinv chunk hchunk hbit), hshown⟩

/-! ### Positioned writes and reads -/

variable (source)

/-- The rest of a positioned write keeps what each of its short writes keeps. -/
theorem positionedWrite_spec (file : StoreFile) (rest : List UInt8 → Nat → Store → Prop)
    (hstable : ∀ bytes offset, (storeSharing source).Stable (rest bytes offset))
    (hwrite : ∀ bytes offset s count, (storeSharing source).inv s → rest bytes offset s →
      count ≤ bytes.length →
      (storeSharing source).inv (s.set file (put (s.get file) offset (bytes.take count))) ∧
        (storeSharing source).keeps s (s.set file (put (s.get file) offset (bytes.take count))) ∧
        rest (bytes.drop count) (offset + count)
          (s.set file (put (s.get file) offset (bytes.take count))))
    (bytes : List UInt8) (offset : Nat) :
    (storeSharing source).Spec (rest bytes offset) (positionedWrite file bytes offset)
      (fun written s => written = true → rest [] (offset + bytes.length) s) := by
  -- induction on what is left to write
  induction hn : bytes.length using Nat.strongRecOn generalizing bytes offset with
  | ind n ih =>
      rw [positionedWrite]
      refine Sharing.Spec.ite ?_ ?_
      · intro hnil
        subst hnil
        subst hn
        exact Sharing.Spec.done (hstable _ _) (fun s _ hs _ => hs)
      · intro hne
        have hpos := List.length_pos_iff.2 hne
        refine @Sharing.Spec.call _ _ _ _ _ _ _ (fun (count : Nat) s => count ≤ bytes.length ∧
          rest (bytes.drop count) (offset + count) s) _ _ (hstable _ _) ?_ ?_
        · intro s count t hinv hrest heffect
          obtain ⟨hcount, heq⟩ := heffect
          obtain ⟨hinv', hkeeps, hrest'⟩ := hwrite bytes offset s count hinv hrest hcount
          rw [heq]
          exact ⟨hinv', hkeeps, hcount, hrest'⟩
        · intro (count : Nat)
          refine Sharing.Spec.ite ?_ ?_
          · intro _
            exact Sharing.Spec.done ((Sharing.Stable.const _).and (hstable _ _))
              (fun s _ _ hwritten => absurd hwritten Bool.false_ne_true)
          · intro hcount s hs
            have hlength : (bytes.drop count).length = n - count := by
              rw [List.length_drop, hn]
            have hrec := ih (n - count) (by omega) (bytes.drop count) (offset + count) hlength
            have hend : offset + count + (n - count) = offset + n := by omega
            rw [hend] at hrec
            exact hrec s hs.2

/-- Source bytes written to their place in the mirror show their range. -/
theorem positionedWrite_mirror (bytes : List UInt8) (low offset : Nat)
    (hfits : offset + bytes.length ≤ source.length)
    (hbytes : ∀ i, i < bytes.length → byteAt bytes i = byteAt source (offset + i)) :
    (storeSharing source).Spec (Shown source low offset) (positionedWrite .mirror bytes offset)
      (fun written s => written = true → Shown source low (offset + bytes.length) s) := by
  have hspec := positionedWrite_spec source .mirror
    (fun bytes offset s => (offset + bytes.length ≤ source.length ∧
      ∀ i, i < bytes.length → byteAt bytes i = byteAt source (offset + i)) ∧
      Shown source low offset s)
    (fun bytes offset => (Sharing.Stable.const _).and (stable_shown _ _)) ?_ bytes offset
  · exact hspec.weaken (fun s hs => ⟨⟨hfits, hbytes⟩, hs⟩)
      (fun written s _ hs hwritten => (hs hwritten).2)
  · intro bytes offset s count hinv hrest hcount
    obtain ⟨⟨hfits, hbytes⟩, hshown⟩ := hrest
    have hlength : (bytes.take count).length = count := List.length_take_of_le hcount
    have htake : ∀ i, i < (bytes.take count).length →
        byteAt (bytes.take count) i = byteAt source (offset + i) := by
      intro i hi
      rw [byteAt_take, if_pos (by omega), hbytes i (by omega)]
    have hfits' : offset + (bytes.take count).length ≤ source.length := by omega
    obtain ⟨hinv', hkeeps⟩ := keeps_mirror_put hinv hshown.1 hfits' htake
    have hshown' := shown_mirror_put hshown hfits' htake
    rw [hlength] at hshown'
    refine ⟨hinv', hkeeps, ⟨?_, ?_⟩, hshown'⟩
    · rw [List.length_drop]
      omega
    · intro i hi
      rw [List.length_drop] at hi
      rw [byteAt_drop, hbytes (count + i) (by omega), Nat.add_assoc]

/-- Supported bytes may be written to the sidecar. -/
theorem positionedWrite_coverage (bytes : List UInt8) (offset : Nat) :
    (storeSharing source).Spec
      (fun s => ∀ i, i < bytes.length → ByteSupported source (offset + i) (byteAt bytes i) s)
      (positionedWrite .coverage bytes offset) (fun _ _ => True) := by
  have hspec := positionedWrite_spec source .coverage
    (fun bytes offset s =>
      ∀ i, i < bytes.length → ByteSupported source (offset + i) (byteAt bytes i) s)
    (fun bytes offset => Sharing.Stable.forall
      (fun i => Sharing.Stable.imp (stable_byteSupported _ _))) ?_ bytes offset
  · exact hspec.weaken (fun _ hs => hs) (fun _ _ _ _ => trivial)
  · intro bytes offset s count hinv hrest hcount
    have htake : ∀ i, i < (bytes.take count).length →
        ByteSupported source (offset + i) (byteAt (bytes.take count) i) s := by
      intro i hi
      rw [List.length_take] at hi
      rw [byteAt_take, if_pos (by omega)]
      exact hrest i (by omega)
    obtain ⟨hinv', hkeeps⟩ := keeps_coverage_put hinv htake
    refine ⟨hinv', hkeeps, ?_⟩
    intro i hi
    rw [List.length_drop] at hi
    rw [byteAt_drop, Nat.add_assoc]
    exact hrest (count + i) (by omega)

/-- A read that returns has the whole range, and for each byte what the file
had to say about it when it was read. -/
theorem positionedRead_spec (file : StoreFile) {pre : Store → Prop}
    (tells : Nat → UInt8 → Store → Prop) (hpre : (storeSharing source).Stable pre)
    (htells : ∀ p byte, (storeSharing source).Stable (tells p byte))
    (hread : ∀ s, (storeSharing source).inv s → pre s → ∀ p, tells p (byteAt (s.get file) p) s)
    (length offset : Nat) :
    (storeSharing source).Spec pre (positionedRead file length offset)
      (fun bytes? s => ∀ bytes, bytes? = some bytes → bytes.length = length ∧
        ∀ i, i < length → tells (offset + i) (byteAt bytes i) s) := by
  induction length using Nat.strongRecOn generalizing offset with
  | ind length ih =>
      rw [positionedRead]
      refine Sharing.Spec.ite ?_ ?_
      · intro hzero
        refine Sharing.Spec.done hpre ?_
        intro s _ _ bytes hbytes
        obtain rfl := Option.some.inj hbytes
        exact ⟨hzero.symm, fun i hi => absurd hi (by omega)⟩
      · intro hlength
        refine @Sharing.Spec.call _ _ _ _ _ _ _ (fun (bytes : List UInt8) s => pre s ∧
          bytes.length ≤ length ∧ ∀ i, i < bytes.length → tells (offset + i) (byteAt bytes i) s)
          _ _ hpre ?_ ?_
        · intro s (bytes : List UInt8) t hinv hs heffect
          obtain ⟨rfl, hle, hslice⟩ := heffect
          refine ⟨hinv, (storeSharing source).refl _, hs, hle, ?_⟩
          intro i hi
          have hbyte : byteAt bytes i = byteAt (t.get file) (offset + i) := by
            rw [hslice, slice, byteAt_take, if_pos hi, byteAt_drop]
          rw [hbyte]
          exact hread t hinv hs (offset + i)
        · intro (bytes : List UInt8)
          have hmiddle : (storeSharing source).Stable (fun s => pre s ∧ bytes.length ≤ length ∧
              ∀ i, i < bytes.length → tells (offset + i) (byteAt bytes i) s) :=
            hpre.and ((Sharing.Stable.const _).and
              (Sharing.Stable.forall (fun i => Sharing.Stable.imp (htells _ _))))
          refine Sharing.Spec.ite ?_ ?_
          · intro _
            exact Sharing.Spec.done hmiddle (fun s _ _ bytes hbytes => by cases hbytes)
          · intro hne
            have hpos := List.length_pos_iff.2 hne
            have hrec := (ih (length - bytes.length) (by omega) (offset + bytes.length)).frame hmiddle
            refine Sharing.Spec.bind (hrec.weaken (fun s hs => ⟨hs.1, hs⟩) (fun _ _ _ h => h)) ?_
            intro rest?
            refine Sharing.Spec.done ?_ ?_
            · refine Sharing.Stable.and ?_ hmiddle
              refine Sharing.Stable.forall (fun rest => Sharing.Stable.imp ?_)
              exact (Sharing.Stable.const _).and
                (Sharing.Stable.forall (fun i => Sharing.Stable.imp (htells _ _)))
            · intro s _ hs whole hwhole
              obtain ⟨hrest, -, hle, hfirst⟩ := hs
              obtain ⟨rest, hsome, rfl⟩ := Option.map_eq_some_iff.1 hwhole
              obtain ⟨hlen, hsecond⟩ := hrest rest hsome
              refine ⟨by rw [List.length_append]; omega, ?_⟩
              intro i hi
              rw [byteAt_append]
              split
              next hlow => exact hfirst i hlow
              next hlow =>
                  have hbyte := hsecond (i - bytes.length) (by omega)
                  have hsum : offset + bytes.length + (i - bytes.length) = offset + i := by omega
                  rwa [hsum] at hbyte

/-! ### Acquisition -/

variable {source} in
theorem Shown.join {low middle middle' high : Nat} {s : Store} (h : Shown source low middle s)
    (h' : Shown source middle' high s) (hle : middle' ≤ middle) : Shown source low high s := by
  refine ⟨h.1, ?_⟩
  intro p hp hp'
  by_cases hmiddle : p < middle
  · exact h.2 p hp hmiddle
  · exact h'.2 p (by omega) hp'

variable {source} in
/-- The mirror has its full size. -/
theorem Shown.full {low high : Nat} {s : Store} (h : Shown source low high s) :
    Shown source 0 0 s :=
  ⟨h.1, fun p _ hp => absurd hp (Nat.not_lt_zero p)⟩

namespace ProgressiveSourceIdentity

variable {source} in
/-- The byte that `publish_chunk` writes claims the chunk and what the instance
already knows. -/
theorem byteSupported_publish {coverage : List UInt8} {chunk : Nat} {s : Store}
    (hjustified : Justified source coverage s) (hshown : ChunkShown source chunk s) :
    ByteSupported source (progressiveCoverageHeaderBytes + chunk / 8)
      (byteAt coverage (chunk / 8) ||| bitMask chunk) s := by
  intro other hother hposition hbit
  have hbyte : chunk / 8 = other / 8 := (Nat.add_left_cancel hposition).symm
  rcases or_bitMask _ hbyte hbit with heq | hold
  · rw [heq]
    exact hshown
  · refine hjustified other hother ?_
    rw [bitIsSet, ← hbyte]
    exact hold

variable {source} in
theorem justified_setBit {coverage : List UInt8} {chunk : Nat} {s : Store}
    (hjustified : Justified source coverage s) (hshown : ChunkShown source chunk s) :
    Justified source (setBit coverage chunk) s := by
  intro other hother hbit
  rcases bitIsSet_setBit hbit with heq | hold
  · rw [heq]
    exact hshown
  · exact hjustified other hother hold

theorem publishChunk_spec (coverage : List UInt8) (chunk : Nat) :
    (storeSharing source).Spec (fun s => Justified source coverage s ∧ ChunkShown source chunk s)
      (publishChunk coverage chunk) (fun published s => Justified source published.2 s) := by
  have hstable : (storeSharing source).Stable
      (fun s => Justified source coverage s ∧ ChunkShown source chunk s) :=
    (stable_justified coverage).and (stable_shown _ _)
  have hwrite := (positionedWrite_coverage source
    [byteAt coverage (chunk / 8) ||| bitMask chunk]
    (progressiveCoverageHeaderBytes + chunk / 8)).frame hstable
  refine Sharing.Spec.bind (hwrite.weaken ?_ (fun _ _ _ h => h)) ?_
  · intro s hs
    refine ⟨?_, hs⟩
    intro i hi
    obtain rfl : i = 0 := by simpa using hi
    exact byteSupported_publish hs.1 hs.2
  · intro written
    have hmiddle := (Sharing.Stable.const (S := storeSharing source) True).and hstable
    refine Sharing.Spec.ite ?_ ?_
    · intro _
      refine Sharing.Spec.done hmiddle ?_
      intro s _ hs
      obtain ⟨-, hjustified, hshown⟩ := hs
      show Justified source (if bitIsSet coverage chunk then coverage else setBit coverage chunk) s
      split
      next => exact hjustified
      next => exact justified_setBit hjustified hshown
    · intro _
      exact Sharing.Spec.done hmiddle (fun s _ hs => hs.2.1)

theorem publishChunks_spec (coverage : List UInt8) (first count : Nat) :
    (storeSharing source).Spec
      (fun s => Justified source coverage s ∧
        ∀ chunk, first ≤ chunk → chunk < first + count → ChunkShown source chunk s)
      (publishChunks coverage first count) (fun published s => Justified source published.2 s) := by
  have hstable : ∀ first count, (storeSharing source).Stable
      (fun s => ∀ chunk, first ≤ chunk → chunk < first + count → ChunkShown source chunk s) :=
    fun first count => Sharing.Stable.forall (fun chunk => Sharing.Stable.imp
      (Sharing.Stable.imp (stable_shown _ _)))
  induction count generalizing coverage first with
  | zero =>
      exact Sharing.Spec.done ((stable_justified _).and (hstable first 0)) (fun s _ hs => hs.1)
  | succ count ih =>
      have hpublish := (publishChunk_spec source coverage first).frame
        (hstable first (count + 1))
      refine Sharing.Spec.bind (hpublish.weaken ?_ (fun _ _ _ h => h)) ?_
      · intro s hs
        exact ⟨⟨hs.1, hs.2 first (Nat.le_refl _) (by omega)⟩, hs.2⟩
      · intro published
        obtain ⟨done, covered⟩ := published
        refine Sharing.Spec.ite ?_ ?_
        · intro _ s hs
          exact ih covered (first + 1) s
            ⟨hs.1, fun chunk hlow hhigh => hs.2 chunk (by omega) (by omega)⟩
        · intro _
          exact Sharing.Spec.done ((stable_justified _).and (hstable _ _)) (fun s _ hs => hs.1)

variable {identity : ProgressiveSourceIdentity}

variable (identity) in
theorem lt_chunkCount_iff (chunk : Nat) :
    chunk < identity.chunkCount ↔ chunk * chunkSize < identity.declaredSize := by
  unfold chunkCount chunkSize
  split <;> omega

/-- The end of a window, rounded down to the end of the source. -/
theorem windowEnd_eq {last : Nat} (hlast : last * chunkSize < identity.declaredSize) :
    (if last + 1 = identity.chunkCount then identity.declaredSize else (last + 1) * chunkSize) =
      min ((last + 1) * chunkSize) identity.declaredSize := by
  have hcount := (lt_chunkCount_iff identity last).2 hlast
  have hnext := lt_chunkCount_iff identity (last + 1)
  split
  next heq => omega
  next hne => omega

variable {source} in
theorem byteAt_slice {offset length i : Nat} (hi : i < length) :
    byteAt (slice source offset length) i = byteAt source (offset + i) := by
  rw [slice, byteAt_take, if_pos hi, byteAt_drop]

variable {source} in
/-- A chunk inside a shown range of whole chunks. -/
theorem chunkShown_of_shown {first last chunk : Nat} {s : Store}
    (h : Shown source (first * chunkSize) (min ((last + 1) * chunkSize) source.length) s)
    (hlow : first ≤ chunk) (hhigh : chunk < first + (last + 1 - first)) :
    ChunkShown source chunk s := by
  have hstart : first * chunkSize ≤ chunk * chunkSize := Nat.mul_le_mul_right _ hlow
  have hend : (chunk + 1) * chunkSize ≤ (last + 1) * chunkSize :=
    Nat.mul_le_mul_right _ (by omega)
  exact h.mono hstart (by omega)

theorem acquireWindow_spec (hidentity : identity.declaredSize = source.length)
    (coverage : List UInt8) {first last : Nat} (hle : first ≤ last)
    (hlast : last * chunkSize < source.length) :
    (storeSharing source).Spec (fun s => Justified source coverage s ∧ Shown source 0 0 s)
      (identity.acquireWindow coverage first last)
      (fun acquired s => Justified source acquired.2 s ∧ Shown source 0 0 s ∧
        (acquired.1 = true →
          Shown source (first * chunkSize) (min ((last + 1) * chunkSize) source.length) s)) := by
  have hpre : (storeSharing source).Stable
      (fun s => Justified source coverage s ∧ Shown source 0 0 s) :=
    (stable_justified coverage).and (stable_shown 0 0)
  have hstart : first * chunkSize ≤ last * chunkSize := Nat.mul_le_mul_right _ hle
  unfold acquireWindow
  rw [windowEnd_eq (by rw [hidentity]; exact hlast), hidentity]
  generalize hstop : min ((last + 1) * chunkSize) source.length = stop
  have hoffset : first * chunkSize < stop := by
    have hnext : (last + 1) * chunkSize = last * chunkSize + chunkSize := Nat.succ_mul _ _
    have hpos : 0 < chunkSize := by decide
    omega
  have hsource : stop ≤ source.length := by omega
  refine @Sharing.Spec.bind _ _ _ _ _ _ _ _ (fun remote s =>
    RangeRead.Honest source (first * chunkSize) (stop - first * chunkSize) remote ∧
      Justified source coverage s ∧ Shown source 0 0 s) _ _ ?_ ?_
  · refine @Sharing.Spec.call _ _ _ _ _ _ _ (fun (remote : RangeRead) s =>
      remote.Honest source (first * chunkSize) (stop - first * chunkSize) ∧
        Justified source coverage s ∧ Shown source 0 0 s) _ _ hpre ?_ ?_
    · intro s remote t hinv hs heffect
      obtain ⟨rfl, hhonest⟩ := heffect
      exact ⟨hinv, (storeSharing source).refl _, hhonest, hs⟩
    · intro remote
      exact Sharing.Spec.done ((Sharing.Stable.const _).and hpre) (fun s _ hs => hs)
  · intro remote
    refine Sharing.Spec.ite ?_ ?_
    · intro _
      exact Sharing.Spec.done ((Sharing.Stable.const _).and hpre)
        (fun s _ hs => ⟨hs.2.1, hs.2.2, fun h => absurd h Bool.false_ne_true⟩)
    · intro hclaims s hs
      simp only [Bool.not_eq_true, Bool.or_eq_false_iff, Bool.not_eq_false', bne_eq_false_iff_eq]
        at hclaims
      obtain ⟨⟨⟨hreturned, hrequested⟩, hlength⟩, hbytes⟩ := hclaims
      have hdestination := hs.1 hreturned hrequested hlength hbytes
      have hsize : remote.destination.length = stop - first * chunkSize := by
        rw [hdestination, slice_length_of_le (by omega)]
      have hplace : ∀ i, i < remote.destination.length →
          byteAt remote.destination i = byteAt source (first * chunkSize + i) := by
        intro i hi
        rw [hdestination, byteAt_slice (by omega)]
      have hwrite := (positionedWrite_mirror source remote.destination
        (first * chunkSize) (first * chunkSize) (by omega) hplace).frame hpre
      have hend : first * chunkSize + remote.destination.length = stop := by omega
      rw [hend] at hwrite
      refine Sharing.Spec.bind hwrite ?_ s ⟨⟨hs.2.2.1, fun p hp hp' => absurd hp (by omega)⟩, hs.2⟩
      intro written
      have hmiddle : (storeSharing source).Stable (fun s =>
          (written = true → Shown source (first * chunkSize) stop s) ∧
            Justified source coverage s ∧ Shown source 0 0 s) :=
        (Sharing.Stable.imp (stable_shown _ _)).and hpre
      refine Sharing.Spec.ite ?_ ?_
      · intro hwritten
        have hpublish := (publishChunks_spec source coverage first
          (last + 1 - first)).frame
          (stable_shown (first * chunkSize) stop)
        refine hpublish.weaken ?_ ?_
        · intro s hs
          have hshown := hs.1 hwritten
          refine ⟨⟨hs.2.1, ?_⟩, hshown⟩
          intro chunk hlow hhigh
          rw [← hstop] at hshown
          exact chunkShown_of_shown hshown hlow hhigh
        · intro published s _ hs
          exact ⟨hs.1, hs.2.full, fun _ => hs.2⟩
      · intro _
        exact Sharing.Spec.done hmiddle
          (fun s _ hs => ⟨hs.2.1, hs.2.2, fun h => absurd h Bool.false_ne_true⟩)

theorem windowLast_le {coverage : List UInt8} {windowFirst lastChunk current : Nat}
    (hle : current ≤ lastChunk) : windowLast coverage windowFirst lastChunk current ≤ lastChunk := by
  fun_induction windowLast coverage windowFirst lastChunk current with
  | case1 current h ih => exact ih (by omega)
  | case2 current h => exact hle

theorem stable_progress (coverage : List UInt8) (low high : Nat) :
    (storeSharing source).Stable (fun s => Justified source coverage s ∧ Shown source low high s) :=
  (stable_justified coverage).and (stable_shown low high)

/-- The loop of `read_range`: what is shown grows chunk by chunk to the end. -/
theorem acquireChunks_spec (hidentity : identity.declaredSize = source.length)
    (coverage : List UInt8) (low chunk lastChunk : Nat) (hle : chunk ≤ lastChunk + 1)
    (hlast : lastChunk * chunkSize < source.length) :
    (storeSharing source).Spec
      (fun s => Justified source coverage s ∧
        Shown source low (min (chunk * chunkSize) source.length) s)
      (identity.acquireChunks coverage chunk lastChunk)
      (fun acquired s => Justified source acquired.2 s ∧ Shown source 0 0 s ∧
        (acquired.1 = true →
          Shown source low (min ((lastChunk + 1) * chunkSize) source.length) s)) := by
  -- induction on the chunks that are left
  induction hn : lastChunk + 1 - chunk using Nat.strongRecOn generalizing coverage chunk with
  | ind n ih =>
      rw [acquireChunks]
      have hstable := stable_progress source coverage low
        (min (chunk * chunkSize) source.length)
      refine Sharing.Spec.ite ?_ ?_
      · intro hmore
        have hchunk : chunk * chunkSize < source.length :=
          (Nat.mul_le_mul_right _ hmore).trans_lt hlast
        have hstart : min (chunk * chunkSize) source.length = chunk * chunkSize := by omega
        refine Sharing.Spec.ite ?_ ?_
        · intro hbit
          have hrec := ih (lastChunk + 1 - (chunk + 1)) (by omega) coverage (chunk + 1)
            (by omega) rfl
          refine hrec.weaken ?_ (fun _ _ _ h => h)
          intro s hs
          have hshown : ChunkShown source chunk s := hs.1 chunk hchunk hbit
          exact ⟨hs.1, hs.2.join hshown (by omega)⟩
        · intro _
          have hgrow : chunk ≤ windowLast coverage chunk lastChunk chunk := le_windowLast _ _ _ _
          have hbound : windowLast coverage chunk lastChunk chunk ≤ lastChunk := windowLast_le hmore
          generalize windowLast coverage chunk lastChunk chunk = last at hgrow hbound ⊢
          have hwindow : last * chunkSize < source.length :=
            (Nat.mul_le_mul_right _ hbound).trans_lt hlast
          have hacquire := (acquireWindow_spec source hidentity coverage hgrow
            hwindow).frame (stable_shown low (min (chunk * chunkSize) source.length))
          refine Sharing.Spec.bind (hacquire.weaken ?_ (fun _ _ _ h => h)) ?_
          · intro s hs
            exact ⟨⟨hs.1, hs.2.full⟩, hs.2⟩
          · intro acquired
            obtain ⟨done, covered⟩ := acquired
            refine Sharing.Spec.ite ?_ ?_
            · intro hdone
              have hrec := ih (lastChunk + 1 - (last + 1)) (by omega) covered (last + 1)
                (by omega) rfl
              refine hrec.weaken ?_ (fun _ _ _ h => h)
              intro s hs
              exact ⟨hs.1.1, hs.2.join (hs.1.2.2 hdone) (by omega)⟩
            · intro _
              refine Sharing.Spec.done ?_ ?_
              · exact ((stable_justified covered).and ((stable_shown 0 0).and
                  (Sharing.Stable.imp (stable_shown _ _)))).and (stable_shown _ _)
              · exact fun s _ hs => ⟨hs.1.1, hs.1.2.1, fun h => absurd h Bool.false_ne_true⟩
      · intro hend
        obtain rfl : chunk = lastChunk + 1 := by omega
        exact Sharing.Spec.done hstable (fun s _ hs => ⟨hs.1, hs.2.full, fun _ => hs.2⟩)

theorem validRange_eq_some {offset length stop : Nat}
    (h : identity.validRange offset length = some stop) :
    length ≠ 0 ∧ stop = offset + length ∧ stop ≤ identity.declaredSize := by
  unfold validRange checkedEnd at h
  by_cases hend : length = 0 ∨ offset > 2 ^ 64 - 1 - length
  · rw [if_pos hend] at h
    cases h
  · rw [if_neg hend] at h
    by_cases hfits : length ≠ 0 ∧ offset + length ≤ identity.declaredSize
    · simp only [if_pos hfits, Option.some.injEq] at h
      exact ⟨hfits.1, h.symm, by omega⟩
    · simp only [if_neg hfits, reduceCtorEq] at h

/-- The bytes that a read of a shown range returns. -/
theorem positionedRead_mirror (offset length : Nat) :
    (storeSharing source).Spec (Shown source offset (offset + length))
      (positionedRead .mirror length offset)
      (fun bytes? _ => ∀ bytes, bytes? = some bytes → offset + length ≤ source.length →
        bytes = slice source offset length) := by
  have hread := positionedRead_spec source .mirror
    (fun p byte _ => offset ≤ p → p < offset + length → byte = byteAt source p)
    (stable_shown offset (offset + length)) (fun _ _ => Sharing.Stable.const _)
    (fun s _ hs p hlow hhigh => hs.2 p hlow hhigh) length offset
  refine hread.weaken (fun _ hs => hs) ?_
  intro bytes? s _ hs bytes hbytes hfits
  obtain ⟨hlength, hbyte⟩ := hs bytes hbytes
  refine ext_byteAt ?_ ?_
  · rw [hlength, slice_length_of_le hfits]
  · intro i hi
    rw [byteAt_slice (by omega), hbyte i (by omega) (by omega) (by omega)]

/-- What a `read_range` gives its caller. -/
def Delivers (source : List UInt8) (offset length : Nat) (read : RangeRead) : Prop :=
  read.returned = true →
    offset + length ≤ source.length ∧ read.destination = slice source offset length

theorem readRange_spec (hidentity : identity.declaredSize = source.length)
    (coverage : List UInt8) (destination : Bool) (offset length : Nat) :
    (storeSharing source).Spec (fun s => Justified source coverage s ∧ Shown source 0 0 s)
      (identity.readRange coverage destination offset length)
      (fun answer s => Delivers source offset length answer.1 ∧
        Justified source answer.2 s ∧ Shown source 0 0 s) := by
  have hpre := stable_progress source coverage 0 0
  unfold readRange
  cases hrange : (if destination = true then identity.validRange offset length else none) with
  | none =>
      exact Sharing.Spec.done hpre (fun s _ hs => ⟨fun h => absurd h Bool.false_ne_true, hs⟩)
  | some stop =>
      have hvalid : identity.validRange offset length = some stop := by
        cases destination with
        | false => cases hrange
        | true => exact hrange
      obtain ⟨hlength, hstop, hfits⟩ := validRange_eq_some hvalid
      have hfirst := Nat.div_mul_le_self offset chunkSize
      have hfinal := Nat.div_mul_le_self (stop - 1) chunkSize
      have hafter : stop - 1 < ((stop - 1) / chunkSize + 1) * chunkSize :=
        (Nat.div_lt_iff_lt_mul (by decide)).1 (Nat.lt_succ_self _)
      have hchunks : offset / chunkSize ≤ (stop - 1) / chunkSize :=
        Nat.div_le_div_right (by omega)
      have hacquire := acquireChunks_spec source hidentity coverage
        (offset / chunkSize * chunkSize) (offset / chunkSize) ((stop - 1) / chunkSize) (by omega)
        (by omega)
      refine Sharing.Spec.bind (hacquire.weaken ?_ (fun _ _ _ h => h)) ?_
      · intro s hs
        exact ⟨hs.1, hs.2.1, fun p hp hp' => absurd hp (by omega)⟩
      · intro acquired
        obtain ⟨done, covered⟩ := acquired
        have hstable : (storeSharing source).Stable (fun s => Justified source covered s ∧
            Shown source 0 0 s) := stable_progress source covered 0 0
        refine Sharing.Spec.ite ?_ ?_
        · intro hdone
          have hread := (positionedRead_mirror source offset length).frame hstable
          refine Sharing.Spec.bind (hread.weaken ?_ (fun _ _ _ h => h)) ?_
          · intro s hs
            exact ⟨(hs.2.2 hdone).mono hfirst (by omega), hs.1, hs.2.1⟩
          · intro bytes?
            have hmiddle := (Sharing.Stable.const (S := storeSharing source) (∀ bytes,
              bytes? = some bytes → offset + length ≤ source.length →
                bytes = slice source offset length)).and hstable
            cases bytes? with
            | none =>
                exact Sharing.Spec.done hmiddle
                  (fun s _ hs => ⟨fun h => absurd h Bool.false_ne_true, hs.2⟩)
            | some bytes =>
                refine Sharing.Spec.done hmiddle ?_
                intro s _ hs
                have hend : offset + length ≤ source.length := by omega
                exact ⟨fun _ => ⟨hend, hs.1 bytes rfl hend⟩, hs.2⟩
        · intro _
          refine Sharing.Spec.done ?_ ?_
          · exact (stable_justified covered).and ((stable_shown 0 0).and
              (Sharing.Stable.imp (stable_shown _ _)))
          · exact fun s _ hs => ⟨fun h => absurd h Bool.false_ne_true, hs.1, hs.2.1⟩

end ProgressiveSourceIdentity

end Sharing

end VBuf.Ggml
