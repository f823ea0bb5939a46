import VBuf.Ggml.LocalObtain
import VBuf.Ggml.TensorWaveSafety

/-!
# On-demand execution against preloaded execution

The executor asks for each weight with a budget of that weight's own length,
while the local materializer counts its ready bytes against the budget.  So a
weight is admitted only when nothing else is held.  `WeightsFit` says that this
is so at each first use of a graph's schedule, and it is exactly when on-demand
execution does what preloaded execution does.
-/

namespace VBuf.Ggml

open VBuf.Lib

namespace TensorDependencyExecutor

/-- `derive_tensor_geometry` refuses a rank that ggml does not have, before any
ggml call of the operation. -/
def withRankCheck (semantics : OperationSemantics) : OperationSemantics :=
  fun operation operands =>
    if operands.any (fun operand =>
        operand.dimensions.length == 0 || decide (ggmlMaxDims < operand.dimensions.length)) then
      .error (.adapter .invalidRank "rank is outside the ggml descriptor range")
    else semantics operation operands

theorem dimensions_le_of_ok {semantics : OperationSemantics} {operation : TensorWaveOp}
    {operands : List Operand} {product : Product}
    (h : withRankCheck semantics operation operands = .ok product) {operand : Operand}
    (hmem : operand ∈ operands) : operand.dimensions.length ≤ ggmlMaxDims := by
  unfold withRankCheck at h
  split at h
  · cases h
  · rename_i hany
    by_contra hlarge
    apply hany
    rw [List.any_eq_true]
    exact ⟨operand, hmem, by simp [Nat.lt_of_not_le hlarge]⟩

variable (g : TensorDependencyExecutor)

/-- The length of a weight. -/
def weightLen (p : Nat) : UInt64 := (g.persistentAt p).view.payloadLen

/-- The weights that are held when the operations of `done` have run and the
`earlier` inputs of the next one are acquired. -/
def heldBytes (done : List Nat) (earlier : List TensorWaveRef) : Nat :=
  (((List.range g.persistent.length).filter fun p =>
    (decide (0 < g.uses done (.persistent p)) || decide (.persistent p ∈ earlier)) &&
      decide (g.uses done (.persistent p) < g.consumers (.persistent p))).map
    (fun p => (g.weightLen p).toNat)).sum

/-- Each weight that operation `i` is the first to use fits beside what is held. -/
def WeightsFitAt (done : List Nat) (i : Nat) : Prop :=
  ∀ earlier p later, (g.operationAt i).inputs = earlier ++ .persistent p :: later →
    g.uses done (.persistent p) = 0 → .persistent p ∉ earlier →
    UInt64.ofNat (g.heldBytes done earlier) + g.weightLen p ≤ g.weightLen p

/-- At each first use of a weight, no other weight is between its first and its
last use (or the sum wraps). -/
def WeightsFit : Prop :=
  ∀ before i after, g.schedule = before ++ i :: after → g.WeightsFitAt before i

/-- A source with the bytes of every persistent tensor. -/
def Holds (read : RangeReader) (storageProvider : TensorWaveStorageProvider) : Prop :=
  ∀ p, p < g.persistent.length → read (g.persistentAt p).sourceOffset (g.weightLen p) =
    some (storageProvider (g.persistentAt p).view)

/-- What the two executions agree on, and what the materializer is left with. -/
structure Agrees (preloaded : Outcome Unit) (onDemand : Outcome LocalVbufRangeMaterializer) :
    Prop where
  result : onDemand.result = preloaded.result
  output : onDemand.output = preloaded.output
  outputShape : onDemand.outputShape = preloaded.outputShape
  inflight : onDemand.materializer.inflightBytes = 0
  ready : onDemand.materializer.readyBytes = 0

/-! ### The local materializer as a supply -/

section Supply

variable (storageProvider : TensorWaveStorageProvider)

/-- The materializer holds what is resident, and nothing is under way. -/
structure LocalInv (resident : AssocMap Nat ResidentTensor) (leases : List Nat)
    (m : LocalVbufRangeMaterializer) : Prop where
  settled : m.Settled
  idle : m.inflightBytes = 0
  bytes : m.readyBytes = UInt64.ofNat (residentBytes resident)
  held : ∀ p tensor, resident.lookup p = some tensor →
    tensor = residentAt g storageProvider p ∧ ∃ ready,
      m.requests.lookup p = some ⟨g.persistentAt p, .ready, some ready⟩ ∧
      Operand.ofMaterialized ready = Operand.ofView (g.persistentAt p).view
        (storageProvider (g.persistentAt p).view)
  free : ∀ p, resident.lookup p = none → m.Free p
  nodup : leases.Nodup
  leased : ∀ p, p ∈ leases ↔ (resident.lookup p).isSome

/-- The worker of a weight reads its bytes. -/
def Delivers (read : RangeReader) (p : Nat) : Prop :=
  read (g.persistentAt p).sourceOffset (g.weightLen p) =
      some (storageProvider (g.persistentAt p).view) ∧
    (g.persistentAt p).view.dimensions.length ≤ ggmlMaxDims

variable {g} {storageProvider} {read : RangeReader} {fallbackSource : Option RangeReader}
  {finishing : Nat → List Nat} {resident : AssocMap Nat ResidentTensor} {leases : List Nat}
  {m : LocalVbufRangeMaterializer} {p : Nat}

open LocalVbufRangeMaterializer

theorem Delivers.read_eq (h : Delivers g storageProvider read p) :
    (readPayload (some read) fallbackSource (g.persistentAt p)).bind
      (MaterializedTensor.assignView (g.persistentAt p).view) =
        some ⟨(g.persistentAt p).view.representation, (g.persistentAt p).view.dimensions,
          storageProvider (g.persistentAt p).view, g.weightLen p⟩ := by
  obtain ⟨hread, hdimensions⟩ := h
  have hpayload : readPayload (some read) fallbackSource (g.persistentAt p) =
      some (storageProvider (g.persistentAt p).view) := by
    unfold readPayload
    rw [weightLen] at hread
    simp only [hread]
  rw [hpayload, Option.bind_some, MaterializedTensor.assignView,
    if_neg (Nat.not_lt.2 hdimensions)]
  rfl

/-- The room of a settled materializer is what is resident. -/
theorem LocalInv.admits_iff (h : LocalInv g storageProvider resident leases m) (p : Nat) :
    m.Admits (g.persistentAt p) ↔
      UInt64.ofNat (residentBytes resident) + g.weightLen p ≤ g.weightLen p := by
  unfold Admits weightLen
  rw [h.idle, h.bytes, UInt64.zero_add]

theorem LocalInv.fresh : LocalInv g storageProvider ∅ [] LocalVbufRangeMaterializer.fresh where
  settled := by
    intro ref request hlookup
    simp [LocalVbufRangeMaterializer.fresh] at hlookup
  idle := rfl
  bytes := rfl
  held := by
    intro p tensor hlookup
    simp at hlookup
  free := by
    intro p _ request hlookup
    simp [LocalVbufRangeMaterializer.fresh] at hlookup
  nodup := List.nodup_nil
  leased := by simp

/-- A weight that fits is acquired. -/
theorem LocalInv.acquire (h : LocalInv g storageProvider resident leases m)
    (hnew : resident.lookup p = none)
    (hfits : UInt64.ofNat (residentBytes resident) + g.weightLen p ≤ g.weightLen p)
    (hdelivers : Delivers g storageProvider read p) :
    ∃ ready m', obtainReady (waveMaterializer (some read) fallbackSource finishing) p
        (g.persistentAt p) m = (.ok ready, m') ∧
      Operand.ofMaterialized ready = Operand.ofView (g.persistentAt p).view
        (storageProvider (g.persistentAt p).view) ∧
      LocalInv g storageProvider (resident.insert p (residentAt g storageProvider p))
        (leases.insert p) m' := by
  obtain ⟨m', hobtain, hdelivered⟩ := obtainReady_of_free (some read) fallbackSource finishing
    h.settled (h.free p hnew) ((h.admits_iff p).2 hfits) hdelivers.read_eq
  refine ⟨_, m', hobtain, rfl, ⟨hdelivered.settled h.settled, ?_, ?_, ?_, ?_, ?_, ?_⟩⟩
  · rw [hdelivered.inflight, h.idle]
  · rw [hdelivered.readyBytes, h.bytes, residentBytes, residentBytes,
      AssocMap.total_insert_new _ _ hnew, UInt64.ofNat_add, UInt64.add_comm]
    congr 1
    exact UInt64.ofNat_toNat.symm
  · intro q tensor hlookup
    rw [AssocMap.lookup_insert_eq] at hlookup
    rw [hdelivered.requests]
    by_cases hq : q = p
    · subst hq
      rw [if_pos rfl] at hlookup ⊢
      exact ⟨(Option.some.inj hlookup).symm, _, rfl, rfl⟩
    · rw [if_neg hq] at hlookup ⊢
      exact h.held q tensor hlookup
  · intro q hlookup request hrequest
    rw [AssocMap.lookup_insert_eq] at hlookup
    by_cases hq : q = p
    · rw [if_pos hq] at hlookup
      cases hlookup
    · rw [if_neg hq] at hlookup
      rw [hdelivered.requests, if_neg hq] at hrequest
      exact h.free q hlookup request hrequest
  · exact h.nodup.insert
  · intro q
    rw [List.mem_insert_iff, AssocMap.lookup_insert_eq]
    by_cases hq : q = p
    · simp [hq]
    · rw [if_neg hq, ← h.leased q]
      simp [hq]

/-- A weight that is resident is obtained again. -/
theorem LocalInv.again (h : LocalInv g storageProvider resident leases m) {tensor : ResidentTensor}
    (hlookup : resident.lookup p = some tensor) :
    ∃ ready m', obtainReady (waveMaterializer (some read) fallbackSource finishing) p
        (g.persistentAt p) m = (.ok ready, m') ∧
      Operand.ofMaterialized ready = Operand.ofView (g.persistentAt p).view
        (storageProvider (g.persistentAt p).view) ∧
      LocalInv g storageProvider resident (leases.insert p) m' := by
  obtain ⟨-, ready, hrequest, hready⟩ := h.held p tensor hlookup
  obtain ⟨calls, hobtain⟩ := obtainReady_of_ready (some read) fallbackSource finishing h.settled
    hrequest rfl rfl
  have hleased : p ∈ leases := (h.leased p).2 (by rw [hlookup]; rfl)
  refine ⟨ready, _, hobtain, hready, ?_⟩
  rw [List.insert_of_mem hleased]
  exact ⟨h.settled, h.idle, h.bytes, h.held, h.free, h.nodup, h.leased⟩

/-- A weight goes with its last use. -/
theorem LocalInv.release (h : LocalInv g storageProvider resident leases m) {tensor : ResidentTensor}
    (hlookup : resident.lookup p = some tensor) :
    LocalInv g storageProvider (resident.erase p) (leases.erase p)
      (releaseLease (some (waveMaterializer (some read) fallbackSource finishing)) p leases m) := by
  have hleased : p ∈ leases := (h.leased p).2 (by rw [hlookup]; rfl)
  obtain ⟨htensor, ready, hrequest, -⟩ := h.held p tensor hlookup
  obtain ⟨m', hrelease, hrequests, hinflight, hbytes⟩ := release_spec (some read)
    fallbackSource finishing h.settled hrequest
  have hm : releaseLease (some (waveMaterializer (some read) fallbackSource finishing)) p leases m =
      m' := by
    simp only [releaseLease, if_pos hleased]
    exact hrelease
  rw [hm]
  refine ⟨?_, ?_, ?_, ?_, ?_, h.nodup.erase p, ?_⟩
  · intro q request hq
    rw [hrequests] at hq
    by_cases hqp : q = p
    · rw [if_pos hqp] at hq
      rw [← Option.some.inj hq]
      exact MaterializationState.noConfusion
    · rw [if_neg hqp] at hq
      exact h.settled q request hq
  · rw [hinflight, h.idle]
  · rw [hbytes, h.bytes]
    refine AssocMap.ofNat_total_erase hlookup ?_
    rw [htensor]
    rfl
  · intro q other hq
    rw [AssocMap.lookup_erase_eq] at hq
    by_cases hqp : q = p
    · rw [if_pos hqp] at hq
      cases hq
    · rw [if_neg hqp] at hq
      rw [hrequests, if_neg hqp]
      exact h.held q other hq
  · intro q hq request hrequest'
    rw [hrequests] at hrequest'
    by_cases hqp : q = p
    · rw [if_pos hqp] at hrequest'
      rw [← Option.some.inj hrequest']
    · rw [if_neg hqp] at hrequest'
      rw [AssocMap.lookup_erase_eq, if_neg hqp] at hq
      exact h.free q hq request hrequest'
  · intro q
    rw [h.nodup.mem_erase_iff, AssocMap.lookup_erase_eq, h.leased q]
    by_cases hqp : q = p
    · simp [hqp]
    · simp [hqp]

variable (g storageProvider read fallbackSource finishing) in
/-- Weights that are read when they are needed. -/
def onDemand :
    Supply g storageProvider (some (waveMaterializer (some read) fallbackSource finishing)) where
  inv := LocalInv g storageProvider
  allowed := fun weight p => weight + g.weightLen p ≤ g.weightLen p ∧
    Delivers g storageProvider read p
  acquire_none := fun _ _ _ _ h => by cases h
  acquire_some := by
    intro ops resident leases m p hops hinv hnew hallowed
    cases hops
    exact hinv.acquire hnew hallowed.1 hallowed.2
  again := by
    intro ops resident leases m p tensor hops hinv hlookup
    cases hops
    exact hinv.again hlookup
  release := fun _ _ _ _ _ hinv hlookup => hinv.release hlookup

end Supply

/-! ### First uses -/

section FirstUse

variable {g : TensorDependencyExecutor} {β : Type} {storageProvider : TensorWaveStorageProvider}

/-- Every reference to a persistent tensor is one of the graph. -/
def PersistentsLt (g : TensorDependencyExecutor) : Prop :=
  ∀ operation ∈ g.operations, ∀ p, .persistent p ∈ operation.inputs → p < g.persistent.length

theorem PersistentsLt.lt_of_consumers (h : PersistentsLt g) {p : Nat}
    (hp : 0 < g.consumers (.persistent p)) : p < g.persistent.length := by
  rw [consumers, List.count_pos_iff, List.mem_flatMap] at hp
  obtain ⟨operation, hoperation, hmem⟩ := hp
  exact h operation hoperation p hmem

/-- The counter of the executor, as a sum over the graph. -/
theorem Flow.heldBytes_eq (hrefs : PersistentsLt g) {done : List Nat} {earlier : List TensorWaveRef}
    {available : Nat → Prop} {run : WaveRun β}
    (h : Flow g storageProvider (g.uses done)
      (fun q => 0 < g.uses done (.persistent q) ∨ .persistent q ∈ earlier) available run) :
    residentBytes run.resident = g.heldBytes done earlier := by
  refine AssocMap.total_eq_sum_filter ?_ ?_
  · intro p
    rw [h.resident_isSome p, Bool.and_eq_true, Bool.or_eq_true, decide_eq_true_eq,
      decide_eq_true_eq, decide_eq_true_eq]
    constructor
    · intro hboth
      exact ⟨hrefs.lt_of_consumers (by omega), hboth⟩
    · exact fun hboth => hboth.2
  · intro p tensor hlookup
    rw [h.resident_eq p tensor hlookup]
    rfl

variable {read : RangeReader} {fallbackSource : Option RangeReader} {finishing : Nat → List Nat}

/-- Weights that fit are acquired when they come. -/
theorem WeightsFitAt.allowed {done : List Nat} {i : Nat} (h : g.WeightsFitAt done i)
    (hrefs : PersistentsLt g)
    (hdelivers : ∀ p, .persistent p ∈ (g.operationAt i).inputs → Delivers g storageProvider read p) :
    AllowedAt (onDemand g storageProvider read fallbackSource finishing) done i := by
  intro earlier p later hinputs hunused hnew run hflow
  refine ⟨?_, hdelivers p ?_⟩
  · rw [hflow.weight, hflow.heldBytes_eq hrefs]
    exact h earlier p later hinputs (Nat.eq_zero_of_not_pos hunused) hnew
  · rw [hinputs]
    exact List.mem_append_right _ List.mem_cons_self

/-- A weight that does not fit ends the acquisition loop. -/
theorem acquireInputs_refused (operation : TensorWaveOp) {u : TensorWaveRef → Nat}
    {available : Nat → Prop} (refs : List TensorWaveRef) {acquired : Nat → Prop}
    {run : WaveRun LocalVbufRangeMaterializer} (inputs : AcquiredInputs)
    (h : Flow g storageProvider u acquired available run)
    (hinv : (onDemand g storageProvider read fallbackSource finishing).At run)
    (huses : ∀ p, .persistent p ∈ refs → u (.persistent p) < g.consumers (.persistent p))
    (hdelivers : ∀ p, .persistent p ∈ refs → Delivers g storageProvider read p)
    (hrefused : ∃ earlier p later, refs = earlier ++ .persistent p :: later ∧ ¬ acquired p ∧
      .persistent p ∉ earlier ∧ ∀ run : WaveRun LocalVbufRangeMaterializer,
        Flow g storageProvider u (fun q => acquired q ∨ .persistent q ∈ earlier) available run →
        ¬ run.activeWeightBytes + g.weightLen p ≤ g.weightLen p) :
    ∃ failure run', g.acquireInputs storageProvider
      (some (LocalVbufRangeMaterializer.waveMaterializer (some read) fallbackSource finishing))
      operation refs inputs run = (.error failure, run') := by
  induction refs generalizing acquired run inputs with
  | nil =>
      obtain ⟨earlier, p, later, heq, -⟩ := hrefused
      simp at heq
  | cons ref rest ih =>
      obtain ⟨earlier, p, later, heq, hp, hnew, hfull⟩ := hrefused
      have hrestUses : ∀ q, .persistent q ∈ rest → u (.persistent q) < g.consumers (.persistent q) :=
        fun q hq => huses q (List.mem_cons_of_mem _ hq)
      have hrestDelivers : ∀ q, .persistent q ∈ rest → Delivers g storageProvider read q :=
        fun q hq => hdelivers q (List.mem_cons_of_mem _ hq)
      cases ref with
      | value v =>
          rw [acquireInputs]
          apply ih inputs h hinv hrestUses hrestDelivers
          cases earlier with
          | nil => cases heq
          | cons first earlier =>
              obtain ⟨rfl, hrest⟩ := List.cons.inj heq
              refine ⟨earlier, p, later, hrest, hp, fun hmem => hnew (List.mem_cons_of_mem _ hmem),
                fun run hflow => hfull run (hflow.congr (by simp))⟩
      | persistent r =>
          by_cases hresident : (run.resident.lookup r).isSome
          · rw [acquireInputs, if_pos hresident]
            have hacq : acquired r := ((h.resident_isSome r).1 hresident).1
            apply ih inputs h hinv hrestUses hrestDelivers
            cases earlier with
            | nil =>
                obtain ⟨hrp, -⟩ := List.cons.inj heq
                rw [TensorWaveRef.persistent.inj hrp] at hacq
                exact absurd hacq hp
            | cons first earlier =>
                obtain ⟨rfl, hrest⟩ := List.cons.inj heq
                refine ⟨earlier, p, later, hrest, hp, fun hmem => hnew (List.mem_cons_of_mem _ hmem),
                  fun run hflow => hfull run (hflow.congr ?_)⟩
                intro q
                rw [← or_eq_or_mem]
                constructor
                · intro hq
                  rcases hq with hq | hq
                  · exact Or.inl (Or.inl hq)
                  · exact Or.inr hq
                · intro hq
                  rcases hq with (hq | rfl) | hq
                  · exact Or.inl hq
                  · exact Or.inl hacq
                  · exact Or.inr hq
          · have hnone : run.resident.lookup r = none := Option.not_isSome_iff_eq_none.1 hresident
            have hdeliver := hdelivers r List.mem_cons_self
            simp only [acquireInputs, if_neg hresident]
            by_cases hfits : run.activeWeightBytes + g.weightLen r ≤ g.weightLen r
            · -- this weight is acquired, so the one that does not fit comes later
              obtain ⟨ready, m', hobtain, hready, hinvReady⟩ :=
                (onDemand g storageProvider read fallbackSource finishing).acquire_some _ _ _ _ r rfl
                  hinv hnone ⟨by rw [← h.weight]; exact hfits, hdeliver⟩
              have hpayload : ready.payload = storageProvider (g.persistentAt r).view :=
                congrArg Operand.bytes hready
              simp only [hobtain, hpayload]
              have hflow : Flow g storageProvider u (fun q => acquired q ∨ q = r) available
                  (g.acquire r (storageProvider (g.persistentAt r).view) (lease r m' run)) :=
                (h.acquire (huses r List.mem_cons_self) hnone).same rfl rfl rfl rfl rfl
              apply ih _ hflow hinvReady hrestUses hrestDelivers
              cases earlier with
              | nil =>
                  obtain ⟨hrp, -⟩ := List.cons.inj heq
                  rw [TensorWaveRef.persistent.inj hrp] at hfits
                  exact absurd hfits (hfull run (h.congr (by simp)))
              | cons first earlier =>
                  obtain ⟨rfl, hrest⟩ := List.cons.inj heq
                  refine ⟨earlier, p, later, hrest, ?_,
                    fun hmem => hnew (List.mem_cons_of_mem _ hmem),
                    fun run hflow => hfull run (hflow.congr or_eq_or_mem)⟩
                  intro hor
                  rcases hor with hacq | rfl
                  · exact hp hacq
                  · exact hnew List.mem_cons_self
            · have hlocal : LocalInv g storageProvider run.resident run.materializerLeases
                  run.materializer := hinv
              have hroom : ¬ run.materializer.Admits (g.persistentAt r) := by
                rw [hlocal.admits_iff, ← h.weight]
                exact hfits
              obtain ⟨detail, m', hobtain⟩ := LocalVbufRangeMaterializer.obtainReady_refused
                (some read) fallbackSource finishing hlocal.settled (hlocal.free r hnone) hroom
              simp only [hobtain]
              exact ⟨_, _, rfl⟩

end FirstUse

end TensorDependencyExecutor

end VBuf.Ggml
