import VBuf.Lib.AssocTotal

/-!
# The tiered residency store

Tensors live in a hot and in a warm tier.  Room in the hot tier is made by moving
the least recently used tensors to the warm tier, whose least recently used
tensors are dropped.  The trace and the hit counters, which no call reads, are
left out.
-/

namespace VBuf.Ggml

open VBuf.Lib

/-- `ResidencyTier`. -/
inductive ResidencyTier
  | backing
  | warm
  | hot
  deriving DecidableEq, Repr

/-- `ResidencyGeneration`. -/
inductive ResidencyGeneration
  | new
  | young
  | old
  deriving DecidableEq, Repr

/-- `TieredResidencyEntry`. -/
structure TieredResidencyEntry where
  tensorRef : UInt32
  bytes : UInt64
  tier : ResidencyTier
  generation : ResidencyGeneration
  activeLeases : UInt32
  requestCount : UInt32
  lastUse : UInt64
  firstEpoch : UInt64
  lastEpoch : UInt64
  deriving DecidableEq, Repr

/-- `TieredResidencyStore`. -/
structure TieredResidencyStore where
  hotCapacityBytes : UInt64
  warmCapacityBytes : UInt64
  oldAfterReuses : UInt32
  hotBytes : UInt64
  warmBytes : UInt64
  clock : UInt64
  entries : AssocMap UInt32 TieredResidencyEntry

namespace TieredResidencyStore

/-- The constructor. -/
def empty (hotCapacityBytes warmCapacityBytes : UInt64) (oldAfterReuses : UInt32) :
    TieredResidencyStore where
  hotCapacityBytes
  warmCapacityBytes
  oldAfterReuses
  hotBytes := 0
  warmBytes := 0
  clock := 0
  entries := ∅

/-- `tier_bytes`. -/
def tierBytes (tier : ResidencyTier) (store : TieredResidencyStore) : UInt64 :=
  match tier with
  | .hot => store.hotBytes
  | .warm => store.warmBytes
  | .backing => 0

/-- `capacity`. -/
def capacity (tier : ResidencyTier) (store : TieredResidencyStore) : UInt64 :=
  match tier with
  | .hot => store.hotCapacityBytes
  | .warm => store.warmCapacityBytes
  | .backing => 0

/-- The more recently used of two entries is kept; equal times go by reference. -/
def UsedBefore (tensorRef : UInt32) (entry : TieredResidencyEntry) (victimRef : UInt32)
    (victim : TieredResidencyEntry) : Prop :=
  entry.lastUse < victim.lastUse ∨ entry.lastUse = victim.lastUse ∧ tensorRef < victimRef

instance (tensorRef : UInt32) (entry : TieredResidencyEntry) (victimRef : UInt32)
    (victim : TieredResidencyEntry) :
    Decidable (UsedBefore tensorRef entry victimRef victim) :=
  inferInstanceAs (Decidable (_ ∨ _))

/-- One round of the scan for a victim. -/
def scan (tier : ResidencyTier) (victim : Option (UInt32 × TieredResidencyEntry))
    (pair : Sigma fun _ : UInt32 => TieredResidencyEntry) :
    Option (UInt32 × TieredResidencyEntry) :=
  if pair.2.tier ≠ tier ∨ pair.2.activeLeases ≠ 0 then victim
  else
    match victim with
    | none => some (pair.1, pair.2)
    | some (victimRef, best) =>
        if UsedBefore pair.1 pair.2 victimRef best then some (pair.1, pair.2) else victim

/-- The unleased entry of the tier that was used the longest time ago. -/
def victim (tier : ResidencyTier) (store : TieredResidencyStore) :
    Option (UInt32 × TieredResidencyEntry) :=
  store.entries.entries.foldl (scan tier) none

/-- How many entries a tier has. -/
def count (tier : ResidencyTier) (store : TieredResidencyStore) : Nat :=
  AssocMap.total (fun _ entry => if entry.tier = tier then 1 else 0) store.entries

/-- An entry leaves the byte counter of its tier and the map. -/
def without (store : TieredResidencyStore) (tensorRef : UInt32) (entry : TieredResidencyEntry) :
    TieredResidencyStore :=
  { store with
    hotBytes := if entry.tier = .hot then store.hotBytes - entry.bytes else store.hotBytes
    warmBytes := if entry.tier = .hot then store.warmBytes else store.warmBytes - entry.bytes
    entries := store.entries.erase tensorRef }

/-- `drop`. -/
def drop (tensorRef : UInt32) (store : TieredResidencyStore) : Bool × TieredResidencyStore :=
  match store.entries.lookup tensorRef with
  | none => (false, store)
  | some entry =>
      if entry.activeLeases ≠ 0 then (false, store) else (true, store.without tensorRef entry)

/-- An entry comes from one tier to the other. -/
def relocate (store : TieredResidencyStore) (tensorRef : UInt32) (entry : TieredResidencyEntry)
    (target : ResidencyTier) : TieredResidencyStore :=
  let hotBytes := if entry.tier = .hot then store.hotBytes - entry.bytes else store.hotBytes
  let warmBytes := if entry.tier = .hot then store.warmBytes else store.warmBytes - entry.bytes
  { store with
    hotBytes := if target = .hot then hotBytes + entry.bytes else hotBytes
    warmBytes := if target = .hot then warmBytes else warmBytes + entry.bytes
    entries := store.entries.insert tensorRef { entry with tier := target } }

/-- `make_room` of the warm tier.  The fuel counts the entries of the tier; each
round takes one out. -/
def makeRoomWarm (bytes : UInt64) : Nat → TieredResidencyStore → Bool × TieredResidencyStore
  | fuel, store =>
      if store.tierBytes .warm + bytes ≤ store.capacity .warm then (true, store)
      else
        match store.victim .warm, fuel with
        | none, _ => (false, store)
        | some _, 0 => (false, store)
        | some (tensorRef, _), fuel + 1 =>
            match store.drop tensorRef with
            | (false, store) => (false, store)
            | (true, store) => makeRoomWarm bytes fuel store

/-- `move`, after the room it makes in the target; no result when the entry it
holds an iterator to was erased meanwhile. -/
def moveWith (makeRoom : UInt64 → TieredResidencyStore → Option (Bool × TieredResidencyStore))
    (tensorRef : UInt32) (target : ResidencyTier) (store : TieredResidencyStore) :
    Option (Bool × TieredResidencyStore) :=
  match store.entries.lookup tensorRef with
  | none => some (false, store)
  | some entry =>
      if entry.activeLeases ≠ 0 ∨ target = .backing then some (false, store)
      else if entry.tier = target then some (true, store)
      else
        match makeRoom entry.bytes store with
        | none => none
        | some (false, store) => some (false, store)
        | some (true, store) =>
            match store.entries.lookup tensorRef with
            | none => none
            | some entry => some (true, store.relocate tensorRef entry target)

/-- `make_room` of the warm tier, with fuel for all of its entries. -/
def roomWarm (bytes : UInt64) (store : TieredResidencyStore) : Bool × TieredResidencyStore :=
  makeRoomWarm bytes (store.count .warm) store

/-- One round of `make_room` of the hot tier, with its victim. -/
def pushOut (tensorRef : UInt32) (entry : TieredResidencyEntry) (store : TieredResidencyStore) :
    Option (Bool × TieredResidencyStore) :=
  let (room, store) :=
    if entry.bytes ≤ store.warmCapacityBytes then roomWarm entry.bytes store else (false, store)
  if room = true then
    moveWith (fun bytes store => some (roomWarm bytes store)) tensorRef .warm store
  else some (store.drop tensorRef)

/-- `make_room` of the hot tier: the victims go to the warm tier where that has
room for them. -/
def makeRoomHot (bytes : UInt64) : Nat → TieredResidencyStore → Option (Bool × TieredResidencyStore)
  | fuel, store =>
      if store.tierBytes .hot + bytes ≤ store.capacity .hot then some (true, store)
      else
        match store.victim .hot, fuel with
        | none, _ => some (false, store)
        | some _, 0 => some (false, store)
        | some (tensorRef, entry), fuel + 1 =>
            match store.pushOut tensorRef entry with
            | none => none
            | some (false, store) => some (false, store)
            | some (true, store) => makeRoomHot bytes fuel store

/-- `make_room`; no entry is ever in the backing tier. -/
def makeRoom (tier : ResidencyTier) (bytes : UInt64) (store : TieredResidencyStore) :
    Option (Bool × TieredResidencyStore) :=
  match tier with
  | .backing => some (decide (bytes = 0), store)
  | .warm => some (roomWarm bytes store)
  | .hot => makeRoomHot bytes (store.count .hot) store

/-- `move`. -/
def move (tensorRef : UInt32) (target : ResidencyTier) (store : TieredResidencyStore) :
    Option (Bool × TieredResidencyStore) :=
  moveWith (makeRoom target) tensorRef target store

/-- `promote`. -/
def promote (tensorRef : UInt32) (target : ResidencyTier) (store : TieredResidencyStore) :
    Option (Bool × TieredResidencyStore) :=
  if target = .hot then store.move tensorRef target else some (false, store)

/-- `demote`. -/
def demote (tensorRef : UInt32) (target : ResidencyTier) (store : TieredResidencyStore) :
    Option (Bool × TieredResidencyStore) :=
  if target = .warm then store.move tensorRef target else some (false, store)

/-- A new entry. -/
def admitted (tensorRef : UInt32) (bytes : UInt64) (target : ResidencyTier) (epoch : UInt64)
    (store : TieredResidencyStore) : TieredResidencyStore :=
  { store with
    clock := store.clock + 1
    hotBytes := if target = .hot then store.hotBytes + bytes else store.hotBytes
    warmBytes := if target = .hot then store.warmBytes else store.warmBytes + bytes
    entries := store.entries.insert tensorRef
      { tensorRef, bytes, tier := target, generation := .new, activeLeases := 0, requestCount := 1,
        lastUse := store.clock + 1, firstEpoch := epoch, lastEpoch := epoch } }

/-- `admit`. -/
def admitTensor (tensorRef : UInt32) (bytes : UInt64) (target : ResidencyTier) (epoch : UInt64)
    (store : TieredResidencyStore) : Option (Bool × TieredResidencyStore) :=
  if target = .backing ∨ store.capacity target < bytes ∨
      (store.entries.lookup tensorRef).isSome = true then
    some (false, store)
  else
    match makeRoom target bytes store with
    | none => none
    | some (false, store) => some (false, store)
    | some (true, store) => some (true, store.admitted tensorRef bytes target epoch)

/-- The entry after one more request. -/
def requested (epoch : UInt64) (store : TieredResidencyStore) (entry : TieredResidencyEntry) :
    TieredResidencyEntry :=
  let requestCount := entry.requestCount + 1
  let generation := if requestCount = 2 then .young else entry.generation
  { entry with
    requestCount
    generation := if store.oldAfterReuses + 1 ≤ requestCount then .old else generation
    lastUse := store.clock + 1
    lastEpoch := epoch }

/-- `request`. -/
def request (tensorRef : UInt32) (bytes : UInt64) (epoch : UInt64) (store : TieredResidencyStore) :
    Option (Bool × TieredResidencyStore) :=
  match store.entries.lookup tensorRef with
  | none => admitTensor tensorRef bytes .warm epoch store
  | some entry =>
      some (true,
        { store with
          clock := store.clock + 1
          entries := store.entries.insert tensorRef (requested epoch store entry) })

/-- `acquire`. -/
def acquire (tensorRef : UInt32) (store : TieredResidencyStore) : Bool × TieredResidencyStore :=
  match store.entries.lookup tensorRef with
  | none => (false, store)
  | some entry =>
      (true,
        { store with
          entries := store.entries.insert tensorRef
            { entry with activeLeases := entry.activeLeases + 1 } })

/-- `release`. -/
def release (tensorRef : UInt32) (store : TieredResidencyStore) : Bool × TieredResidencyStore :=
  match store.entries.lookup tensorRef with
  | none => (false, store)
  | some entry =>
      if entry.activeLeases = 0 then (false, store)
      else
        (true,
          { store with
            entries := store.entries.insert tensorRef
              { entry with activeLeases := entry.activeLeases - 1 } })

/-- The calls on a store. -/
inductive Op
  | request (tensorRef : UInt32) (bytes epoch : UInt64)
  | admitTensor (tensorRef : UInt32) (bytes : UInt64) (target : ResidencyTier) (epoch : UInt64)
  | acquire (tensorRef : UInt32)
  | release (tensorRef : UInt32)
  | promote (tensorRef : UInt32) (target : ResidencyTier)
  | demote (tensorRef : UInt32) (target : ResidencyTier)
  | drop (tensorRef : UInt32)

/-- The answer of a call and the store after it. -/
def Op.apply (store : TieredResidencyStore) : Op → Option (Bool × TieredResidencyStore)
  | .request tensorRef bytes epoch => store.request tensorRef bytes epoch
  | .admitTensor tensorRef bytes target epoch => store.admitTensor tensorRef bytes target epoch
  | .acquire tensorRef => some (store.acquire tensorRef)
  | .release tensorRef => some (store.release tensorRef)
  | .promote tensorRef target => store.promote tensorRef target
  | .demote tensorRef target => store.demote tensorRef target
  | .drop tensorRef => some (store.drop tensorRef)

end TieredResidencyStore

end VBuf.Ggml
