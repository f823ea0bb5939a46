import VBuf.Ml.PayloadPaths
import VBuf.Ml.SourceProfile
import VBuf.Runtime.LayerCache

/-!
# Acquiring and releasing layers

`VBufRuntime` reads the tensors of a layer into its cache one after another, and
returns what is resident of them at the end.
-/

namespace VBuf.Runtime

open VBuf.Lib VBuf.V06 VBuf.Ml

/-! ### Opening an artifact -/

/-- The checks of `BorrowedModelView::parse` against the runtime registry. -/
def checkRegistered (sources : SourceRegistry) (persistent : Option PersistentSourceMetadata) :
    Except MlError Unit :=
  ((persistent.map fun profile => profile.registry.descriptors).getD []).forM fun descriptor => do
    let runtime ← okOr (sources.get descriptor.id)
      ⟨.tensorReferenceMissing, "persistent source is absent from runtime registry"⟩
    rejectIf (runtime.declaredSize ≠ descriptor.declaredSize)
      ⟨.tensorReferenceMissing, "persistent source size differs from runtime registry"⟩

/-- The tensor directory of `BorrowedModel::open`; the other regions are checked
there too, and do not change it. -/
def openDirectory (content : List UInt8) : Except MlError TensorDirectory := do
  let validated ← ofV06 (parseV06 content)
  let bootstrap ← Bootstrap.discover validated
  let persistent ← SourceProfile.parseProfile bootstrap
  checkRegistered (.ofSelf content.length) persistent
  TensorDirectory.parseWithSources validated bootstrap (.ofSelf content.length)
    ((persistent.map PersistentSourceMetadata.bindings).getD [])

/-- `str::parse::<u32>` on ASCII bytes. -/
def parseU32 (bytes : List UInt8) : Option Nat :=
  let digits := match bytes with
    | 0x2b :: rest => rest
    | _ => bytes
  if digits = [] ∨ digits.any (fun byte => byte < 0x30 || 0x39 < byte) = true then none
  else
    let value := digits.foldl (fun value byte => value * 10 + (byte.toNat - 0x30)) 0
    if value < 4294967296 then some value else none

/-- `parse_layer`: the number between `blk.` and the next dot. -/
def parseLayer (name : String) : Option Nat :=
  match utf8 name with
  | 0x62 :: 0x6c :: 0x6b :: 0x2e :: rest =>
      if 0x2e ∈ rest then parseU32 (rest.takeWhile (fun byte => byte ≠ 0x2e)) else none
  | _ => none

/-- `VBufRuntime`, without the path and the parsed model. -/
structure VBufRuntime where
  tensors : List TensorRange
  layers : AssocMap Nat (List Nat)
  cache : Cache

/-- One iteration of the loop of `open`. -/
def addTensor (state : List TensorRange × AssocMap Nat (List Nat)) (tensor : TensorDescriptor) :
    List TensorRange × AssocMap Nat (List Nat) :=
  let index := state.1.length
  let tensors := state.1 ++ [⟨tensor.name, tensor.payload.offset, tensor.payload.length⟩]
  match parseLayer tensor.name with
  | some layer => (tensors, state.2.insert layer ((state.2.lookup layer).getD [] ++ [index]))
  | none => (tensors, state.2)

namespace VBufRuntime

/-- `VBufRuntime::open`, from the directory on. -/
def ofDirectory (directory : TensorDirectory) (residentBudget : Nat) : VBufRuntime :=
  let (tensors, layers) := directory.tensors.foldl addTensor ([], ∅)
  { tensors, layers, cache := .new residentBudget }

/-- `VBufRuntime::open`. -/
def openArtifact (content : List UInt8) (residentBudget : Nat) : Except MlError VBufRuntime := do
  let directory ← openDirectory content
  pure (ofDirectory directory residentBudget)

/-- `self.tensors[index]`. -/
def tensorAt (runtime : VBufRuntime) (index : Nat) : TensorRange :=
  runtime.tensors.getD index default

/-- The tensors of a layer, in its order. -/
def layerTensors (runtime : VBufRuntime) (layer : Nat) : List TensorRange :=
  ((runtime.layers.lookup layer).getD []).map runtime.tensorAt

end VBufRuntime

/-! ### Acquiring and releasing -/

/-- The file of an artifact, as one call finds it: opening and reading may fail, and
a read that does not returns the bytes of the artifact. -/
structure ArtifactFile (content : List UInt8) where
  openFile : Except String Unit
  readExact : Nat → Nat → Except String (List UInt8)
  read_eq : ∀ offset length bytes, readExact offset length = .ok bytes →
    offset + length ≤ content.length ∧ bytes = slice content offset length

variable {content : List UInt8}

/-- The loop of `acquire_layer`, with the cache it leaves behind. -/
def loadTensors (file : ArtifactFile content) :
    List TensorRange → Cache → Except RuntimeError Unit × Cache
  | [], cache => (.ok (), cache)
  | range :: rest, cache =>
      if u64Bound ≤ range.length then (.error .invalidTensorRange, cache)
      else
        match file.readExact range.offset range.length with
        | .error error => (.error (.io error), cache)
        | .ok bytes =>
            match cache.insert { range, bytes } with
            | .error error => (.error error, cache)
            | .ok cache => loadTensors file rest cache

namespace VBufRuntime

/-- `acquire_layer`. -/
def acquireLayer (runtime : VBufRuntime) (file : ArtifactFile content) (layer : Nat) :
    Except RuntimeError (List (List UInt8)) × VBufRuntime :=
  match runtime.layers.lookup layer with
  | none => (.error (.layerNotFound layer), runtime)
  | some indexes =>
      match file.openFile with
      | .error error => (.error (.io error), runtime)
      | .ok () =>
          match loadTensors file (indexes.map runtime.tensorAt) runtime.cache with
          | (.error error, cache) => (.error error, { runtime with cache })
          | (.ok (), cache) =>
              (.ok ((indexes.map runtime.tensorAt).filterMap fun range =>
                (cache.values.lookup range.name).map ResidentTensor.bytes),
                { runtime with cache })

/-- `release_layer`. -/
def releaseLayer (runtime : VBufRuntime) (layer : Nat) : VBufRuntime :=
  { runtime with
    cache := (runtime.layerTensors layer).foldl (fun cache range => cache.release range.name)
      runtime.cache }

end VBufRuntime

/-- A call that changes the cache. -/
inductive CacheOperation (content : List UInt8)
  | acquire (file : ArtifactFile content) (layer : Nat)
  | insert (value : ResidentTensor)
  | release (layer : Nat)

/-- The runtime after a call; a failed insertion leaves the cache. -/
def VBufRuntime.step (runtime : VBufRuntime) : CacheOperation content → VBufRuntime
  | .acquire file layer => (runtime.acquireLayer file layer).2
  | .insert value =>
      match runtime.cache.insert value with
      | .ok cache => { runtime with cache }
      | .error _ => runtime
  | .release layer => runtime.releaseLayer layer

/-- The runtime after a sequence of calls. -/
def VBufRuntime.run (runtime : VBufRuntime) (operations : List (CacheOperation content)) :
    VBufRuntime :=
  operations.foldl VBufRuntime.step runtime

/-! ### The cache over a run -/

variable {items : List ResidentTensor} {cache : Cache} {runtime : VBufRuntime}

/-- A tensor as it is read from the artifact. -/
def fromArtifact (content : List UInt8) (range : TensorRange) : ResidentTensor where
  range
  bytes := slice content range.offset range.length

/-- The loop keeps a recency list; when it ends without an error, the tensors have
been put one after another. -/
theorem loadTensors_represents (file : ArtifactFile content) (ranges : List TensorRange)
    (h : cache.Represents items) :
    (loadTensors file ranges cache).2.budget = cache.budget ∧
      (∃ after, (loadTensors file ranges cache).2.Represents after) ∧
      ((loadTensors file ranges cache).1 = .ok () →
        (∀ range ∈ ranges, (fromArtifact content range).size = range.length ∧
          range.length ≤ cache.budget) ∧
        (loadTensors file ranges cache).2.Represents
          (Recency.putAll ResidentTensor.name ResidentTensor.size cache.budget items
            (ranges.map (fromArtifact content)))) := by
  induction ranges generalizing items cache with
  | nil => exact ⟨rfl, ⟨items, h⟩, fun _ => ⟨fun _ hmem => absurd hmem List.not_mem_nil, h⟩⟩
  | cons range rest ih =>
      unfold loadTensors
      split
      · exact ⟨rfl, ⟨items, h⟩, fun hok => by cases hok⟩
      · split
        · exact ⟨rfl, ⟨items, h⟩, fun hok => by cases hok⟩
        · next bytes hread =>
            split
            · exact ⟨rfl, ⟨items, h⟩, fun hok => by cases hok⟩
            · next after hinsert =>
                obtain ⟨hinside, rfl⟩ := file.read_eq _ _ _ hread
                obtain ⟨hsize, hbudget, hafter⟩ := h.insert hinsert
                have hlength : (fromArtifact content range).size = range.length :=
                  slice_length_of_le hinside
                obtain ⟨hsame, hexists, hok⟩ := ih hafter
                rw [hbudget] at hsame hok
                refine ⟨hsame, hexists, ?_⟩
                intro hloaded
                obtain ⟨hall, hput⟩ := hok hloaded
                refine ⟨?_, hput⟩
                rw [List.forall_mem_cons]
                exact ⟨⟨hlength, hlength ▸ hsize⟩, hall⟩

/-- Every call keeps the tables of the runtime, the budget and a recency list. -/
theorem step_represents (operation : CacheOperation content) (h : runtime.cache.Represents items) :
    (runtime.step operation).tensors = runtime.tensors ∧
      (runtime.step operation).layers = runtime.layers ∧
      (runtime.step operation).cache.budget = runtime.cache.budget ∧
      ∃ after, (runtime.step operation).cache.Represents after := by
  cases operation with
  | acquire file layer =>
      show (runtime.acquireLayer file layer).2.tensors = _ ∧
        (runtime.acquireLayer file layer).2.layers = _ ∧
        (runtime.acquireLayer file layer).2.cache.budget = _ ∧
        ∃ after, (runtime.acquireLayer file layer).2.cache.Represents after
      unfold VBufRuntime.acquireLayer
      split
      · exact ⟨rfl, rfl, rfl, items, h⟩
      · split
        · exact ⟨rfl, rfl, rfl, items, h⟩
        · next indexes _ _ _ =>
            obtain ⟨hbudget, hafter, -⟩ :=
              loadTensors_represents file (indexes.map runtime.tensorAt) h
            split
            · next hload =>
                rw [hload] at hbudget hafter
                exact ⟨rfl, rfl, hbudget, hafter⟩
            · next hload =>
                rw [hload] at hbudget hafter
                exact ⟨rfl, rfl, hbudget, hafter⟩
  | insert value =>
      cases hinsert : runtime.cache.insert value with
      | ok after =>
          obtain ⟨-, hbudget, hafter⟩ := h.insert hinsert
          have hstep : runtime.step (.insert value : CacheOperation content) =
              { runtime with cache := after } := by
            simp only [VBufRuntime.step, hinsert]
          rw [hstep]
          exact ⟨rfl, rfl, hbudget, _, hafter⟩
      | error error =>
          have hstep : runtime.step (.insert value : CacheOperation content) = runtime := by
            simp only [VBufRuntime.step, hinsert]
          rw [hstep]
          exact ⟨rfl, rfl, rfl, items, h⟩
  | release layer =>
      refine ⟨rfl, rfl, ?_⟩
      show (List.foldl _ runtime.cache _).budget = _ ∧
        ∃ after, (List.foldl _ runtime.cache _).Represents after
      generalize runtime.layerTensors layer = ranges
      generalize hcache : runtime.cache = cache at h
      clear hcache
      induction ranges generalizing cache items with
      | nil => exact ⟨rfl, items, h⟩
      | cons range rest ih =>
          have hrest := ih _ (h.release range.name)
          rw [List.foldl_cons]
          refine ⟨hrest.1.trans ?_, hrest.2⟩
          exact Cache.forget_budget

/-- A run keeps the tables of the runtime, the budget and a recency list. -/
theorem run_represents (operations : List (CacheOperation content))
    (h : runtime.cache.Represents items) :
    (runtime.run operations).tensors = runtime.tensors ∧
      (runtime.run operations).layers = runtime.layers ∧
      (runtime.run operations).cache.budget = runtime.cache.budget ∧
      ∃ after, (runtime.run operations).cache.Represents after := by
  induction operations generalizing runtime items with
  | nil => exact ⟨rfl, rfl, rfl, items, h⟩
  | cons operation rest ih =>
      obtain ⟨htensors, hlayers, hbudget, after, hafter⟩ := step_represents operation h
      obtain ⟨htensors', hlayers', hbudget', hexists⟩ := ih hafter
      exact ⟨htensors'.trans htensors, hlayers'.trans hlayers, hbudget'.trans hbudget, hexists⟩

/-- After any calls the counter is the sum of the stored lengths and within the
budget, and the queue lists the stored names once each; an insertion that fails,
as one of an oversized tensor does, changes nothing. -/
theorem run_cache_valid (directory : TensorDirectory) (residentBudget : Nat)
    (operations : List (CacheOperation content)) :
    ((VBufRuntime.ofDirectory directory residentBudget).run operations).cache.Valid ∧
      ((VBufRuntime.ofDirectory directory residentBudget).run operations).cache.budget =
        residentBudget ∧
      ∀ value : ResidentTensor,
        (residentBudget < value.bytes.length →
          ((VBufRuntime.ofDirectory directory residentBudget).run operations).cache.insert value =
            .error (.budgetTooSmall value.bytes.length residentBudget)) ∧
        ∀ error,
          ((VBufRuntime.ofDirectory directory residentBudget).run operations).cache.insert value =
            .error error →
          ((VBufRuntime.ofDirectory directory residentBudget).run operations).step
              (.insert value : CacheOperation content) =
            (VBufRuntime.ofDirectory directory residentBudget).run operations := by
  have hnew : (VBufRuntime.ofDirectory directory residentBudget).cache.Represents [] :=
    Cache.represents_new residentBudget
  obtain ⟨-, -, hbudget, after, hafter⟩ := run_represents operations hnew
  refine ⟨hafter.valid, hbudget, ?_⟩
  intro value
  constructor
  · intro hover
    have hcache : ((VBufRuntime.ofDirectory directory residentBudget).run
        operations).cache.budget = residentBudget := hbudget
    rw [Cache.insert, Cache.evictUntil, hcache, rejectIf, if_pos hover]
    rfl
  · intro error herror
    simp only [VBufRuntime.step, herror]

end VBuf.Runtime
