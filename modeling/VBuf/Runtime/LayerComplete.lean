import VBuf.Ml.DirectoryCodec
import VBuf.Ml.TokenizerUsable
import VBuf.Runtime.LayerAcquisition

/-!
# When an acquired layer is complete

The tensors of a layer are read one after another, and each makes room for itself.
All of them are resident at the end exactly when the layer fits into the budget.
-/

namespace VBuf.Runtime

open VBuf.Lib VBuf.V06 VBuf.Ml

/-! ### The layers of a directory -/

/-- The tensors of a directory, as the runtime lists them. -/
def rangesOf (tensors : List TensorDescriptor) : List TensorRange :=
  tensors.map fun tensor => ⟨tensor.name, tensor.payload.offset, tensor.payload.length⟩

/-- The indexes of the tensors of a layer. -/
def indexesOf (tensors : List TensorRange) (layer : Nat) : List Nat :=
  (List.range tensors.length).filter fun index =>
    parseLayer (tensors.getD index default).name = some layer

/-- The tables list every tensor under its layer. -/
def Tabulates (tensors : List TensorRange) (layers : AssocMap Nat (List Nat)) : Prop :=
  ∀ layer, (layers.lookup layer).getD [] = indexesOf tensors layer

theorem indexesOf_append (tensors : List TensorRange) (range : TensorRange) (layer : Nat) :
    indexesOf (tensors ++ [range]) layer = indexesOf tensors layer ++
      (if parseLayer range.name = some layer then [tensors.length] else []) := by
  have hold : ∀ index ∈ List.range tensors.length,
      (decide (parseLayer ((tensors ++ [range]).getD index default).name = some layer)) =
        decide (parseLayer (tensors.getD index default).name = some layer) := by
    intro index hindex
    rw [List.getD_append _ _ _ _ (List.mem_range.1 hindex)]
  have hnew : (tensors ++ [range]).getD tensors.length default = range := by simp
  rw [indexesOf, List.length_append, List.length_singleton, List.range_succ, List.filter_append,
    List.filter_congr hold, List.filter_singleton, hnew]
  by_cases hlayer : parseLayer range.name = some layer <;> simp [indexesOf, hlayer]

/-- The tensors at the indexes of a layer are those of the layer. -/
theorem map_indexesOf (tensors : List TensorRange) (layer : Nat) :
    (indexesOf tensors layer).map (fun index => tensors.getD index default) =
      tensors.filter fun range => parseLayer range.name = some layer := by
  have hall : (List.range tensors.length).map (fun index => tensors.getD index default) =
      tensors := by
    apply List.ext_getElem
    · simp
    · intro index hleft hright
      simp [List.getD_eq_getElem?_getD, hright]
  conv_rhs => rw [← hall, List.filter_map]
  rfl

theorem tabulates_addTensor {state : List TensorRange × AssocMap Nat (List Nat)}
    (h : Tabulates state.1 state.2) (tensor : TensorDescriptor) :
    (addTensor state tensor).1 =
        state.1 ++ [⟨tensor.name, tensor.payload.offset, tensor.payload.length⟩] ∧
      Tabulates (addTensor state tensor).1 (addTensor state tensor).2 := by
  unfold addTensor
  cases hlayer : parseLayer tensor.name with
  | none =>
      refine ⟨rfl, ?_⟩
      intro layer
      rw [indexesOf_append, hlayer, if_neg (by simp), List.append_nil]
      exact h layer
  | some own =>
      refine ⟨rfl, ?_⟩
      intro layer
      show ((AList.lookup layer (AList.insert own _ state.2)).getD [] : List Nat) = _
      rw [indexesOf_append, AssocMap.lookup_insert_eq, hlayer]
      by_cases heq : layer = own
      · subst heq
        rw [if_pos rfl, if_pos rfl, Option.getD_some, h layer]
      · rw [if_neg heq, if_neg (fun hsome => heq (Option.some.inj hsome).symm), List.append_nil]
        exact h layer

theorem foldl_addTensor {state : List TensorRange × AssocMap Nat (List Nat)}
    (h : Tabulates state.1 state.2) (tensors : List TensorDescriptor) :
    (tensors.foldl addTensor state).1 = state.1 ++ rangesOf tensors ∧
      Tabulates (tensors.foldl addTensor state).1 (tensors.foldl addTensor state).2 := by
  induction tensors generalizing state with
  | nil => exact ⟨(List.append_nil _).symm, h⟩
  | cons tensor rest ih =>
      obtain ⟨hadded, htable⟩ := tabulates_addTensor h tensor
      obtain ⟨hranges, hrest⟩ := ih htable
      refine ⟨?_, hrest⟩
      rw [List.foldl_cons, hranges, hadded, List.append_assoc]
      rfl

/-- The runtime lists the tensors of the directory, and each layer lists those whose
name is of the layer. -/
theorem ofDirectory_tables (directory : TensorDirectory) (residentBudget : Nat) :
    (VBufRuntime.ofDirectory directory residentBudget).tensors = rangesOf directory.tensors ∧
      ∀ layer, (VBufRuntime.ofDirectory directory residentBudget).layerTensors layer =
        (rangesOf directory.tensors).filter fun range => parseLayer range.name = some layer := by
  have hempty : Tabulates ([] : List TensorRange) (∅ : AssocMap Nat (List Nat)) := fun _ => rfl
  obtain ⟨hranges, htable⟩ := @foldl_addTensor ([], ∅) hempty directory.tensors
  refine ⟨hranges, ?_⟩
  intro layer
  rw [List.nil_append] at hranges
  have hindexes := htable layer
  rw [hranges] at hindexes
  show List.map _ ((AList.lookup layer (directory.tensors.foldl addTensor ([], ∅)).2).getD []) = _
  rw [hindexes]
  have hat : (VBufRuntime.ofDirectory directory residentBudget).tensorAt =
      fun index => (rangesOf directory.tensors).getD index default := by
    funext index
    show (directory.tensors.foldl addTensor ([], ∅)).1.getD index default = _
    rw [hranges]
  rw [hat, map_indexesOf]

/-- A parsed directory lists each name once. -/
theorem names_nodup_of_parseWithSources {validated : Validated} {bootstrap : Bootstrap}
    {sources : SourceRegistry} {external : List (UInt16 × UInt16 × TensorRef)}
    {directory : TensorDirectory}
    (h : TensorDirectory.parseWithSources validated bootstrap sources external = .ok directory) :
    (directory.tensors.map TensorDescriptor.name).Nodup := by
  obtain ⟨_, -, hlisting⟩ := TensorDirectory.listing_of_parseWithSources h
  rw [List.Nodup, List.pairwise_map]
  refine hlisting.sorted.imp ?_
  intro a b hlt heq
  rw [heq] at hlt
  exact lt_irrefl _ hlt

theorem openArtifact_eq_ok {content : List UInt8} {residentBudget : Nat} {runtime : VBufRuntime}
    (h : VBufRuntime.openArtifact content residentBudget = .ok runtime) :
    ∃ directory, runtime = .ofDirectory directory residentBudget ∧
      (directory.tensors.map TensorDescriptor.name).Nodup := by
  simp only [VBufRuntime.openArtifact, openDirectory, bind_eq_ok_iff, pure_eq_ok_iff] at h
  obtain ⟨directory, ⟨_, -, _, -, _, -, _, -, hparse⟩, rfl⟩ := h
  exact ⟨directory, rfl, names_nodup_of_parseWithSources hparse⟩

/-! ### What an acquisition returns -/

variable {content : List UInt8} {runtime : VBufRuntime} {items : List ResidentTensor}
  {slices : List (List UInt8)}

/-- A successful acquisition has put the tensors of the layer one after another, and
returns what is resident of them. -/
theorem acquireLayer_eq_ok {file : ArtifactFile content} {layer : Nat}
    (hitems : runtime.cache.Represents items)
    (h : (runtime.acquireLayer file layer).1 = .ok slices) :
    (∀ range ∈ runtime.layerTensors layer, (fromArtifact content range).size = range.length ∧
        range.length ≤ runtime.cache.budget) ∧
      ∃ cache : Cache, cache.Represents (Recency.putAll ResidentTensor.name ResidentTensor.size
          runtime.cache.budget items
          ((runtime.layerTensors layer).map (fromArtifact content))) ∧
        slices = (runtime.layerTensors layer).filterMap fun range =>
          (cache.values.lookup range.name).map ResidentTensor.bytes := by
  unfold VBufRuntime.acquireLayer at h
  cases hlookup : runtime.layers.lookup layer with
  | none =>
      rw [hlookup] at h
      cases h
  | some indexes =>
      have hlayer : runtime.layerTensors layer = indexes.map runtime.tensorAt := by
        rw [VBufRuntime.layerTensors, hlookup, Option.getD_some]
      rw [hlayer]
      obtain ⟨-, -, hok⟩ := loadTensors_represents file (indexes.map runtime.tensorAt) hitems
      rw [hlookup] at h
      cases hopen : file.openFile with
      | error error => simp [hopen] at h
      | ok _ =>
          cases hload : loadTensors file (indexes.map runtime.tensorAt) runtime.cache with
          | mk result cache =>
              cases result with
              | error error => simp [hopen, hload] at h
              | ok _ =>
                  simp only [hopen, hload, Except.ok.injEq] at h
                  rw [hload] at hok
                  obtain ⟨hsizes, hrepresents⟩ := hok rfl
                  exact ⟨hsizes, cache, hrepresents, h.symm⟩

/-- A resident list is complete when each tensor is resident with its payload. -/
theorem filterMap_lookup_of_mem {cache : Cache} {held : List ResidentTensor}
    (h : cache.Represents held) {ranges : List TensorRange}
    (hmem : ∀ range ∈ ranges, fromArtifact content range ∈ held) :
    (ranges.filterMap fun range => (cache.values.lookup range.name).map ResidentTensor.bytes) =
      ranges.map fun range => slice content range.offset range.length := by
  induction ranges with
  | nil => rfl
  | cons range rest ih =>
      rw [List.forall_mem_cons] at hmem
      have hlookup : cache.values.lookup range.name = some (fromArtifact content range) :=
        (h.lookup _ _).2 ⟨hmem.1, rfl⟩
      rw [List.filterMap_cons, hlookup, List.map_cons, ← ih hmem.2]
      rfl

/-- A list from which a name is missing has lost a slice. -/
theorem length_filterMap_lookup_lt {cache : Cache} {held : List ResidentTensor}
    (h : cache.Represents held) {range : TensorRange} {rest : List TensorRange}
    (hmissing : range.name ∉ held.map ResidentTensor.name) :
    ((range :: rest).filterMap fun range =>
      (cache.values.lookup range.name).map ResidentTensor.bytes).length <
        (range :: rest).length := by
  have hnone : cache.values.lookup range.name = none := by
    rw [Option.eq_none_iff_forall_ne_some]
    intro value hlookup
    obtain ⟨hmem, hname⟩ := (h.lookup _ _).1 hlookup
    exact hmissing (hname ▸ List.mem_map_of_mem hmem)
  rw [List.filterMap_cons, hnone, List.length_cons]
  exact Nat.lt_succ_of_le (List.length_filterMap_le _ _)

/-- After any calls, a layer that is acquired without an error is returned with one
payload for each of its tensors, in their order, exactly when it fits into the
budget as a whole. -/
theorem acquireLayer_complete_iff {residentBudget : Nat}
    (hopen : VBufRuntime.openArtifact content residentBudget = .ok runtime)
    (operations : List (CacheOperation content)) (file : ArtifactFile content) (layer : Nat)
    (h : ((runtime.run operations).acquireLayer file layer).1 = .ok slices) :
    slices = ((runtime.layerTensors layer).map fun range =>
        slice content range.offset range.length) ↔
      ((runtime.layerTensors layer).map TensorRange.length).sum ≤ residentBudget := by
  obtain ⟨directory, rfl, hnodup⟩ := openArtifact_eq_ok hopen
  have hnew : (VBufRuntime.ofDirectory directory residentBudget).cache.Represents [] :=
    Cache.represents_new residentBudget
  obtain ⟨htensors, hlayers, hbudget, items, hitems⟩ := run_represents operations hnew
  have hbudget' : ((VBufRuntime.ofDirectory directory residentBudget).run
      operations).cache.budget = residentBudget := hbudget
  obtain ⟨hsizes, cache, hcache, rfl⟩ := acquireLayer_eq_ok hitems h
  have hsame : ((VBufRuntime.ofDirectory directory residentBudget).run operations).layerTensors
      layer = (VBufRuntime.ofDirectory directory residentBudget).layerTensors layer := by
    unfold VBufRuntime.layerTensors VBufRuntime.tensorAt
    rw [htensors, hlayers]
  rw [hsame] at hsizes hcache ⊢
  rw [hbudget'] at hsizes hcache
  -- The names of a layer are distinct, as all names of the directory are.
  have hkeys : (((VBufRuntime.ofDirectory directory residentBudget).layerTensors layer).map
      (fromArtifact content)).map ResidentTensor.name |>.Nodup := by
    rw [(ofDirectory_tables directory residentBudget).2 layer, List.map_map]
    refine List.Nodup.sublist (List.filter_sublist.map _) ?_
    rw [rangesOf, List.map_map]
    exact hnodup
  generalize (VBufRuntime.ofDirectory directory residentBudget).layerTensors layer = ranges at *
  have htotal : Recency.total ResidentTensor.size (ranges.map (fromArtifact content)) =
      (ranges.map TensorRange.length).sum := by
    rw [Recency.total, List.map_map]
    congr 1
    apply List.map_congr_left
    intro range hmem
    exact (hsizes range hmem).1
  rw [← htotal]
  constructor
  · intro hcomplete
    by_contra hover
    have hover := Nat.lt_of_not_le hover
    cases ranges with
    | nil => exact Nat.not_lt_zero _ hover
    | cons range rest =>
        have hfirst := hsizes range List.mem_cons_self
        have hgone : range.name ∉ (Recency.putAll ResidentTensor.name ResidentTensor.size
            residentBudget items ((range :: rest).map (fromArtifact content))).map
              ResidentTensor.name := by
          -- The first tensor stands at the end when it is put, and is pushed out again.
          refine @Recency.not_mem_putAll_of_overfull _ _ _ ResidentTensor.name
            ResidentTensor.size residentBudget _ [] (rest.map (fromArtifact content))
            (fromArtifact content range) ?_ hover hkeys ?_
          · rw [Recency.total_cons, Recency.total_nil, hfirst.1]
            exact hfirst.2
          · rw [Recency.map_remove]
            intro hmem
            have hne := (List.mem_filter.1 hmem).2
            simp at hne
        have hshort := @length_filterMap_lookup_lt _ _ hcache range rest hgone
        rw [hcomplete, List.length_map] at hshort
        exact Nat.lt_irrefl _ hshort
  · intro hfits
    obtain ⟨older, holder⟩ := @Recency.putAll_append _ _ _ ResidentTensor.name
      ResidentTensor.size residentBudget items [] _ hfits hkeys
    rw [List.append_nil, List.nil_append] at holder
    rw [holder] at hcache
    refine filterMap_lookup_of_mem hcache ?_
    intro range hmem
    exact List.mem_append_right _ (List.mem_map_of_mem hmem)

/-! ### A layer of two tensors -/

/-- A directory of two tensors of one layer. -/
def layerDirectory : List UInt8 :=
  TensorDirectory.magic ++ leBytes 2 TensorDirectory.version ++ leBytes 2 0 ++ leBytes 4 2 ++
    leBytes 4 0 ++ TensorDirectory.entryBytes ⟨"blk.0.a", [1], .canonicalPrimitive, 7, 0⟩ ++
    TensorDirectory.entryBytes ⟨"blk.0.b", [1], .canonicalPrimitive, 7, 1⟩

/-- A model with one layer of two 32-bit floats. -/
def layerArtifact : List UInt8 :=
  encodeStream 3 .knownSize (TokenizerMetadata.modelCalls layerDirectory [] ++
    [TensorDirectory.arrayCall 7 .float 32 1 [0, 0, 128, 63],
     TensorDirectory.arrayCall 7 .float 32 1 [0, 0, 0, 64]])

/-- A read of a file that is always there. -/
def readWhole (content : List UInt8) (offset length : Nat) : Except String (List UInt8) :=
  if offset + length ≤ content.length then .ok (slice content offset length)
  else .error "failed to fill whole buffer"

theorem readWhole_eq (content : List UInt8) : ∀ offset length bytes,
    readWhole content offset length = .ok bytes →
      offset + length ≤ content.length ∧ bytes = slice content offset length := by
  intro offset length bytes h
  unfold readWhole at h
  split at h
  · next hinside =>
      cases h
      exact ⟨hinside, rfl⟩
  · cases h

/-- The file of an artifact that can be read. -/
def wholeFile (content : List UInt8) : ArtifactFile content where
  openFile := .ok ()
  readExact := readWhole content
  read_eq := readWhole_eq content

/-- The runtime of the artifact under a budget. -/
def layerRuntime (residentBudget : Nat) : Except MlError VBufRuntime :=
  VBufRuntime.openArtifact layerArtifact residentBudget

/-- The opened runtime with room for the layer. -/
def roomyRuntime : VBufRuntime := (layerRuntime 8).toOption.get (by decide +kernel)

/-- The opened runtime with room for one of the two tensors. -/
def tightRuntime : VBufRuntime := (layerRuntime 6).toOption.get (by decide +kernel)

theorem roomyRuntime_eq : layerRuntime 8 = .ok roomyRuntime :=
  eq_ok_get _

theorem tightRuntime_eq : layerRuntime 6 = .ok tightRuntime :=
  eq_ok_get _

theorem acquireLayer_roomyRuntime :
    ((roomyRuntime.run ([] : List (CacheOperation layerArtifact))).acquireLayer
      (wholeFile layerArtifact) 0).1 = .ok [[0, 0, 128, 63], [0, 0, 0, 64]] := by
  decide +kernel

theorem acquireLayer_complete_iff_roomyRuntime :
    [[0, 0, 128, 63], [0, 0, 0, 64]] = ((roomyRuntime.layerTensors 0).map fun range =>
        slice layerArtifact range.offset range.length) ↔
      ((roomyRuntime.layerTensors 0).map TensorRange.length).sum ≤ 8 :=
  acquireLayer_complete_iff roomyRuntime_eq [] (wholeFile layerArtifact) 0
    acquireLayer_roomyRuntime

/-- With room for one tensor, the acquisition of a layer of two returns one slice. -/
theorem acquireLayer_tightRuntime :
    layerRuntime 6 = .ok tightRuntime ∧
      (tightRuntime.acquireLayer (wholeFile layerArtifact) 0).1 = .ok [[0, 0, 0, 64]] ∧
      (tightRuntime.layerTensors 0).map TensorRange.name = ["blk.0.a", "blk.0.b"] := by
  refine ⟨tightRuntime_eq, ?_, ?_⟩
  · decide +kernel
  · decide +kernel

end VBuf.Runtime
