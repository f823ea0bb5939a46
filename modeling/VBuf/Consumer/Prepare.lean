import VBuf.Consumer.ModelSource
import VBuf.Lib.Ranking

/-!
# Preparing the layers of a mapped model

`VbufDirectSource::prepare` walks the payloads of a mapping in one of three orders.  In two
of them it walks one span for each layer and one for each other tensor; the order by layers
puts the others before, behind or after the layers by comparisons with the first and the
last of them, and files its measurements under the place of a layer in the sorted list.
-/

namespace VBuf.Consumer.Prepare

open VBuf.Lib VBuf.Lib.Ranking VBuf.Layout VBuf.Ml

/-! ### Records -/

/-- A tensor of the mapping, with its physical range. -/
structure PhysicalTensor where
  name : List UInt8
  offset : Nat
  length : Nat
  deriving DecidableEq, Repr

/-- `Record`; the payload is at the offset in the mapping. -/
structure Record where
  offset : Nat
  length : Nat
  layer : Int
  deriving DecidableEq, Repr

/-- Where a record ends. -/
def Record.stop (record : Record) : Nat := record.offset + record.length

/-- `isspace`. -/
def isSpace (byte : UInt8) : Bool := byte = 0x20 ∨ 0x09 ≤ byte ∧ byte ≤ 0x0d

/-- `isdigit`. -/
def isDigit (byte : UInt8) : Bool := 0x30 ≤ byte ∧ byte ≤ 0x39

/-- The digits and the sign of `%u`. -/
def scanDigits (text : List UInt8) : Bool × List UInt8 :=
  match text.dropWhile isSpace with
  | 0x2d :: rest => (true, rest.takeWhile isDigit)
  | 0x2b :: rest => (false, rest.takeWhile isDigit)
  | rest => (false, rest.takeWhile isDigit)

/-- `%u` of `sscanf`: a number beyond `unsigned long` is the greatest of it, a sign negates,
and the result is cut to `unsigned`. -/
def scanUnsigned (text : List UInt8) : Option Nat :=
  let (negative, digits) := scanDigits text
  let magnitude := digits.foldl (fun value digit => value * 10 + (digit.toNat - 0x30)) 0
  if digits = [] then none
  else if 2 ^ 64 ≤ magnitude then some (2 ^ 32 - 1)
  else some ((if negative = true then 2 ^ 64 - magnitude else magnitude) % 2 ^ 32)

/-- The layer of a name, -1 for a tensor of none. -/
def layerOf (name : List UInt8) : Except Unit Int :=
  if utf8 "blk." <+: name then do
    let layer ← okOr (scanUnsigned (name.drop 4)) ()
    pure (toInt32 layer)
  else .ok (-1)

/-- One iteration of the first loop. -/
def recordOf (tensor : PhysicalTensor) : Except Unit Record := do
  let layer ← layerOf tensor.name
  rejectIf (tensor.length = 0 ∨ 2 ^ 64 ≤ tensor.offset + tensor.length) ()
  pure { offset := tensor.offset, length := tensor.length, layer }

/-! ### Spans -/

/-- `WorkSpan`; the layer id of a span of no layer is `UINT64_MAX`. -/
structure WorkSpan where
  startOffset : Nat
  endOffset : Nat
  layerId : Option Nat
  deriving DecidableEq, Repr

/-- `make_span`, of the records of one mapping. -/
def makeSpan (members : List Record) (layerId : Option Nat) : WorkSpan where
  startOffset := (members.map Record.offset).min?.getD 0
  endOffset := (members.map Record.stop).max?.getD 0
  layerId

/-- The records of a layer. -/
def layerMembers (records : List Record) (layer : Nat) : List Record :=
  records.filter fun record => record.layer = toInt32 layer

/-- The span of a layer. -/
def layerSpan (records : List Record) (layer : Nat) : WorkSpan :=
  makeSpan (layerMembers records layer) (some layer)

/-- One iteration of the loop over the layers. -/
def checkLayer (records : List Record) (layer : Nat) : Except Unit WorkSpan := do
  rejectIf (layerMembers records layer = []) ()
  pure (layerSpan records layer)

/-- The spans of the layers, in the order of their numbers. -/
def layerSpans (records : List Record) (layerCount : Nat) : List WorkSpan :=
  (List.range layerCount).map (layerSpan records)

/-- The records of no layer. -/
def globalRecords (records : List Record) : List Record :=
  records.filter fun record => record.layer < 0

/-- The spans of the tensors of no layer. -/
def globalSpans (records : List Record) : List WorkSpan :=
  (globalRecords records).map fun record => makeSpan [record] none

/-! ### The walk -/

/-- The variants of `prepare`. -/
inductive Variant
  | baseline
  | sequential
  | layer
  | advisory
  deriving DecidableEq, Repr

/-- `Step28LayerPreparation`: whose entry it is, and the span whose counters it holds. -/
structure LayerStatistics where
  layerId : Nat
  measured : Option Nat
  deriving DecidableEq, Repr

/-- What a preparation walks, and the statistics that it leaves. -/
structure Preparation where
  order : List WorkSpan
  layers : List LayerStatistics
  deriving DecidableEq, Repr

/-- The order of the variant `layer`, between the first and the last layer of the list. -/
def layerOrder (first last : WorkSpan) (layers globals : List WorkSpan) : List WorkSpan :=
  (globals.filter fun span => span.endOffset < first.startOffset) ++ layers ++
    (globals.filter fun span => last.endOffset < span.startOffset) ++
    globals.filter fun span =>
      first.startOffset ≤ span.startOffset ∧ span.endOffset ≤ last.endOffset

/-- What the walk of a span leaves in the statistics: an entry is found by its place. -/
def storeCounters (statistics : List LayerStatistics) (span : WorkSpan) : List LayerStatistics :=
  match span.layerId with
  | none => statistics
  | some layer => statistics.modify layer fun entry => { entry with measured := some layer }

/-- The walk of a variant, over the sorted spans. -/
def walk (madvise : WorkSpan → Bool) (records : List Record) (layers globals : List WorkSpan)
    (variant : Variant) : Except Unit Preparation :=
  let statistics := layers.map fun span => ⟨span.layerId.getD 0, none⟩
  match variant with
  | .baseline => .ok ⟨[], statistics⟩
  | .sequential => .ok ⟨[makeSpan records none], statistics⟩
  | .layer => do
      let first ← okOr layers.head? ()
      let last ← okOr layers.getLast? ()
      let order := layerOrder first last layers globals
      pure ⟨order, order.foldl storeCounters statistics⟩
  | .advisory => do
      let order := sortBy WorkSpan.startOffset (globals ++ layers)
      rejectIf (∃ span ∈ order, madvise span = false) ()
      pure ⟨order, statistics⟩

/-- `VbufDirectSource::prepare`. -/
def prepare (madvise : WorkSpan → Bool) (layerCount : Nat) (tensors : List PhysicalTensor)
    (variant : Variant) : Except Unit Preparation := do
  let records ← tensors.mapM recordOf
  let layers ← (List.range layerCount).mapM (checkLayer records)
  walk madvise records (sortBy WorkSpan.startOffset layers)
    (sortBy WorkSpan.startOffset (globalSpans records)) variant

/-! ### What a preparation is for -/

/-- A position lies in a span. -/
def WorkSpan.Holds (span : WorkSpan) (position : Nat) : Prop :=
  span.startOffset ≤ position ∧ position < span.endOffset

/-- Each variant walks every byte of every tensor, two of them each span once, and the
counters of a layer are filed under its id. -/
structure Prepared (madvise : WorkSpan → Bool) (layerCount : Nat) (tensors : List PhysicalTensor)
    (records : List Record) : Prop where
  covers : ∀ variant ∈ [Variant.sequential, .layer, .advisory], ∀ result,
    prepare madvise layerCount tensors variant = .ok result → ∀ tensor ∈ tensors, ∀ position,
      tensor.offset ≤ position → position < tensor.offset + tensor.length →
        ∃ span ∈ result.order, span.Holds position
  once : ∀ variant ∈ [Variant.layer, .advisory], ∀ result,
    prepare madvise layerCount tensors variant = .ok result →
      result.order.Perm (layerSpans records layerCount ++ globalSpans records)
  counters : ∀ result, prepare madvise layerCount tensors .layer = .ok result →
    ∀ entry ∈ result.layers, entry.measured = some entry.layerId

/-- The layers start in the order of their numbers; a tensor of no layer ends before the
first layer, starts behind the last one or lies between them, without touching from outside;
a tensor of a layer that the model does not have lies between two tensors of one layer. -/
structure WellPlaced (layerCount : Nat) (records : List Record) : Prop where
  ordered : ∀ i j, i < j → j < layerCount →
    (layerSpan records i).startOffset ≤ (layerSpan records j).startOffset
  globals : ∀ record ∈ globalRecords records,
    record.stop < (layerSpan records 0).startOffset ∨
      (layerSpan records (layerCount - 1)).endOffset < record.offset ∨
      (layerSpan records 0).startOffset ≤ record.offset ∧
        record.stop ≤ (layerSpan records (layerCount - 1)).endOffset
  blocks : ∀ record ∈ records, (layerCount : Int) ≤ record.layer →
    ∃ layer < layerCount, ∃ first ∈ layerMembers records layer,
      ∃ last ∈ layerMembers records layer, first.offset ≤ record.offset ∧ record.stop ≤ last.stop

/-- The ranges of two tensors do not overlap. -/
def Apart (a b : PhysicalTensor) : Prop :=
  a.offset + a.length ≤ b.offset ∨ b.offset + b.length ≤ a.offset

/-! ### Spans of records -/

section Spans

variable {records members : List Record} {layerId : Option Nat} {record : Record}

/-- A span reaches over each of its members. -/
theorem makeSpan_reaches (hmem : record ∈ members) :
    (makeSpan members layerId).startOffset ≤ record.offset ∧
      record.stop ≤ (makeSpan members layerId).endOffset := by
  constructor
  · cases hmin : (members.map Record.offset).min? with
    | none => simp_all
    | some least =>
        rw [makeSpan, hmin]
        exact (List.min?_eq_some_iff.1 hmin).2 _ (List.mem_map_of_mem hmem)
  · cases hmax : (members.map Record.stop).max? with
    | none => simp_all
    | some greatest =>
        rw [makeSpan, hmax]
        exact (List.max?_eq_some_iff.1 hmax).2 _ (List.mem_map_of_mem hmem)

/-- A span starts with one of its members and ends with one. -/
theorem makeSpan_attained (hne : members ≠ []) :
    (∃ first ∈ members, (makeSpan members layerId).startOffset = first.offset) ∧
      ∃ last ∈ members, (makeSpan members layerId).endOffset = last.stop := by
  constructor
  · cases hmin : (members.map Record.offset).min? with
    | none => simp_all
    | some least =>
        obtain ⟨first, hfirst, hleast⟩ := List.mem_map.1 (List.min?_eq_some_iff.1 hmin).1
        exact ⟨first, hfirst, by rw [makeSpan, hmin, Option.getD_some, hleast]⟩
  · cases hmax : (members.map Record.stop).max? with
    | none => simp_all
    | some greatest =>
        obtain ⟨last, hlast, hgreatest⟩ := List.mem_map.1 (List.max?_eq_some_iff.1 hmax).1
        exact ⟨last, hlast, by rw [makeSpan, hmax, Option.getD_some, hgreatest]⟩

theorem makeSpan_singleton (record : Record) (layerId : Option Nat) :
    makeSpan [record] layerId = ⟨record.offset, record.stop, layerId⟩ := rfl

end Spans

theorem toInt32_of_lt {layer : Nat} (h : layer < 2 ^ 31) : toInt32 layer = layer := by
  rw [toInt32, BitVec.toInt_eq_toNat_of_lt]
  · rw [BitVec.toNat_ofNat, Nat.mod_eq_of_lt (by omega)]
  · rw [BitVec.toNat_ofNat]
    omega

/-! ### What a preparation does -/

section Prepare

variable {madvise : WorkSpan → Bool} {layerCount : Nat} {tensors : List PhysicalTensor}
  {records : List Record} {variant : Variant} {result : Preparation}

theorem mapM_checkLayer_eq_ok_iff {layers : List Nat} {spans : List WorkSpan} :
    layers.mapM (checkLayer records) = .ok spans ↔
      (∀ layer ∈ layers, layerMembers records layer ≠ []) ∧ spans = layers.map (layerSpan records) := by
  induction layers generalizing spans with
  | nil =>
      constructor
      · intro h
        cases h
        exact ⟨fun _ hmem => absurd hmem List.not_mem_nil, rfl⟩
      · intro h
        rw [h.2]
        rfl
  | cons layer layers ih =>
      simp only [List.mapM_cons, bind_eq_ok_iff, pure_eq_ok_iff, ih, checkLayer, rejectIf_eq_ok_iff,
        List.forall_mem_cons, List.map_cons]
      constructor
      · rintro ⟨_, ⟨_, hne, rfl⟩, _, ⟨hall, rfl⟩, rfl⟩
        exact ⟨⟨hne, hall⟩, rfl⟩
      · rintro ⟨⟨hne, hall⟩, rfl⟩
        exact ⟨_, ⟨(), hne, rfl⟩, _, ⟨hall, rfl⟩, rfl⟩

/-- A preparation walks the sorted spans of the layers, each of which has a tensor. -/
theorem prepare_eq_ok_iff (hrecords : tensors.mapM recordOf = .ok records) :
    prepare madvise layerCount tensors variant = .ok result ↔
      (∀ layer < layerCount, layerMembers records layer ≠ []) ∧
        walk madvise records (sortBy WorkSpan.startOffset (layerSpans records layerCount))
          (sortBy WorkSpan.startOffset (globalSpans records)) variant = .ok result := by
  simp only [prepare, bind_eq_ok_iff, hrecords, Except.ok.injEq, exists_eq_left',
    mapM_checkLayer_eq_ok_iff, List.mem_range, and_assoc]
  constructor
  · rintro ⟨_, hall, rfl, hwalk⟩
    exact ⟨hall, hwalk⟩
  · rintro ⟨hall, hwalk⟩
    exact ⟨_, hall, rfl, hwalk⟩

/-- The walk over the sorted layers reaches an entry by its place. -/
theorem foldl_storeCounters (order : List WorkSpan) (statistics : List LayerStatistics) (i : Nat) :
    (order.foldl storeCounters statistics)[i]? = statistics[i]?.map fun entry =>
      if ∃ span ∈ order, span.layerId = some i then { entry with measured := some i } else entry := by
  induction order generalizing statistics with
  | nil => simp
  | cons span order ih =>
      rw [List.foldl_cons, ih]
      cases hid : span.layerId with
      | none => simp [storeCounters, hid]
      | some layer =>
          by_cases hlayer : layer = i
          · subst hlayer
            have hat : (storeCounters statistics span)[layer]? =
                statistics[layer]?.map fun entry => { entry with measured := some layer } := by
              simp [storeCounters, hid]
            rw [hat, Option.map_map]
            congr 1
            funext entry
            rw [if_pos ⟨span, List.mem_cons_self, hid⟩, Function.comp_apply]
            split <;> rfl
          · simp [storeCounters, hid, hlayer]

/-- The parts of a list by three properties, one of which each item has. -/
theorem filter_parts_perm {α : Type*} (p q r : α → Bool) (items : List α)
    (h : ∀ item ∈ items, (p item = true ∧ q item = false ∧ r item = false) ∨
      (p item = false ∧ q item = true ∧ r item = false) ∨
      (p item = false ∧ q item = false ∧ r item = true)) :
    (items.filter p ++ items.filter q ++ items.filter r).Perm items := by
  induction items with
  | nil => rfl
  | cons item items ih =>
      have hrest := ih fun other hother => h other (List.mem_cons_of_mem _ hother)
      rcases h item List.mem_cons_self with ⟨hp, hq, hr⟩ | ⟨hp, hq, hr⟩ | ⟨hp, hq, hr⟩
      · simpa [hp, hq, hr] using hrest
      · simp only [List.filter_cons, hp, hq, hr, if_true, Bool.false_eq_true, if_false]
        rw [List.append_assoc, List.cons_append]
        refine List.perm_middle.trans (List.Perm.cons item ?_)
        rwa [← List.append_assoc]
      · simp only [List.filter_cons, hp, hq, hr, if_true, Bool.false_eq_true, if_false]
        exact List.perm_middle.trans (hrest.cons item)

theorem layerSpans_getElem? {i : Nat} (hi : i < layerCount) :
    (layerSpans records layerCount)[i]? = some (layerSpan records i) := by
  rw [layerSpans, List.getElem?_map, List.getElem?_range hi, Option.map_some]

theorem mem_layerSpans {span : WorkSpan} :
    span ∈ layerSpans records layerCount ↔ ∃ layer < layerCount, layerSpan records layer = span := by
  simp [layerSpans]

theorem mem_globalSpans {span : WorkSpan} :
    span ∈ globalSpans records ↔ ∃ record ∈ globalRecords records,
      (⟨record.offset, record.stop, none⟩ : WorkSpan) = span := by
  simp [globalSpans, makeSpan_singleton]

/-- Layers that start in the order of their numbers are sorted already. -/
theorem sortBy_layerSpans (hordered : ∀ i j, i < j → j < layerCount →
      (layerSpan records i).startOffset ≤ (layerSpan records j).startOffset) :
    sortBy WorkSpan.startOffset (layerSpans records layerCount) = layerSpans records layerCount := by
  refine List.Pairwise.insertionSort_eq ?_
  rw [layerSpans, List.pairwise_map]
  refine List.pairwise_iff_getElem.2 ?_
  intro i j hi hj hlt
  rw [List.getElem_range, List.getElem_range]
  rw [List.length_range] at hj
  exact hordered i j hlt hj

/-- The sorted list has each layer at the place of its number exactly when the layers start
in the order of their numbers. -/
theorem places_iff :
    (∀ (i : Nat) (span : WorkSpan), (sortBy WorkSpan.startOffset (layerSpans records layerCount))[i]? = some span →
          span.layerId = some i) ↔
      ∀ i j, i < j → j < layerCount →
        (layerSpan records i).startOffset ≤ (layerSpan records j).startOffset := by
  constructor
  · intro hplaces i j hij hj
    have hlength : (sortBy WorkSpan.startOffset (layerSpans records layerCount)).length =
        layerCount := by
      rw [length_sortBy, layerSpans, List.length_map, List.length_range]
    have hat : ∀ k < layerCount,
        (sortBy WorkSpan.startOffset (layerSpans records layerCount))[k]? =
          some (layerSpan records k) := by
      intro k hk
      obtain ⟨span, hspan⟩ : ∃ span,
          (sortBy WorkSpan.startOffset (layerSpans records layerCount))[k]? = some span :=
        ⟨_, List.getElem?_eq_getElem (hlength.symm ▸ hk)⟩
      obtain ⟨layer, -, hlayer⟩ := mem_layerSpans.1 (mem_sortBy.1 (List.mem_of_getElem? hspan))
      have hid := hplaces k span hspan
      rw [← hlayer] at hid
      cases hid
      rw [hspan, hlayer]
    have hsorted := List.pairwise_insertionSort
      (fun a b : WorkSpan => a.startOffset ≤ b.startOffset) (layerSpans records layerCount)
    obtain ⟨hi', hati⟩ := List.getElem?_eq_some_iff.1 (hat i (Nat.lt_trans hij hj))
    obtain ⟨hj', hatj⟩ := List.getElem?_eq_some_iff.1 (hat j hj)
    have hle := List.pairwise_iff_getElem.1 hsorted i j hi' hj' hij
    have hi'' : (List.insertionSort (fun a b : WorkSpan => a.startOffset ≤ b.startOffset)
      (layerSpans records layerCount))[i] = layerSpan records i := hati
    have hj'' : (List.insertionSort (fun a b : WorkSpan => a.startOffset ≤ b.startOffset)
      (layerSpans records layerCount))[j] = layerSpan records j := hatj
    rwa [hi'', hj''] at hle
  · intro hordered i span hspan
    rw [sortBy_layerSpans hordered] at hspan
    have hi : i < layerCount := by
      simpa [layerSpans] using (List.getElem?_eq_some_iff.1 hspan).1
    rw [layerSpans_getElem? hi] at hspan
    cases hspan
    rfl

/-- The walk of the layers, between the first and the last of the sorted list. -/
theorem prepare_layer_eq (hrecords : tensors.mapM recordOf = .ok records)
    (h : prepare madvise layerCount tensors .layer = .ok result) :
    (∀ layer < layerCount, layerMembers records layer ≠ []) ∧
      ∃ first last, (sortBy WorkSpan.startOffset (layerSpans records layerCount)).head? = some first ∧
        (sortBy WorkSpan.startOffset (layerSpans records layerCount)).getLast? = some last ∧
        result.order = layerOrder first last
          (sortBy WorkSpan.startOffset (layerSpans records layerCount))
          (sortBy WorkSpan.startOffset (globalSpans records)) ∧
        result.layers = result.order.foldl storeCounters
          ((sortBy WorkSpan.startOffset (layerSpans records layerCount)).map fun span =>
            ⟨span.layerId.getD 0, none⟩) := by
  obtain ⟨hmembers, hwalk⟩ := (prepare_eq_ok_iff hrecords).1 h
  simp only [walk, bind_eq_ok_iff, okOr_eq_ok_iff, pure_eq_ok_iff] at hwalk
  obtain ⟨first, hfirst, last, hlast, rfl⟩ := hwalk
  exact ⟨hmembers, first, last, hfirst, hlast, rfl, rfl⟩

/-- The counters are filed under their layers exactly when each layer has the place of its
number. -/
theorem counters_iff (hrecords : tensors.mapM recordOf = .ok records)
    (h : prepare madvise layerCount tensors .layer = .ok result) :
    (∀ entry ∈ result.layers, entry.measured = some entry.layerId) ↔
      ∀ (i : Nat) (span : WorkSpan),
        (sortBy WorkSpan.startOffset (layerSpans records layerCount))[i]? = some span →
          span.layerId = some i := by
  obtain ⟨-, first, last, -, -, horder, hlayers⟩ := prepare_layer_eq hrecords h
  have hentry : ∀ (i : Nat) (span : WorkSpan),
      (sortBy WorkSpan.startOffset (layerSpans records layerCount))[i]? = some span →
        result.layers[i]? = some ⟨span.layerId.getD 0, some i⟩ := by
    intro i span hspan
    have hi : i < layerCount := by
      have hlt := (List.getElem?_eq_some_iff.1 hspan).1
      rwa [length_sortBy, layerSpans, List.length_map, List.length_range] at hlt
    -- Each layer is walked, so that each entry gets the counters of the layer of its place.
    have hwalked : ∃ walked ∈ result.order, walked.layerId = some i := by
      refine ⟨layerSpan records i, ?_, rfl⟩
      have hmem : layerSpan records i ∈
          sortBy WorkSpan.startOffset (layerSpans records layerCount) :=
        mem_sortBy.2 (mem_layerSpans.2 ⟨i, hi, rfl⟩)
      rw [horder, layerOrder]
      simp only [List.mem_append]
      exact .inl (.inl (.inr hmem))
    rw [hlayers, foldl_storeCounters, List.getElem?_map, hspan, Option.map_some, Option.map_some,
      if_pos hwalked]
  have hid : ∀ (i : Nat) (span : WorkSpan),
      (sortBy WorkSpan.startOffset (layerSpans records layerCount))[i]? = some span →
        span.layerId = some (span.layerId.getD 0) := by
    intro i span hspan
    obtain ⟨layer, -, rfl⟩ := mem_layerSpans.1 (mem_sortBy.1 (List.mem_of_getElem? hspan))
    rfl
  constructor
  · intro hall i span hspan
    have heq : some i = some (span.layerId.getD 0) :=
      hall _ (List.mem_of_getElem? (hentry i span hspan))
    rw [hid i span hspan, heq]
  · intro hplaces entry hmem
    obtain ⟨i, hi⟩ := List.mem_iff_getElem?.1 hmem
    cases hspan : (sortBy WorkSpan.startOffset (layerSpans records layerCount))[i]? with
    | none =>
        rw [hlayers, foldl_storeCounters, List.getElem?_map, hspan] at hi
        cases hi
    | some span =>
        rw [hentry i span hspan] at hi
        cases hi
        rw [hplaces i span hspan]
        rfl

end Prepare

/-! ### Records of a table -/

section Table

variable {tensors : List PhysicalTensor} {records : List Record} {layerCount : Nat}

theorem recordOf_eq {tensor : PhysicalTensor} {record : Record} (h : recordOf tensor = .ok record) :
    record.offset = tensor.offset ∧ record.stop = tensor.offset + tensor.length ∧
      record.offset < record.stop := by
  simp only [recordOf, bind_eq_ok_iff, rejectIf_eq_ok_iff, pure_eq_ok_iff, not_or] at h
  obtain ⟨_, -, _, ⟨hlength, -⟩, rfl⟩ := h
  exact ⟨rfl, rfl, Nat.lt_add_of_pos_right (Nat.pos_of_ne_zero hlength)⟩

/-- Two records of a table do not overlap. -/
theorem records_apart (hrecords : tensors.mapM recordOf = .ok records)
    (hapart : tensors.Pairwise Apart) {a b : Record} (ha : a ∈ records) (hb : b ∈ records)
    (hne : a ≠ b) : a.stop ≤ b.offset ∨ b.stop ≤ a.offset := by
  have hall := mapM_eq_ok_iff.1 hrecords
  have hordered : ∀ (i j : Nat) (hi : i < records.length) (hj : j < records.length), i < j →
      records[i].stop ≤ records[j].offset ∨ records[j].stop ≤ records[i].offset := by
    intro i j hi hj hij
    have hi' : i < tensors.length := hall.length_eq ▸ hi
    have hj' : j < tensors.length := hall.length_eq ▸ hj
    obtain ⟨hioffset, histop, -⟩ := recordOf_eq (hall.get hi' hi)
    obtain ⟨hjoffset, hjstop, -⟩ := recordOf_eq (hall.get hj' hj)
    simp only [List.get_eq_getElem] at hioffset histop hjoffset hjstop
    rw [hioffset, histop, hjoffset, hjstop]
    exact List.pairwise_iff_getElem.1 hapart i j hi' hj' hij
  obtain ⟨i, hi, rfl⟩ := List.mem_iff_getElem.1 ha
  obtain ⟨j, hj, rfl⟩ := List.mem_iff_getElem.1 hb
  rcases Nat.lt_trichotomy i j with hlt | rfl | hgt
  · exact hordered i j hi hj hlt
  · exact absurd rfl hne
  · exact (hordered j i hj hi hgt).symm

/-- A table with a tensor of each layer has as many tensors as there are layers. -/
theorem layerCount_le {bound : Nat} (hbound : bound < 2 ^ 31) (hlength : records.length ≤ bound)
    (hmembers : ∀ layer < layerCount, layerMembers records layer ≠ []) : layerCount ≤ bound := by
  by_contra hmany
  have hnodup : ((List.range (bound + 1)).map Int.ofNat).Nodup :=
    List.nodup_range.map fun _ _ h => Int.ofNat.inj h
  have hsubset : (List.range (bound + 1)).map Int.ofNat ⊆ records.map Record.layer := by
    intro layer hlayer
    obtain ⟨number, hnumber, rfl⟩ := List.mem_map.1 hlayer
    rw [List.mem_range] at hnumber
    obtain ⟨record, hrecord⟩ := List.exists_mem_of_ne_nil _ (hmembers number (by omega))
    obtain ⟨hmem, hlayer⟩ := List.mem_filter.1 hrecord
    rw [decide_eq_true_iff, toInt32_of_lt (by omega)] at hlayer
    have hnumber : Int.ofNat number = record.layer := hlayer.symm
    exact hnumber ▸ List.mem_map_of_mem hmem
  have hle := (List.subperm_of_subset hnodup hsubset).length_le
  rw [List.length_map, List.length_map, List.length_range] at hle
  omega

end Table

/-! ### When a preparation covers the mapping -/

section Covering

variable {madvise : WorkSpan → Bool} {layerCount : Nat} {tensors : List PhysicalTensor}
  {records : List Record} {result : Preparation}

/-- The first and the last of the layers in the order of their numbers. -/
theorem ends_of_layerSpans (hpos : 0 < layerCount) {first last : WorkSpan}
    (hfirst : (layerSpans records layerCount).head? = some first)
    (hlast : (layerSpans records layerCount).getLast? = some last) :
    first = layerSpan records 0 ∧ last = layerSpan records (layerCount - 1) := by
  have hlength : (layerSpans records layerCount).length = layerCount := by simp [layerSpans]
  rw [List.head?_eq_getElem?, layerSpans_getElem? hpos] at hfirst
  rw [List.getLast?_eq_getElem?, hlength, layerSpans_getElem? (by omega)] at hlast
  exact ⟨(Option.some.inj hfirst).symm, (Option.some.inj hlast).symm⟩

theorem wellPlaced_of_prepared (hpos : 0 < layerCount) (hapart : tensors.Pairwise Apart)
    (hrecords : tensors.mapM recordOf = .ok records)
    (hprepare : prepare madvise layerCount tensors .layer = .ok result)
    (h : Prepared madvise layerCount tensors records) : WellPlaced layerCount records := by
  have hordered := places_iff.1 ((counters_iff hrecords hprepare).1 (h.counters result hprepare))
  obtain ⟨hmembers, first, last, hfirst, hlast, horder, -⟩ := prepare_layer_eq hrecords hprepare
  have honce := h.once .layer (by decide) result hprepare
  rw [sortBy_layerSpans hordered] at hfirst hlast horder
  obtain ⟨rfl, rfl⟩ := ends_of_layerSpans hpos hfirst hlast
  refine ⟨hordered, ?_, ?_⟩
  · -- The span of the tensor is walked, so it is in one of the parts of the order.
    intro record hrecord
    have hmem : (⟨record.offset, record.stop, none⟩ : WorkSpan) ∈ result.order :=
      honce.mem_iff.2 (List.mem_append_right _ (mem_globalSpans.2 ⟨record, hrecord, rfl⟩))
    rw [horder, layerOrder] at hmem
    simp only [List.mem_append, List.mem_filter, decide_eq_true_eq] at hmem
    rcases hmem with ((⟨-, hbefore⟩ | hlayer) | ⟨-, hbehind⟩) | ⟨-, hbetween⟩
    · exact .inl hbefore
    · obtain ⟨_, -, hspan⟩ := mem_layerSpans.1 hlayer
      cases congrArg WorkSpan.layerId hspan
    · exact .inr (.inl hbehind)
    · exact .inr (.inr hbetween)
  · -- The first byte of the tensor lies in a span, and no other tensor overlaps it.
    intro record hrecord hblock
    obtain ⟨tensor, htensor, hof⟩ := exists_of_mem_right (mapM_eq_ok_iff.1 hrecords) hrecord
    obtain ⟨hoffset, hstop, hlt⟩ := recordOf_eq hof
    obtain ⟨span, hspan, hstart, hend⟩ := h.covers .layer (by decide) result hprepare tensor htensor
      record.offset (by omega) (by omega)
    rcases List.mem_append.1 (honce.mem_iff.1 hspan) with hlayer | hglobal
    · obtain ⟨layer, hnumber, rfl⟩ := mem_layerSpans.1 hlayer
      obtain ⟨⟨first, hfirst, hfirstStart⟩, last, hlast, hlastEnd⟩ :=
        @makeSpan_attained _ (some layer) (hmembers layer hnumber)
      refine ⟨layer, hnumber, first, hfirst, last, hlast, hfirstStart ▸ hstart, ?_⟩
      have hinside : record.offset < last.stop := hlastEnd ▸ hend
      by_cases hsame : record = last
      · rw [hsame]
      · have hlastMem := (List.mem_filter.1 hlast).1
        obtain ⟨other, -, hother⟩ := exists_of_mem_right (mapM_eq_ok_iff.1 hrecords) hlastMem
        have hlastLt := (recordOf_eq hother).2.2
        rcases records_apart hrecords hapart hrecord hlastMem hsame with hle | hle <;> omega
    · obtain ⟨other, hother, rfl⟩ := mem_globalSpans.1 hglobal
      obtain ⟨hotherMem, hnegative⟩ := List.mem_filter.1 hother
      rw [decide_eq_true_iff] at hnegative
      have hne : record ≠ other := by
        rintro rfl
        omega
      simp only at hstart hend
      rcases records_apart hrecords hapart hrecord hotherMem hne with hle | hle <;> omega

/-- Each record lies in a span of a layer or of a tensor of none. -/
theorem exists_span (hcount : layerCount ≤ 2 ^ 31) (h : WellPlaced layerCount records)
    {record : Record} (hrecord : record ∈ records) :
    ∃ span ∈ layerSpans records layerCount ++ globalSpans records,
      span.startOffset ≤ record.offset ∧ record.stop ≤ span.endOffset := by
  by_cases hglobal : record.layer < 0
  · refine ⟨⟨record.offset, record.stop, none⟩, List.mem_append_right _ ?_, Nat.le_refl _, Nat.le_refl _⟩
    exact mem_globalSpans.2 ⟨record, List.mem_filter.2 ⟨hrecord, decide_eq_true hglobal⟩, rfl⟩
  by_cases hblock : (layerCount : Int) ≤ record.layer
  · obtain ⟨layer, hlayer, first, hfirst, last, hlast, hstart, hend⟩ := h.blocks record hrecord hblock
    refine ⟨layerSpan records layer, List.mem_append_left _ (mem_layerSpans.2 ⟨layer, hlayer, rfl⟩),
      ?_, ?_⟩
    · exact Nat.le_trans (makeSpan_reaches hfirst).1 hstart
    · exact Nat.le_trans hend (makeSpan_reaches hlast).2
  · have hnumber : ((record.layer.toNat : Nat) : Int) = record.layer := Int.toNat_of_nonneg (by omega)
    have hmember : record ∈ layerMembers records record.layer.toNat := by
      refine List.mem_filter.2 ⟨hrecord, decide_eq_true ?_⟩
      rw [toInt32_of_lt (by omega), hnumber]
    exact ⟨layerSpan records record.layer.toNat,
      List.mem_append_left _ (mem_layerSpans.2 ⟨_, by omega, rfl⟩), makeSpan_reaches hmember⟩

/-- The order by layers walks each span once. -/
theorem layerOrder_perm (hpos : 0 < layerCount) (hrecords : tensors.mapM recordOf = .ok records)
    (hmembers : ∀ layer < layerCount, layerMembers records layer ≠ [])
    (h : WellPlaced layerCount records) :
    (layerOrder (layerSpan records 0) (layerSpan records (layerCount - 1))
      (layerSpans records layerCount) (sortBy WorkSpan.startOffset (globalSpans records))).Perm
        (layerSpans records layerCount ++ globalSpans records) := by
  have hends : (layerSpan records 0).startOffset ≤ (layerSpan records (layerCount - 1)).endOffset := by
    obtain ⟨record, hrecord⟩ := List.exists_mem_of_ne_nil _ (hmembers (layerCount - 1) (by omega))
    obtain ⟨hstart, hend⟩ := @makeSpan_reaches _ (some (layerCount - 1)) _ hrecord
    have hle : record.offset ≤ record.stop := Nat.le_add_right _ _
    have hfirst : (layerSpan records 0).startOffset ≤
        (layerSpan records (layerCount - 1)).startOffset := by
      rcases Nat.eq_zero_or_pos (layerCount - 1) with hzero | hmore
      · rw [hzero]
      · exact h.ordered 0 _ hmore (by omega)
    unfold layerSpan at hfirst ⊢
    omega
  -- The first layer starts before the last one ends, so that the three parts are apart.
  have hparts := filter_parts_perm
    (fun span : WorkSpan => decide (span.endOffset < (layerSpan records 0).startOffset))
    (fun span => decide ((layerSpan records (layerCount - 1)).endOffset < span.startOffset))
    (fun span => decide ((layerSpan records 0).startOffset ≤ span.startOffset ∧
      span.endOffset ≤ (layerSpan records (layerCount - 1)).endOffset))
    (sortBy WorkSpan.startOffset (globalSpans records)) (by
      intro span hspan
      obtain ⟨record, hrecord, rfl⟩ := mem_globalSpans.1 (mem_sortBy.1 hspan)
      obtain ⟨_, -, hof⟩ :=
        exists_of_mem_right (mapM_eq_ok_iff.1 hrecords) (List.mem_filter.1 hrecord).1
      have hlt := (recordOf_eq hof).2.2
      simp only [decide_eq_true_eq, decide_eq_false_iff_not]
      rcases h.globals record hrecord with hbefore | hbehind | hbetween
      · exact .inl ⟨hbefore, by omega, by omega⟩
      · exact .inr (.inl ⟨by omega, hbehind, by omega⟩)
      · exact .inr (.inr ⟨by omega, by omega, hbetween⟩))
  rw [layerOrder]
  refine ((List.perm_append_comm.append_right _).append_right _).trans ?_
  rw [List.append_assoc, List.append_assoc, ← List.append_assoc _ _ (List.filter _ _)]
  exact (hparts.trans sortBy_perm).append_left _

theorem prepared_of_wellPlaced (hpos : 0 < layerCount) (hcount : layerCount ≤ 2 ^ 31)
    (hrecords : tensors.mapM recordOf = .ok records)
    (hmembers : ∀ layer < layerCount, layerMembers records layer ≠ [])
    (h : WellPlaced layerCount records) : Prepared madvise layerCount tensors records := by
  have hsorted := sortBy_layerSpans h.ordered
  have hlayer : ∀ result, prepare madvise layerCount tensors .layer = .ok result →
      result.order.Perm (layerSpans records layerCount ++ globalSpans records) := by
    intro result hprepare
    obtain ⟨-, first, last, hfirst, hlast, horder, -⟩ := prepare_layer_eq hrecords hprepare
    rw [hsorted] at hfirst hlast horder
    obtain ⟨rfl, rfl⟩ := ends_of_layerSpans hpos hfirst hlast
    exact horder ▸ layerOrder_perm hpos hrecords hmembers h
  have hadvisory : ∀ result, prepare madvise layerCount tensors .advisory = .ok result →
      result.order.Perm (layerSpans records layerCount ++ globalSpans records) := by
    intro result hprepare
    have hwalk := ((prepare_eq_ok_iff hrecords).1 hprepare).2
    simp only [walk, bind_eq_ok_iff, pure_eq_ok_iff] at hwalk
    obtain ⟨_, -, rfl⟩ := hwalk
    exact (sortBy_perm.trans (sortBy_perm.append sortBy_perm)).trans List.perm_append_comm
  refine ⟨?_, ?_, ?_⟩
  · intro variant hvariant result hprepare tensor htensor position hle hlt
    obtain ⟨record, hrecord, hof⟩ := exists_of_mem_left (mapM_eq_ok_iff.1 hrecords) htensor
    obtain ⟨hoffset, hstop, -⟩ := recordOf_eq hof
    obtain ⟨span, hspan, hstart, hend⟩ := exists_span hcount h hrecord
    simp only [List.mem_cons, List.not_mem_nil, or_false] at hvariant
    rcases hvariant with rfl | rfl | rfl
    · have hwalk := ((prepare_eq_ok_iff hrecords).1 hprepare).2
      cases hwalk
      obtain ⟨hfirst, hlast⟩ := @makeSpan_reaches _ none _ hrecord
      exact ⟨_, List.mem_singleton_self _, by omega, by omega⟩
    · exact ⟨span, (hlayer result hprepare).mem_iff.2 hspan, by omega, by omega⟩
    · exact ⟨span, (hadvisory result hprepare).mem_iff.2 hspan, by omega, by omega⟩
  · intro variant hvariant result hprepare
    simp only [List.mem_cons, List.not_mem_nil, or_false] at hvariant
    rcases hvariant with rfl | rfl
    · exact hlayer result hprepare
    · exact hadvisory result hprepare
  · intro result hprepare
    exact (counters_iff hrecords hprepare).2 (places_iff.2 h.ordered)

/-- A table that is prepared is walked whole, span by span, with its counters in their
places, exactly when its layers and its other tensors are well placed. -/
theorem prepare_covers_iff (hpos : 0 < layerCount) (hfew : tensors.length ≤ TensorDirectory.maxTensors)
    (hapart : tensors.Pairwise Apart) (hrecords : tensors.mapM recordOf = .ok records)
    (hprepare : prepare madvise layerCount tensors .layer = .ok result) :
    Prepared madvise layerCount tensors records ↔ WellPlaced layerCount records := by
  have hmembers := (prepare_layer_eq hrecords hprepare).1
  have hlength : records.length ≤ 1000000 := by
    rw [← (mapM_eq_ok_iff.1 hrecords).length_eq]
    exact hfew
  have hcount := layerCount_le (by decide) hlength hmembers
  exact ⟨wellPlaced_of_prepared hpos hapart hrecords hprepare,
    prepared_of_wellPlaced hpos (by omega) hrecords hmembers⟩

end Covering

/-! ### Two layers between the other tensors -/

/-- Embeddings, two layers and an output, with gaps around the layers. -/
def spacedTable : List PhysicalTensor :=
  [⟨utf8 "token_embd.weight", 0, 8⟩, ⟨utf8 "blk.0.attn_q.weight", 16, 8⟩,
    ⟨utf8 "blk.1.attn_q.weight", 24, 8⟩, ⟨utf8 "output.weight", 40, 8⟩]

/-- Its records. -/
def spacedRecords : List Record := [⟨0, 8, -1⟩, ⟨16, 8, 0⟩, ⟨24, 8, 1⟩, ⟨40, 8, -1⟩]

theorem spacedRecords_placed : WellPlaced 2 spacedRecords where
  ordered := by
    intro i j hi hj
    obtain ⟨rfl, rfl⟩ : i = 0 ∧ j = 1 := by omega
    decide
  globals := by decide
  blocks := by
    intro record hrecord hlayer
    have hknown : ∀ record ∈ spacedRecords, record.layer < ((2 : Nat) : Int) := by decide
    exact absurd hlayer (Int.not_le.2 (hknown record hrecord))

/-- What the preparation by layers walks of it. -/
def spacedWalk : Preparation :=
  (prepare (fun _ => true) 2 spacedTable .layer).toOption.get (by decide)

theorem prepare_covers_iff_spaced :
    prepare (fun _ => true) 2 spacedTable .layer = .ok spacedWalk ∧
      Prepared (fun _ => true) 2 spacedTable spacedRecords := by
  have hwalk : prepare (fun _ => true) 2 spacedTable .layer = .ok spacedWalk := eq_ok_get _
  exact ⟨hwalk, (prepare_covers_iff (by decide) (by decide) (by simp [spacedTable, Apart])
    (by decide) hwalk).2 spacedRecords_placed⟩

/-! ### A tensor next to the first layer -/

/-- The embeddings end where the only layer starts. -/
def adjacentTable : List PhysicalTensor :=
  [⟨utf8 "token_embd.weight", 0, 8⟩, ⟨utf8 "blk.0.attn_q.weight", 8, 8⟩]

/-- Its records. -/
def adjacentRecords : List Record := [⟨0, 8, -1⟩, ⟨8, 8, 0⟩]

theorem adjacentRecords_eq : adjacentTable.mapM recordOf = .ok adjacentRecords := by decide

/-- What the preparation by layers walks of it. -/
def adjacentWalk : Preparation := ⟨[⟨8, 16, some 0⟩], [⟨0, some 0⟩]⟩

theorem adjacentWalk_eq :
    prepare (fun _ => true) 1 adjacentTable .layer = .ok adjacentWalk := by decide

/-- The preparation succeeds and does not walk the embeddings. -/
theorem adjacentTable_not_prepared :
    prepare (fun _ => true) 1 adjacentTable .layer = .ok adjacentWalk ∧
      adjacentTable.Pairwise Apart ∧ adjacentTable.mapM recordOf = .ok adjacentRecords ∧
      ¬ Prepared (fun _ => true) 1 adjacentTable adjacentRecords := by
  refine ⟨adjacentWalk_eq, by simp [adjacentTable, Apart], adjacentRecords_eq, ?_⟩
  intro h
  obtain ⟨span, hspan, hstart, -⟩ := h.covers .layer (by decide) _ adjacentWalk_eq
    ⟨utf8 "token_embd.weight", 0, 8⟩ List.mem_cons_self 0 (Nat.le_refl _) (by decide)
  obtain rfl := List.mem_singleton.1 hspan
  exact absurd hstart (by decide)

end VBuf.Consumer.Prepare
