import VBuf.Lib.Exchange
import VBuf.Ggml.BatchRows

/-!
# The layers of a batch are the layers of its rows

Gathering the rows of an expert and scattering its results gives each row the
results of its own experts, so that a batch goes through a layer row by row.
-/

namespace VBuf.Ggml.Prefill

open VBuf.Lib VBuf.Runtime

variable {F : Type} [Field F] [LinearOrder F] {math : ExactMath F}

/-! ### Merging -/

theorem weightedMerge_length {values : List (List F)} {weights output : List F} {width : Nat}
    (hwidth : ∀ value ∈ values, value.length = width)
    (h : weightedMerge math values weights = .ok output) : output.length = width := by
  have hfold : ∀ (merged : List (List F × F)) (out : List F),
      (∀ p ∈ merged, p.1.length = width) → out.length = width →
      (merged.foldl (fun output p => List.zipWith (fun o value => o + p.2 * value) output p.1)
        out).length = width := by
    intro merged
    induction merged with
    | nil => exact fun out _ hout => hout
    | cons p rest ih =>
        intro out hmem hout
        rw [List.foldl_cons]
        apply ih _ (fun q hq => hmem q (List.mem_cons_of_mem p hq))
        rw [List.length_zipWith, hout, hmem p List.mem_cons_self, Nat.min_self]
  cases values with
  | nil => cases h
  | cons first rest =>
      rw [weightedMerge] at h
      split at h
      next => cases h
      next =>
          split at h
          next => cases h
          next =>
              split at h
              next => cases h
              next =>
                  rw [← Except.ok.inj h]
                  apply hfold
                  · intro p hp
                    exact hwidth p.1 (List.of_mem_zip hp).1
                  · rw [List.length_replicate]
                    exact hwidth first List.mem_cons_self

/-- With weights one, a merge of two values is their sum. -/
theorem weightedMerge_ones (hone : math.isFinite 1 = true) {a b : List F} {width : Nat}
    (ha : a.length = width) (hb : b.length = width) (hpos : 0 < width) :
    weightedMerge math [a, b] [1, 1] = .ok (List.zipWith (· + ·) a b) := by
  have hfault : (([a, b].zip [1, 1]).findSome? (mergeFault math a.length)) = none := by
    simp [mergeFault, hone, ha, hb]
  have hzero : ∀ l : List F,
      List.zipWith (fun o value => o + 1 * value) (List.replicate l.length 0) l = l := by
    intro l
    induction l with
    | nil => rfl
    | cons x rest ih =>
        rw [List.length_cons, List.replicate_succ, List.zipWith_cons_cons, ih, zero_add, one_mul]
  rw [weightedMerge, if_neg (fun h => h rfl), if_neg (by omega)]
  simp only [hfault]
  show Except.ok (List.zipWith _ (List.zipWith _ _ a) b) = _
  rw [hzero a]
  congr 2
  funext o value
  rw [one_mul]

/-! ### A row through a mixture of experts -/

/-- The selection of top scores is of experts that exist. -/
theorem deterministicTopK_ids {scores : List F} {expertCount k : UInt32} {selection : TopKSelection F}
    (h : deterministicTopK math scores expertCount k = .ok selection) :
    scores.length = expertCount.toNat ∧ selection.ids.length = k.toNat ∧
      ∀ id ∈ selection.ids, id.toNat < expertCount.toNat := by
  rw [deterministicTopK] at h
  split at h
  next => cases h
  next hlength =>
      split at h
      next => cases h
      next hk =>
          split at h
          next => cases h
          next =>
              rw [not_not] at hlength
              rw [not_or] at hk
              have hle : k.toNat ≤ scores.length := by
                rw [hlength]
                exact UInt32.not_lt.1 hk.2
              rw [← Except.ok.inj h]
              refine ⟨hlength, ?_, ?_⟩
              · simp only [List.length_map, List.length_take, List.length_mergeSort,
                  List.length_range]
                omega
              · intro id hid
                obtain ⟨i, hi, rfl⟩ := List.mem_map.1 hid
                have hrange := List.mem_mergeSort.1 (List.mem_of_mem_take hi)
                have hlt := List.mem_range.1 hrange
                rw [hlength] at hlt
                rw [UInt32.toNat_ofNat_of_lt' (Nat.lt_trans hlt expertCount.toNat_lt)]
                exact hlt

variable (math) (plan : LayerPlan F)

/-- The experts of a row. -/
def routeOf (values : List F) : Except String (RowRoute F) := do
  let logits := plan.router.apply (plan.ffnNorm.apply values)
  let selection ← deterministicTopK math logits 64 6
  .ok ⟨selection, normalizedSelectedWeights math logits selection⟩

/-- The weighted results of the experts of a row. -/
def mergeOf (values : List F) (route : RowRoute F) : Except String (List F) :=
  weightedMerge math
    (route.selection.ids.map fun id => (plan.expert id).apply (plan.ffnNorm.apply values))
    route.weights

/-- The row of the next layer. -/
def finishRow (values merged : List F) : Activation F :=
  Activation.row (List.zipWith (· + ·)
    (List.zipWith (· + ·) merged (plan.shared.apply (plan.ffnNorm.apply values))) values)

/-- A row that a layer gives, unless it fails. -/
def moeRow (values : List F) : Option (Activation F) :=
  (runLayer math plan (Activation.row values)).toOption.bind fun ffn =>
    if ffn.ok = false then none else some (Activation.row ffn.finalOutput)

variable {math} {plan}

omit [Field F] [LinearOrder F] in
theorem length_of_mem_expertValues {values row : List F} {route : RowRoute F}
    (h : values ∈ route.selection.ids.map fun id =>
      (plan.expert id).apply (plan.ffnNorm.apply row)) : values.length = 2048 := by
  obtain ⟨id, _, rfl⟩ := List.mem_map.1 h
  exact (plan.expert id).length_apply _

/-- A row through a layer, in the stages of the batch. -/
theorem moeRow_eq (hone : math.isFinite 1 = true) {values : List F} (hvalues : values.length = 2048) :
    moeRow math plan values =
      (routeOf math plan values).toOption.bind fun route =>
        (mergeOf math plan values route).toOption.map (finishRow plan values) := by
  unfold moeRow runLayer routeOf
  simp only [Activation.row]
  cases deterministicTopK math (plan.router.apply (plan.ffnNorm.apply values)) 64 6 with
  | error error => rfl
  | ok selection =>
      simp only [bind, Except.bind]
      cases hmerge : mergeOf math plan values ⟨selection, normalizedSelectedWeights math
          (plan.router.apply (plan.ffnNorm.apply values)) selection⟩ with
      | error error =>
          have hrouted := hmerge
          unfold mergeOf at hrouted
          simp only [hrouted, Except.toOption, Option.bind_some, hmerge]
          rfl
      | ok merged =>
          have hrouted := hmerge
          unfold mergeOf at hrouted
          have hlength : merged.length = 2048 :=
            weightedMerge_length (fun v hv => length_of_mem_expertValues hv) hrouted
          have hshared := plan.shared.length_apply (plan.ffnNorm.apply values)
          have hcomposed := weightedMerge_ones hone hlength hshared (by decide)
          have hsum : (List.zipWith (· + ·) merged
              (plan.shared.apply (plan.ffnNorm.apply values))).length = 2048 := by
            rw [List.length_zipWith, hlength, hshared, Nat.min_self]
          have hfinal := weightedMerge_ones hone hsum hvalues (by decide)
          simp only [hrouted, Except.toOption, Option.getD_some, hcomposed, hfinal,
            Option.bind_some, hmerge]
          rfl

/-! ### Routing -/

/-- The logits of a row are its part of the logits of the batch. -/
theorem routeRow_eq {rows : List (List F)} {row : Nat} {values : List F}
    (hrow : rows[row]? = some values) :
    routeRow math (rows.map (fun values => plan.router.apply (plan.ffnNorm.apply values))).flatten
      row = routeOf math plan values := by
  have hwidth : ∀ logits ∈ rows.map (fun values => plan.router.apply (plan.ffnNorm.apply values)),
      logits.length = 64 := by
    intro logits hmem
    obtain ⟨values, _, rfl⟩ := List.mem_map.1 hmem
    exact plan.router.length_apply _
  have hslice : rowSlice (rows.map
      (fun values => plan.router.apply (plan.ffnNorm.apply values))).flatten 64 row =
        plan.router.apply (plan.ffnNorm.apply values) :=
    rowSlice_flatten hwidth (by rw [List.getElem?_map, hrow]; rfl)
  have hlogits : ((List.range 64).map fun expert => (rows.map
      (fun values => plan.router.apply (plan.ffnNorm.apply values))).flatten.getD
        (expert + 64 * row) 0) = plan.router.apply (plan.ffnNorm.apply values) := by
    rw [← map_range_getD_of_rowSlice hslice (plan.router.length_apply _) 0]
    apply List.map_congr_left
    intro expert _
    rw [Nat.add_comm, Nat.mul_comm 64]
  unfold routeRow routeOf
  rw [hlogits]

omit [Field F] [LinearOrder F] in
/-- The rows that are gathered for an expert are those that select it. -/
theorem mem_rowsByExpert {routes : List (RowRoute F)} {expert row : Nat} :
    row ∈ rowsByExpert routes expert ↔
      ∃ route, routes[row]? = some route ∧ ∃ id ∈ route.selection.ids, id.toNat = expert := by
  unfold rowsByExpert
  rw [List.mem_flatMap]
  constructor
  · intro h
    obtain ⟨r, _, hr⟩ := h
    split at hr
    next route hroute =>
        obtain ⟨id, hid, rfl⟩ := List.mem_map.1 hr
        rw [List.mem_filter, decide_eq_true_eq] at hid
        exact ⟨route, hroute, id, hid⟩
    next => cases hr
  · intro h
    obtain ⟨route, hroute, id, hid, hexpert⟩ := h
    refine ⟨row, List.mem_range.2 (List.getElem?_eq_some_iff.1 hroute).1, ?_⟩
    rw [hroute]
    exact List.mem_map.2 ⟨id, List.mem_filter.2 ⟨hid, decide_eq_true hexpert⟩, rfl⟩

omit [LinearOrder F] in
/-- The loop that scatters the results of an expert. -/
theorem rowSlice_scatter_grouped {width : Nat} (op : RowOp F width) (normalized : List (List F))
    (grouped : List Nat) {row : Nat} (hrow : row < normalized.length) (hmem : row ∈ grouped) :
    rowSlice ((List.range grouped.length).foldl (fun out group =>
      writeRow out (grouped.getD group 0 * width) width (fun i =>
        ((grouped.map (fun row => normalized.getD row [])).map op.apply).flatten.getD
          (group * width + i) 0)) (List.replicate (normalized.length * width) 0)) width row =
      op.apply (normalized.getD row []) := by
  have hvalues : ∀ group, group < grouped.length → (List.range width).map (fun i =>
      ((grouped.map (fun row => normalized.getD row [])).map op.apply).flatten.getD
        (group * width + i) 0) = op.apply (normalized.getD (grouped.getD group 0) []) := by
    intro group hlt
    refine map_range_getD_of_rowSlice (rowSlice_flatten (length_of_mem_map_apply _ _) ?_)
      (op.length_apply _) 0
    rw [List.getElem?_map, List.getElem?_map, List.getElem?_eq_getElem hlt,
      List.getD_eq_getElem _ _ hlt]
    rfl
  obtain ⟨_, hslice⟩ := rowSlice_scatter (fun group => grouped.getD group 0) _
    (fun row => op.apply (normalized.getD row [])) grouped.length (fun _ _ _ => rfl) hvalues
    (List.length_replicate (n := normalized.length * width) (a := (0 : F))) hrow
  obtain ⟨group, hlt, hgroup⟩ := List.getElem_of_mem hmem
  rw [hslice, if_pos ⟨group, hlt, by rw [List.getD_eq_getElem _ _ hlt]; exact hgroup⟩]

omit [LinearOrder F] in
/-- The results of an expert are scattered back to the rows that were gathered. -/
theorem routedByExpert_spec (plan : LayerPlan F) {normalized : List (List F)}
    (hwidth : ∀ values ∈ normalized, values.length = 2048) (expert : Nat) {grouped : List Nat}
    (hgrouped : ∀ row ∈ grouped, row < normalized.length) :
    ∃ out, routedByExpert plan ⟨normalized.flatten, [2048, normalized.length]⟩ normalized.length
        expert grouped = .ok out ∧
      ∀ row ∈ grouped, rowSlice out 2048 row =
        (plan.expert (UInt32.ofNat expert)).apply (normalized.getD row []) := by
  unfold routedByExpert
  by_cases hnil : grouped = []
  · rw [if_pos hnil]
    refine ⟨_, rfl, ?_⟩
    intro row hmem
    rw [hnil] at hmem
    cases hmem
  · rw [if_neg hnil]
    have hget : ∀ row ∈ grouped, normalized[row]? = some (normalized.getD row []) := by
      intro row hmem
      rw [List.getD_eq_getElem _ _ (hgrouped row hmem)]
      exact List.getElem?_eq_getElem (hgrouped row hmem)
    have hinputs : grouped.mapM (batchRow ⟨normalized.flatten, [2048, normalized.length]⟩) =
        .ok (grouped.map (fun row => (⟨normalized.getD row [], [2048, 1]⟩ : Activation F))) :=
      mapM_eq_ok_map (fun row hmem => batchRow_eq hwidth (hget row hmem))
    -- The gathered rows are a batch of their own.
    have hrows : ∀ values ∈ grouped.map (fun row => normalized.getD row []),
        values.length = 2048 := by
      intro values hmem
      obtain ⟨row, hrow, rfl⟩ := List.mem_map.1 hmem
      exact hwidth _ (List.mem_of_getElem? (hget row hrow))
    have hbatch := batchRows_eq (by simpa using hnil) hrows
    have hvalues := applyBatch_flatten (plan.expert (UInt32.ofNat expert)) hrows
    rw [List.map_map, List.length_map] at hbatch
    rw [List.length_map] at hvalues
    refine ⟨_, ?_, fun row hmem => rowSlice_scatter_grouped (plan.expert (UInt32.ofNat expert))
      normalized grouped (hgrouped row hmem) hmem⟩
    have hcomp : grouped.map (fun row => (⟨normalized.getD row [], [2048, 1]⟩ : Activation F)) =
        grouped.map ((fun values => (⟨values, [2048, 1]⟩ : Activation F)) ∘
          fun row => normalized.getD row []) := rfl
    rw [hinputs, hcomp]
    simp only [bind, Except.bind, hbatch, hvalues]

/-! ### Batches -/

omit [LinearOrder F] in
theorem map_add_eq_zipWith {a b : List F} {width : Nat} (ha : a.length = width)
    (hb : b.length = width) :
    (List.range width).map (fun i => a.getD i 0 + b.getD i 0) = List.zipWith (· + ·) a b := by
  conv_rhs => rw [← map_range_getD ha 0, ← map_range_getD hb 0]
  rw [List.zipWith_map, List.zipWith_self]

omit [Field F] [LinearOrder F] in
theorem getD_map_row {rows : List (List F)} {row : Nat} {values : List F}
    (hrow : rows[row]? = some values) (d : Activation F) :
    (rows.map Activation.row).getD row d = Activation.row values := by
  rw [List.getD_eq_getElem?_getD, List.getElem?_map, hrow]
  rfl

/-- A row through the dense block. -/
def denseRow (plan : LayerPlan F) (values : List F) : Activation F :=
  Activation.row (List.zipWith (· + ·) (plan.dense.apply (plan.ffnNorm.apply values)) values)

omit [LinearOrder F] in
theorem runDenseLayerBatch_eq {rows : List (List F)}
    (hwidth : ∀ values ∈ rows, values.length = 2048) :
    runDenseLayerBatch plan (rows.map Activation.row) = .ok (rows.map (denseRow plan)) := by
  unfold runDenseLayerBatch
  by_cases hnil : rows = []
  · rw [hnil]
    rfl
  · have hffn := applyBatch_applyBatch plan.dense plan.ffnNorm hwidth
    have hrow : ∀ row values, rows[row]? = some values →
        batchRow ⟨(rows.map (fun row => plan.dense.apply (plan.ffnNorm.apply row))).flatten,
          [2048, rows.length]⟩ row =
            .ok ⟨plan.dense.apply (plan.ffnNorm.apply values), [2048, 1]⟩ := by
      intro row values hvalues
      have hrow := @batchRow_eq F
        (rows.map (fun row => plan.dense.apply (plan.ffnNorm.apply row))) 2048 row
        (plan.dense.apply (plan.ffnNorm.apply values)) (by
          intro ffn hmem
          obtain ⟨_, _, rfl⟩ := List.mem_map.1 hmem
          exact plan.dense.length_apply _) (by rw [List.getElem?_map, hvalues]; rfl)
      rw [List.length_map] at hrow
      exact hrow
    rw [if_neg (by simpa using hnil)]
    have hbatch : batchRows (rows.map Activation.row) = .ok ⟨rows.flatten, [2048, rows.length]⟩ :=
      batchRows_eq hnil hwidth
    simp only [bind, Except.bind, hbatch, List.length_map, hffn]
    refine (mapM_range (g := fun values => .ok (denseRow plan values)) rows ?_).trans
      (mapM_eq_ok_map (fun _ _ => rfl))
    intro row values hvalues
    have hlength := hwidth values (List.mem_of_getElem? hvalues)
    rw [hrow row values hvalues, getD_map_row hvalues]
    show Except.ok (Activation.row ((List.range 2048).map _)) = _
    rw [denseRow, ← map_add_eq_zipWith (plan.dense.length_apply _) hlength]
    rfl

omit [LinearOrder F] in
/-- The experts of all rows have run. -/
theorem routedExperts_spec {normalized : List (List F)}
    (hwidth : ∀ values ∈ normalized, values.length = 2048) {routes : List (RowRoute F)}
    (hroutes : routes.length = normalized.length) :
    ∃ routed, (List.range 64).mapM (fun expert =>
        routedByExpert plan ⟨normalized.flatten, [2048, normalized.length]⟩ normalized.length expert
          (rowsByExpert routes expert)) = .ok routed ∧
      ∀ row route, routes[row]? = some route → ∀ id ∈ route.selection.ids, id.toNat < 64 →
        rowSlice (routed.getD id.toNat []) 2048 row =
          (plan.expert id).apply (normalized.getD row []) := by
  obtain ⟨routed, hrouted, hspec⟩ := exists_mapM_range 64 (fun expert _ =>
    @routedByExpert_spec F _ plan normalized hwidth expert (rowsByExpert routes expert) (by
      intro row hmem
      obtain ⟨route, hroute, _⟩ := mem_rowsByExpert.1 hmem
      rw [← hroutes]
      exact (List.getElem?_eq_some_iff.1 hroute).1))
  refine ⟨routed, hrouted, ?_⟩
  intro row route hroute id hid hlt
  obtain ⟨out, hout, hrows⟩ := hspec id.toNat hlt
  rw [List.getD_eq_getElem?_getD, hout, Option.getD_some,
    hrows row (mem_rowsByExpert.2 ⟨route, hroute, id, hid, rfl⟩), UInt32.ofNat_toNat]

/-- The merge of a row in the batch is the merge of the row. -/
theorem mergeRow_eq {rows : List (List F)} {routed : List (List F)} {route : RowRoute F} {row : Nat}
    {values : List F} (hrow : rows[row]? = some values)
    (hids : ∀ id ∈ route.selection.ids, id.toNat < 64)
    (hrouted : ∀ id ∈ route.selection.ids, id.toNat < 64 →
      rowSlice (routed.getD id.toNat []) 2048 row =
        (plan.expert id).apply ((rows.map plan.ffnNorm.apply).getD row [])) :
    mergeRow math routed route row =
      mapErr (fun error => "batched routed merge failed: " ++ error)
        (mergeOf math plan values route) := by
  have hvalues : (rows.map plan.ffnNorm.apply).getD row [] = plan.ffnNorm.apply values := by
    rw [List.getD_eq_getElem?_getD, List.getElem?_map, hrow]
    rfl
  unfold mergeRow mergeOf
  congr 2
  apply List.map_congr_left
  intro id hid
  rw [hrouted id hid (hids id hid), hvalues]

omit [LinearOrder F] in
/-- The rows of a merged batch, after the shared expert and the residual. -/
theorem merged_rows_eq {rows merged : List (List F)}
    (hwidth : ∀ values ∈ rows, values.length = 2048) (hlength : merged.length = rows.length)
    (hmerged : ∀ values ∈ merged, values.length = 2048) :
    ((List.range rows.length).map fun row =>
      Activation.row ((List.range 2048).map fun i =>
        ((List.range rows.length).foldl (fun out row =>
            writeRow out (row * 2048) (merged.getD row []).length
              (fun i => (merged.getD row []).getD i 0))
          (List.replicate (rows.length * 2048) 0)).getD (row * 2048 + i) 0 +
        (rows.map (fun row => plan.shared.apply (plan.ffnNorm.apply row))).flatten.getD
          (row * 2048 + i) 0 +
        ((rows.map Activation.row).getD row ⟨[], []⟩).values.getD i 0)) =
    List.zipWith (finishRow plan) rows merged := by
  have hshared : ∀ values ∈ rows.map (fun row => plan.shared.apply (plan.ffnNorm.apply row)),
      values.length = 2048 := by
    intro shared hmem
    obtain ⟨_, _, rfl⟩ := List.mem_map.1 hmem
    exact plan.shared.length_apply _
  have hget : ∀ row, row < rows.length → merged[row]? = some (merged.getD row []) := by
    intro row hrow
    rw [List.getD_eq_getElem _ _ (by omega)]
    exact List.getElem?_eq_getElem (by omega)
  have hlen : ∀ row, row < rows.length → (merged.getD row []).length = 2048 :=
    fun row hrow => hmerged _ (List.mem_of_getElem? (hget row hrow))
  apply List.ext_getElem?
  intro row
  by_cases hrow : row < rows.length
  · obtain ⟨values, hvalues⟩ : ∃ values, rows[row]? = some values :=
      ⟨rows[row], List.getElem?_eq_getElem hrow⟩
    have hvaluesLength := hwidth values (List.mem_of_getElem? hvalues)
    have hsharedLength := plan.shared.length_apply (plan.ffnNorm.apply values)
    -- The rows of the three summands.
    obtain ⟨_, hrouted⟩ := @rowSlice_scatter F rows.length 2048
      (fun out row => writeRow out (row * 2048) (merged.getD row []).length
        (fun i => (merged.getD row []).getD i 0))
      (fun row => row) (fun row i => (merged.getD row []).getD i 0) (fun row => merged.getD row [])
      rows.length (fun out g hg => by simp only [hlen g hg])
      (fun g hg => map_range_getD (hlen g hg) 0)
      (List.replicate (rows.length * 2048) 0) List.length_replicate row hrow
    rw [if_pos ⟨row, hrow, rfl⟩] at hrouted
    have hsharedSlice : rowSlice (rows.map
        (fun row => plan.shared.apply (plan.ffnNorm.apply row))).flatten 2048 row =
          plan.shared.apply (plan.ffnNorm.apply values) :=
      rowSlice_flatten hshared (by rw [List.getElem?_map, hvalues]; rfl)
    have hsum : (List.zipWith (· + ·) (merged.getD row [])
        (plan.shared.apply (plan.ffnNorm.apply values))).length = 2048 := by
      rw [List.length_zipWith, hlen row hrow, hsharedLength, Nat.min_self]
    rw [List.getElem?_map, List.getElem?_range hrow, List.getElem?_zipWith, hvalues, hget row hrow,
      Option.map_some, getD_map_row hvalues]
    refine congrArg (fun output => some (Activation.row output)) ?_
    rw [← map_add_eq_zipWith hsum hvaluesLength]
    apply List.map_congr_left
    intro i hi
    have hlt := List.mem_range.1 hi
    have hsumAt : (List.zipWith (· + ·) (merged.getD row [])
        (plan.shared.apply (plan.ffnNorm.apply values))).getD i 0 =
        (merged.getD row []).getD i 0 +
          (plan.shared.apply (plan.ffnNorm.apply values)).getD i 0 := by
      rw [← map_add_eq_zipWith (hlen row hrow) hsharedLength, List.getD_eq_getElem?_getD,
        List.getElem?_map, List.getElem?_range hlt]
      rfl
    rw [getD_of_rowSlice hrouted hlt, getD_of_rowSlice hsharedSlice hlt, hsumAt]
    rfl
  · rw [List.getElem?_eq_none (by rw [List.length_map, List.length_range]; omega),
      List.getElem?_eq_none (by rw [List.length_zipWith]; omega)]

/-- A batch goes through a mixture of experts row by row. -/
theorem runMoeLayerBatch_eq (hone : math.isFinite 1 = true) {rows : List (List F)}
    (hwidth : ∀ values ∈ rows, values.length = 2048) :
    (runMoeLayerBatch math plan (rows.map Activation.row)).toOption =
      rows.mapM (moeRow math plan) := by
  rw [mapM_congr_mem (fun values hmem => moeRow_eq hone (hwidth values hmem)),
    mapM_stages, ← toOption_mapM]
  unfold runMoeLayerBatch
  by_cases hnil : rows = []
  · rw [hnil]
    rfl
  · have hbatch : batchRows (rows.map Activation.row) = .ok ⟨rows.flatten, [2048, rows.length]⟩ :=
      batchRows_eq hnil hwidth
    have hlogits := applyBatch_applyBatch plan.router plan.ffnNorm hwidth
    have hshared := applyBatch_applyBatch plan.shared plan.ffnNorm hwidth
    have hrouterLength : (rows.map (fun row =>
        plan.router.apply (plan.ffnNorm.apply row))).flatten.length = 64 * rows.length := by
      rw [@length_flatten_rows F _ 64, List.length_map, Nat.mul_comm]
      intro logits hmem
      obtain ⟨_, _, rfl⟩ := List.mem_map.1 hmem
      exact plan.router.length_apply _
    rw [if_neg (by simpa using hnil), hbatch]
    simp only [bind, Except.bind, List.length_map, hlogits, hshared, rejectIf, hrouterLength,
      ne_eq, not_true_eq_false, if_false]
    rw [mapM_range rows (fun row values hvalues => routeRow_eq hvalues)]
    cases hroutes : rows.mapM (routeOf math plan) with
    | error error => rfl
    | ok routes =>
        have hforall := mapM_eq_ok_iff.1 hroutes
        have hroutesLength : routes.length = rows.length := hforall.length_eq.symm
        have hids : ∀ route ∈ routes, ∀ id ∈ route.selection.ids, id.toNat < 64 := by
          intro route hmem id hid
          obtain ⟨values, _, hroute⟩ := exists_of_mem_right hforall hmem
          unfold routeOf at hroute
          obtain ⟨selection, hselection, hrest⟩ := bind_eq_ok_iff.1 hroute
          rw [← Except.ok.inj hrest] at hid
          exact (deterministicTopK_ids hselection).2.2 id hid
        obtain ⟨routed, hrouted, hslices⟩ := @routedExperts_spec F _ plan
          (rows.map plan.ffnNorm.apply) (length_of_mem_map_apply _ _) routes
          (by rw [hroutesLength, List.length_map])
        rw [List.length_map] at hrouted
        simp only [applyBatch_flatten plan.ffnNorm hwidth, hrouted]
        have hzip : (rows.zip routes).length = rows.length := by
          rw [List.length_zip, hroutesLength, Nat.min_self]
        have hmerge : (List.range rows.length).mapM (fun row =>
            mergeRow math routed (routes.getD row ⟨⟨[], []⟩, []⟩) row) =
            (rows.zip routes).mapM (fun p =>
              mapErr (fun error => "batched routed merge failed: " ++ error)
                (mergeOf math plan p.1 p.2)) := by
          rw [← hzip]
          apply mapM_range
          intro row p hp
          obtain ⟨hvalues, hroute⟩ := List.getElem?_zip_eq_some.1 hp
          rw [List.getD_eq_getElem?_getD, hroute, Option.getD_some]
          exact mergeRow_eq hvalues (hids p.2 (List.mem_of_getElem? hroute))
            (fun id hid hlt => hslices row p.2 hroute id hid hlt)
        have hoption : ((rows.zip routes).mapM (fun p =>
            mapErr (fun error => "batched routed merge failed: " ++ error)
              (mergeOf math plan p.1 p.2))).toOption =
            (rows.zip routes).mapM (fun p => (mergeOf math plan p.1 p.2).toOption) := by
          rw [toOption_mapM]
          exact mapM_congr_mem (fun p _ => toOption_mapErr _ _)
        show _ = Option.map _ _
        rw [hmerge, ← hoption]
        cases hmerged : (rows.zip routes).mapM (fun p =>
            mapErr (fun error => "batched routed merge failed: " ++ error)
              (mergeOf math plan p.1 p.2)) with
        | error error => rfl
        | ok merged =>
            have hmergedForall := mapM_eq_ok_iff.1 hmerged
            have hmergedLength : merged.length = rows.length :=
              hmergedForall.length_eq.symm.trans hzip
            have hmergedWidth : ∀ values ∈ merged, values.length = 2048 := by
              intro values hmem
              obtain ⟨p, _, hp⟩ := exists_of_mem_right hmergedForall hmem
              exact weightedMerge_length (fun v hv => length_of_mem_expertValues hv)
                (mapErr_eq_ok_iff.1 hp)
            exact congrArg some (merged_rows_eq hwidth hmergedLength hmergedWidth)

end VBuf.Ggml.Prefill
