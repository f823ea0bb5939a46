import VBuf.Runtime.ExpertRuns

/-!
# The experts, one by one, are the mixture

A lowered expert graph that runs leaves at its output the hidden state, the
weighted experts of each token's ranks and the shared expert.  The run lemma of
the expert loop keeps the accumulator as the sum of the dispatches so far.
-/

namespace VBuf.Runtime

open VBuf.Lib

/-- The three tensors of a feed-forward network. -/
structure Ffn (F : Type) where
  gate : GenericTensor F
  up : GenericTensor F
  down : GenericTensor F

section Experts

variable {F : Type} [Field F] [LinearOrder F]

/-- `down(silu(gate x) * up x)`, a column of it, with row-major weights. -/
def Ffn.column (math : ExactMath F) (ffn : Ffn F) (hidden : Nat) (x : Nat → F) (column : Nat) : F :=
  ∑ channel ∈ Finset.range (ffn.gate.dimensions.getD 0 0).toNat,
    activate math .silu (∑ i ∈ Finset.range hidden, x i * ffn.gate.values.getD (channel * hidden + i) 0) *
      (∑ i ∈ Finset.range hidden, x i * ffn.up.values.getD (channel * hidden + i) 0) *
      ffn.down.values.getD (column * (ffn.gate.dimensions.getD 0 0).toNat + channel) 0

/-- The tensor that an id reads. -/
def loadTensor (provider : UInt32 → Except String (GenericTensor F)) (id : Except String UInt32) :
    GenericTensor F :=
  ((id >>= provider).toOption).getD ⟨[], []⟩

/-- An expert's own tensors. -/
def expertFfn (catalog : LayerCatalog) (provider : UInt32 → Except String (GenericTensor F))
    (expert : UInt32) : Ffn F where
  gate := loadTensor provider (catalog.entry expert 1)
  up := loadTensor provider (catalog.entry expert 2)
  down := loadTensor provider (catalog.entry expert 3)

/-- What is read for the catalog entries of an expert. -/
structure OwnTensors (catalog : LayerCatalog)
    (provider : UInt32 → Except String (GenericTensor F)) (expert : UInt32) (ffn : Ffn F) :
    Prop where
  gate : (catalog.entry expert 1 >>= provider) = .ok ffn.gate
  up : (catalog.entry expert 2 >>= provider) = .ok ffn.up
  down : (catalog.entry expert 3 >>= provider) = .ok ffn.down

/-- What is read for the shared expert. -/
structure SharedTensors (catalog : LayerCatalog)
    (provider : UInt32 → Except String (GenericTensor F)) (ffn : Ffn F) : Prop where
  gate : provider catalog.sharedGate = .ok ffn.gate
  up : provider catalog.sharedUp = .ok ffn.up
  down : provider catalog.sharedDown = .ok ffn.down

omit [Field F] [LinearOrder F] in
theorem loadTensor_eq {provider : UInt32 → Except String (GenericTensor F)}
    {id : Except String UInt32} {found : UInt32} {tensor : GenericTensor F} (hid : id = .ok found)
    (h : provider found = .ok tensor) : loadTensor provider id = tensor := by
  subst hid
  show ((provider found).toOption).getD _ = _
  rw [h]
  rfl

/-- What an expert gives for the whole input. -/
def dispatched (math : ExactMath F) (catalog : LayerCatalog)
    (provider : UInt32 → Except String (GenericTensor F)) (selection : GenericTopKSelection F)
    (norm : GenericTensor F) (expert : UInt32) : Except String (GenericTensor F) :=
  expertDispatch math norm (expertFfn catalog provider expert).gate
    (expertFfn catalog provider expert).up (expertFfn catalog provider expert).down expert selection

/-- A cell of a dispatch; zero where there is none. -/
def dispatchedCell (math : ExactMath F) (catalog : LayerCatalog)
    (provider : UInt32 → Except String (GenericTensor F)) (selection : GenericTopKSelection F)
    (norm : GenericTensor F) (index : Nat) (expert : UInt32) : F :=
  (((dispatched math catalog provider selection norm expert).toOption.map
    GenericTensor.values).getD []).getD index 0

/-- The keys of an expert name its own tensors. -/
structure NamesExpert (catalog : LayerCatalog) (bindings : AssocMap String UInt32)
    (expert : UInt32) : Prop where
  gate : ∃ id, catalog.entry expert 1 = .ok id ∧ bindings.lookup (expertKey expert "gate") = some id
  up : ∃ id, catalog.entry expert 2 = .ok id ∧ bindings.lookup (expertKey expert "up") = some id
  down : ∃ id, catalog.entry expert 3 = .ok id ∧ bindings.lookup (expertKey expert "down") = some id

theorem valueId_eq_ok_iff {base index : Nat} {id : UInt32} :
    valueId base index = .ok id ↔ id.toNat = base + index % 2 ^ 32 := by
  simp only [valueId, bind_eq_ok_iff, rejectIf_eq_ok_iff, pure_eq_ok_iff, not_le]
  constructor
  · rintro ⟨_, hlt, rfl⟩
    exact UInt32.toNat_ofNat_of_lt' hlt
  · intro hid
    have hlt := id.toNat_lt
    refine ⟨(), by omega, ?_⟩
    rw [← hid, UInt32.ofNat_toNat]

/-- The value id of an accumulator before the dispatch at `index`. -/
def AccumulatorAt (index : Nat) (accumulator : UInt32) : Prop :=
  accumulator = 18 ∧ index = 0 ∨ ∃ before, index = before + 1 ∧ valueId 2000 before = .ok accumulator

theorem AccumulatorAt.ne_output {index : Nat} {accumulator output : UInt32}
    (h : AccumulatorAt index accumulator) (houtput : valueId 1000 index = .ok output) :
    accumulator ≠ output := by
  rw [valueId_eq_ok_iff] at houtput
  rintro rfl
  rcases h with ⟨rfl, -⟩ | ⟨before, rfl, hbefore⟩
  · have : (18 : UInt32).toNat = 18 := rfl
    omega
  · rw [valueId_eq_ok_iff] at hbefore
    have hlt := accumulator.toNat_lt
    omega

/-- The values that the expert loop reads: the hidden state, its norm and the
accumulator. -/
structure Holding (run : GenericRun F) (hidden norm accumulated : GenericTensor F)
    (accumulator : UInt32) : Prop where
  hidden_eq : run.values.lookup 16 = some hidden
  norm_eq : run.values.lookup 17 = some norm
  accumulated_eq : run.values.lookup accumulator = some accumulated

variable {math : ExactMath F}
  {rotary : GenericTensor F → RotaryAttributes F → Except String (GenericTensor F)}
  {provider : UInt32 → Except String (GenericTensor F)} {selection : GenericTopKSelection F}
  {program : PortableProgram} {bindings : AssocMap String UInt32} {catalog : LayerCatalog}

/-- One turn of the expert loop adds the dispatch to the accumulator. -/
theorem Holding.turn {run middle next : GenericRun F} {hidden norm accumulated : GenericTensor F}
    {accumulator output target expert : UInt32} {index : Nat}
    (h : Holding run hidden norm accumulated accumulator) (hat : AccumulatorAt index accumulator)
    (houtput : valueId 1000 index = .ok output) (htarget : valueId 2000 index = .ok target)
    (hnames : NamesExpert catalog bindings expert)
    (hdispatch : Runs math rotary provider selection program bindings
      (dispatchOperation expert output) run middle)
    (haccumulate : Runs math rotary provider selection program bindings
      (accumulateOperation expert accumulator output target) middle next) :
    ∃ result sum, dispatched math catalog provider selection norm expert = .ok result ∧
      OwnTensors catalog provider expert (expertFfn catalog provider expert) ∧
      Holding next hidden norm sum target ∧ sum.dimensions = accumulated.dimensions ∧
      sum.values.length = accumulated.values.length ∧
      ∀ i, sum.values.getD i 0 = accumulated.values.getD i 0 + result.values.getD i 0 := by
  obtain ⟨gateId, hgateId, hgateKey⟩ := hnames.gate
  obtain ⟨upId, hupId, hupKey⟩ := hnames.up
  obtain ⟨downId, hdownId, hdownKey⟩ := hnames.down
  obtain ⟨gate, up, down, result, hgate, hup, hdown, hresult, hmiddle⟩ :=
    hdispatch.dispatch h.norm_eq hgateKey hupKey hdownKey
  have hnumber := valueId_eq_ok_iff.1 houtput
  have htargetNumber := valueId_eq_ok_iff.1 htarget
  have hsixteen : (16 : UInt32).toNat = 16 := rfl
  have hseventeen : (17 : UInt32).toNat = 17 := rfl
  have hfar : ∀ id : UInt32, id.toNat < 1000 → id ≠ output ∧ id ≠ target := by
    intro id hid
    constructor <;> rintro rfl <;> omega
  -- The dispatch writes elsewhere, so the accumulation still reads the old sum.
  have hleft : middle.values.lookup accumulator = some accumulated := by
    rw [hmiddle, AssocMap.lookup_insert_eq, if_neg (hat.ne_output houtput), h.accumulated_eq]
  have hright : middle.values.lookup output = some result := by
    rw [hmiddle, AssocMap.lookup_insert_eq, if_pos rfl]
  obtain ⟨-, hlength, hnext⟩ := haccumulate.residualAdd hleft hright
  refine ⟨result, ⟨accumulated.dimensions, List.zipWith (· + ·) accumulated.values result.values⟩,
    ?_, ?_, ⟨?_, ?_, ?_⟩, rfl, ?_, fun i => getD_zipWith (add_zero 0) hlength i⟩
  · rw [dispatched, expertFfn, loadTensor_eq hgateId hgate, loadTensor_eq hupId hup,
      loadTensor_eq hdownId hdown, hresult]
  · rw [expertFfn, loadTensor_eq hgateId hgate, loadTensor_eq hupId hup,
      loadTensor_eq hdownId hdown]
    exact ⟨hgateId ▸ hgate, hupId ▸ hup, hdownId ▸ hdown⟩
  · rw [hnext, AssocMap.lookup_insert_eq, if_neg (hfar 16 (by omega)).2, hmiddle,
      AssocMap.lookup_insert_eq, if_neg (hfar 16 (by omega)).1, h.hidden_eq]
  · rw [hnext, AssocMap.lookup_insert_eq, if_neg (hfar 17 (by omega)).2, hmiddle,
      AssocMap.lookup_insert_eq, if_neg (hfar 17 (by omega)).1, h.norm_eq]
  · rw [hnext, AssocMap.lookup_insert_eq, if_pos rfl]
  · show (List.zipWith _ _ _).length = _
    rw [List.length_zipWith, ← hlength, Nat.min_self]

/-- The expert loop leaves the sum of all dispatches in its last accumulator. -/
theorem Holding.loop {experts : List UInt32} {index : Nat} {accumulator last : UInt32}
    {operations : List (PortableOperation F)} {run final : GenericRun F}
    {hidden norm accumulated : GenericTensor F}
    (hoperations : expertOperations experts index accumulator = .ok (operations, last))
    (hnames : ∀ expert ∈ experts, NamesExpert catalog bindings expert)
    (h : Holding run hidden norm accumulated accumulator) (hat : AccumulatorAt index accumulator)
    (hrun : RunsAll math rotary provider selection program bindings operations run final) :
    ∃ sum, Holding final hidden norm sum last ∧ (last = 18 ∨ 2000 ≤ last.toNat) ∧
      sum.dimensions = accumulated.dimensions ∧
      sum.values.length = accumulated.values.length ∧
      (∀ expert ∈ experts, OwnTensors catalog provider expert (expertFfn catalog provider expert) ∧
        ∃ result, dispatched math catalog provider selection norm expert = .ok result) ∧
      ∀ i, sum.values.getD i 0 = accumulated.values.getD i 0 +
        (experts.map (dispatchedCell math catalog provider selection norm i)).sum := by
  -- On the experts: each turn hands its sum to the rest as the accumulator.
  induction experts generalizing index accumulator operations run accumulated with
  | nil =>
      cases hoperations
      obtain rfl : run = final := hrun
      refine ⟨accumulated, h, ?_, rfl, rfl, fun _ hmem => absurd hmem List.not_mem_nil, fun i => ?_⟩
      · rcases hat with ⟨rfl, -⟩ | ⟨before, -, hbefore⟩
        · exact .inl rfl
        · rw [valueId_eq_ok_iff] at hbefore
          exact .inr (by omega)
      · rw [List.map_nil, List.sum_nil, add_zero]
  | cons expert rest ih =>
      simp only [expertOperations, bind_eq_ok_iff, pure_eq_ok_iff] at hoperations
      obtain ⟨output, houtput, target, htarget, ⟨tail, end_⟩, htail, heq⟩ := hoperations
      cases heq
      rw [List.forall_mem_cons] at hnames
      obtain ⟨middle, hdispatch, next, haccumulate, hrest⟩ := hrun
      obtain ⟨result, sum, hresult, hown, hholding, hdims, hlength, hcells⟩ :=
        h.turn hat houtput htarget hnames.1 hdispatch haccumulate
      obtain ⟨final_, hfinal, hlast, hdims', hlength', hresults, hcells'⟩ :=
        ih htail hnames.2 hholding (.inr ⟨index, rfl, htarget⟩) hrest
      refine ⟨final_, hfinal, hlast, hdims'.trans hdims, hlength'.trans hlength,
        List.forall_mem_cons.2 ⟨⟨hown, result, hresult⟩, hresults⟩, fun i => ?_⟩
      have hcell : dispatchedCell math catalog provider selection norm i expert =
          result.values.getD i 0 := by
        rw [dispatchedCell, hresult]
        rfl
      rw [hcells', hcells, List.map_cons, List.sum_cons, hcell, add_assoc]

end Experts

section Region

variable {F : Type} [Field F] [LinearOrder F] {math : ExactMath F}
  {rotary : GenericTensor F → RotaryAttributes F → Except String (GenericTensor F)}
  {provider : UInt32 → Except String (GenericTensor F)} {selection : GenericTopKSelection F}
  {program : PortableProgram} {bindings : AssocMap String UInt32} {catalog : LayerCatalog}

/-- The keys of the shared expert name its tensors. -/
structure NamesShared (catalog : LayerCatalog) (bindings : AssocMap String UInt32) : Prop where
  gate : bindings.lookup "block.shared.gate" = some catalog.sharedGate
  up : bindings.lookup "block.shared.up" = some catalog.sharedUp
  down : bindings.lookup "block.shared.down" = some catalog.sharedDown

/-- A row of an input. -/
def rowOf (values : List F) (width token : Nat) (i : Nat) : F := values.getD (token * width + i) 0

/-- The operations behind the loop add the shared expert and the hidden state. -/
theorem Holding.shared {run final : GenericRun F} {hidden norm sum : GenericTensor F}
    {last : UInt32} {tokens width : UInt64} (h : Holding run hidden norm sum last)
    (hlast : last = 18 ∨ 2000 ≤ last.toNat) (hnames : NamesShared catalog bindings)
    (hnorm : norm.dimensions = [1, tokens, width]) (hhidden : hidden.dimensions = [1, tokens, width])
    (hsum : sum.dimensions = [1, tokens, width])
    (hrun : RunsAll math rotary provider selection program bindings (sharedOperations last) run
      final) :
    norm.values.length = tokens.toNat * width.toNat ∧
      ∃ ffn output, SharedTensors catalog provider ffn ∧ final.values.lookup 306 = some output ∧
        output.dimensions = [1, tokens, width] ∧
        ∀ token < tokens.toNat, ∀ column < width.toNat,
          output.values.getD (token * width.toNat + column) 0 =
            hidden.values.getD (token * width.toNat + column) 0 +
              (sum.values.getD (token * width.toNat + column) 0 +
                ffn.column math width.toNat (rowOf norm.values width.toNat token) column) := by
  obtain ⟨run₀, hgate, run₁, hsilu, run₂, hup, run₃, hmul, run₄, hdown, run₅, hcombine, run₆,
    hresidual, rfl⟩ := hrun
  have hkept : ∀ id : UInt32, id.toNat < 300 ∨ 306 < id.toNat → ∀ target : UInt32,
      300 ≤ target.toNat → target.toNat ≤ 306 → id ≠ target := by
    rintro id hid target hlow hhigh rfl
    omega
  have hlastFar : last.toNat < 300 ∨ 306 < last.toNat := by
    rcases hlast with rfl | hlarge
    · exact .inl (by decide)
    · exact .inr (by omega)
  obtain ⟨G, g, hG, hg, hrun₀⟩ := hgate.matmul h.norm_eq hnames.gate
  obtain ⟨hlength, htokens, hwidth, hgdims, hglength, hgcells⟩ := matmul_rows hnorm hg
  have hlookup : run₀.values.lookup 300 = some g := by
    rw [hrun₀, AssocMap.lookup_insert_eq, if_pos rfl]
  have hrun₁ := hsilu.activation hlookup
  have hnorm₁ : run₁.values.lookup 17 = some norm := by
    rw [hrun₁, AssocMap.lookup_insert_eq, if_neg (by decide), hrun₀, AssocMap.lookup_insert_eq,
      if_neg (by decide), h.norm_eq]
  obtain ⟨U, u, hU, hu, hrun₂⟩ := hup.matmul hnorm₁ hnames.up
  obtain ⟨-, -, -, hudims, hulength, hucells⟩ := matmul_rows hnorm hu
  have hleft : run₂.values.lookup 301 = some ⟨g.dimensions, g.values.map (activate math .silu)⟩ := by
    rw [hrun₂, AssocMap.lookup_insert_eq, if_neg (by decide), hrun₁, AssocMap.lookup_insert_eq,
      if_pos rfl]
  have hright : run₂.values.lookup 302 = some u := by
    rw [hrun₂, AssocMap.lookup_insert_eq, if_pos rfl]
  obtain ⟨hmulDims, hmulLength, hrun₃⟩ := hmul.elementwiseMul hleft hright
  -- The channels of both halves are the same, so the product keeps the rows.
  have hinter : (U.dimensions.getD 0 0) = G.dimensions.getD 0 0 := by
    have hdims : g.dimensions = u.dimensions := hmulDims
    rw [hgdims, hudims] at hdims
    simp only [List.cons.injEq, and_true, true_and] at hdims
    exact hdims.symm
  have hproduct : run₃.values.lookup 303 = some ⟨g.dimensions,
      List.zipWith (· * ·) (g.values.map (activate math .silu)) u.values⟩ := by
    rw [hrun₃, AssocMap.lookup_insert_eq, if_pos rfl]
  obtain ⟨D, d, hD, hd, hrun₄⟩ := hdown.matmul hproduct hnames.down
  have hproductDims : (⟨g.dimensions, List.zipWith (· * ·) (g.values.map (activate math .silu))
      u.values⟩ : GenericTensor F).dimensions = [1, tokens, G.dimensions.getD 0 0] := hgdims
  obtain ⟨-, -, -, hddims, -, hdcells⟩ := matmul_rows hproductDims hd
  have hsum₄ : run₄.values.lookup last = some sum := by
    rw [hrun₄, AssocMap.lookup_insert_eq, if_neg (hkept _ hlastFar 304 (by decide) (by decide)),
      hrun₃, AssocMap.lookup_insert_eq, if_neg (hkept _ hlastFar 303 (by decide) (by decide)),
      hrun₂, AssocMap.lookup_insert_eq, if_neg (hkept _ hlastFar 302 (by decide) (by decide)),
      hrun₁, AssocMap.lookup_insert_eq, if_neg (hkept _ hlastFar 301 (by decide) (by decide)),
      hrun₀, AssocMap.lookup_insert_eq, if_neg (hkept _ hlastFar 300 (by decide) (by decide)),
      h.accumulated_eq]
  have hshared₄ : run₄.values.lookup 304 = some d := by
    rw [hrun₄, AssocMap.lookup_insert_eq, if_pos rfl]
  obtain ⟨hcombineDims, hcombineLength, hrun₅⟩ := hcombine.residualAdd hsum₄ hshared₄
  -- The sum with the experts is only taken of equal shapes.
  have hout : D.dimensions.getD 0 0 = width := by
    rw [hsum, hddims] at hcombineDims
    simp only [List.cons.injEq, and_true, true_and] at hcombineDims
    exact hcombineDims.symm
  have hsixteen : run₅.values.lookup 16 = some hidden := by
    rw [hrun₅, AssocMap.lookup_insert_eq, if_neg (by decide), hrun₄, AssocMap.lookup_insert_eq,
      if_neg (by decide), hrun₃, AssocMap.lookup_insert_eq, if_neg (by decide), hrun₂,
      AssocMap.lookup_insert_eq, if_neg (by decide), hrun₁, AssocMap.lookup_insert_eq,
      if_neg (by decide), hrun₀, AssocMap.lookup_insert_eq, if_neg (by decide), h.hidden_eq]
  have hcombined : run₅.values.lookup 305 = some ⟨sum.dimensions,
      List.zipWith (· + ·) sum.values d.values⟩ := by
    rw [hrun₅, AssocMap.lookup_insert_eq, if_pos rfl]
  obtain ⟨-, hresidualLength, hrun₆⟩ := hresidual.residualAdd hsixteen hcombined
  refine ⟨hlength, ⟨G, U, D⟩, ⟨hidden.dimensions, List.zipWith (· + ·) hidden.values
    (List.zipWith (· + ·) sum.values d.values)⟩, ⟨hG, hU, hD⟩, ?_, hhidden, ?_⟩
  · rw [hrun₆, AssocMap.lookup_insert_eq, if_pos rfl]
  · intro token htoken column hcolumn
    show (List.zipWith _ _ _).getD _ 0 = _
    rw [getD_zipWith (add_zero 0) hresidualLength, getD_zipWith (add_zero 0) hcombineLength]
    have hcell := hdcells token htoken column (by rw [hout]; exact hcolumn)
    rw [hout] at hcell
    rw [hcell, Ffn.column]
    congr 2
    refine Finset.sum_congr rfl fun channel hchannel => ?_
    have hchannel' := Finset.mem_range.1 hchannel
    have hupCell := hucells token htoken channel (by rw [hinter]; exact hchannel')
    rw [hinter] at hupCell
    show (List.zipWith (· * ·) _ _).getD _ 0 * _ = _
    rw [getD_zipWith (mul_zero 0) hmulLength, getD_map_of_lt
      (by rw [hglength]; exact block_lt htoken hchannel'),
      hgcells token htoken channel hchannel', hupCell]
    rfl

omit [LinearOrder F] in
theorem sum_map_ite (g : UInt32 → F) {id : UInt32} {experts : List UInt32} (hnodup : experts.Nodup)
    (hmem : id ∈ experts) : (experts.map fun expert => if id = expert then g expert else 0).sum = g id := by
  induction experts with
  | nil => cases hmem
  | cons expert rest ih =>
      rw [List.nodup_cons] at hnodup
      rw [List.map_cons, List.sum_cons]
      -- The expert at the head is the one that was chosen, and no other equals it.
      by_cases heq : id = expert
      · have hzero : ∀ other ∈ rest, (if id = other then g other else 0) = 0 := by
          rintro other hother
          rw [if_neg]
          rintro rfl
          exact hnodup.1 (heq ▸ hother)
        rw [if_pos heq, List.map_congr_left hzero, heq]
        simp
      · rw [if_neg heq, zero_add]
        exact ih hnodup.2 ((List.mem_cons.1 hmem).resolve_left heq)

omit [LinearOrder F] in
/-- A sum over the experts of sums over the ranks, the other way round. -/
theorem sum_map_sum (f : UInt32 → Nat → F) (ranks : Nat) (experts : List UInt32) :
    (experts.map fun expert => ∑ rank ∈ Finset.range ranks, f expert rank).sum =
      ∑ rank ∈ Finset.range ranks, (experts.map fun expert => f expert rank).sum := by
  induction experts with
  | nil => simp
  | cons expert rest ih =>
      simp only [List.map_cons, List.sum_cons]
      rw [ih, Finset.sum_add_distrib]

/-- An expert's column at a row is its network there. -/
theorem expertColumn_eq_column (norm : List F) (ffn : Ffn F) (width token column : Nat) :
    expertColumn math norm ffn.gate.values ffn.up.values ffn.down.values width
      (ffn.gate.dimensions.getD 0 0).toNat token column =
        ffn.column math width (rowOf norm width token) column := by
  rw [expertColumn_eq_sum, Ffn.column]
  refine Finset.sum_congr rfl fun channel _ => ?_
  rw [activatedChannel, rowDot_eq_sum, rowDot_eq_sum]
  rfl

/-- A cell of a dispatch: the ranks of the token that chose the expert. -/
theorem dispatchedCell_eq {norm : GenericTensor F} {expert : UInt32} {tokens width : UInt64}
    (hnorm : norm.dimensions = [1, tokens, width])
    (hlength : norm.values.length = tokens.toNat * width.toNat)
    (hresult : ∃ result, dispatched math catalog provider selection norm expert = .ok result)
    {token column : Nat} (htoken : token < tokens.toNat) (hcolumn : column < width.toNat) :
    dispatchedCell math catalog provider selection norm (token * width.toNat + column) expert =
      ∑ rank ∈ Finset.range selection.topK.toNat,
        if selection.ids.getD (token * selection.topK.toNat + rank) 0 = expert then
          selection.weights.getD (token * selection.topK.toNat + rank) 0 *
            (expertFfn catalog provider expert).column math width.toNat
              (rowOf norm.values width.toNat token) column
        else 0 := by
  obtain ⟨result, hresult⟩ := hresult
  have hvalues : dispatchedCell math catalog provider selection norm
      (token * width.toNat + column) expert =
        result.values.getD (token * width.toNat + column) 0 := by
    rw [dispatchedCell, hresult]
    rfl
  rw [hvalues]
  simp only [dispatched, expertDispatch, bind_eq_ok_iff, rejectIf_eq_ok_iff, pure_eq_ok_iff]
    at hresult
  obtain ⟨_, -, _, -, _, -, _, -, _, -, rfl⟩ := hresult
  have hinside := block_lt htoken hcolumn
  obtain ⟨hdiv, hmod⟩ := div_mod_block hcolumn token
  have hone : (norm.dimensions.getD 0 0).toNat * (norm.dimensions.getD 1 0).toNat =
      tokens.toNat := by
    rw [hnorm]
    exact Nat.one_mul _
  have hwidth : (norm.dimensions.getD 2 0) = width := by
    rw [hnorm]
    rfl
  show (List.map _ _).getD _ 0 = _
  rw [getD_map_range _ _ (hlength ▸ hinside), hone, hwidth, if_pos hinside, hdiv, hmod,
    dispatchCell_eq_sum]
  refine Finset.sum_congr rfl fun rank _ => ?_
  rw [expertColumn_eq_column]

/-- The sorted list of the distinct selected ids. -/
def selectedExperts (selection : GenericTopKSelection F) : List UInt32 :=
  selection.ids.dedup.insertionSort fun a b => a.toNat ≤ b.toNat

omit [Field F] [LinearOrder F] in
theorem selectedExperts_nodup (selection : GenericTopKSelection F) :
    (selectedExperts selection).Nodup :=
  ((List.perm_insertionSort _ _).nodup_iff).2 (List.nodup_dedup _)

omit [Field F] [LinearOrder F] in
theorem mem_selectedExperts {selection : GenericTopKSelection F} {id : UInt32} :
    id ∈ selectedExperts selection ↔ id ∈ selection.ids :=
  ((List.perm_insertionSort _ _).mem_iff).trans List.mem_dedup

/-- The mixture at a column of a token: the hidden state, the weighted experts of
the token's ranks and the shared expert. -/
def mixture (math : ExactMath F) (selection : GenericTopKSelection F) (shared : Ffn F)
    (experts : UInt32 → Ffn F) (hidden norm : List F) (width token column : Nat) : F :=
  hidden.getD (token * width + column) 0 +
    ∑ rank ∈ Finset.range selection.topK.toNat,
      selection.weights.getD (token * selection.topK.toNat + rank) 0 *
        (experts (selection.ids.getD (token * selection.topK.toNat + rank) 0)).column math width
          (rowOf norm width token) column +
    shared.column math width (rowOf norm width token) column

/-- A result holds the mixture at an output: the norm is the one of the hidden
state, and every network is read for its own catalog entries. -/
def HoldsMixture (math : ExactMath F) (catalog : LayerCatalog)
    (provider : UInt32 → Except String (GenericTensor F)) (selection : GenericTopKSelection F)
    (hidden : GenericTensor F) (tokens width : UInt64) (result : GenericExecutionResult F)
    (target : UInt32) : Prop :=
  ∃ weight norm shared experts output,
    provider catalog.postNorm = .ok weight ∧ rmsNorm math hidden weight normEpsilon = .ok norm ∧
    SharedTensors catalog provider shared ∧
    (∀ expert ∈ selectedExperts selection, OwnTensors catalog provider expert (experts expert)) ∧
    result.values.lookup target = some output ∧ output.dimensions = hidden.dimensions ∧
    ∀ token < tokens.toNat, ∀ column < width.toNat,
      output.values.getD (token * width.toNat + column) 0 =
        mixture math selection shared experts hidden.values norm.values width.toNat token column

/-- The expert keys of a graph name the catalog's tensors. -/
theorem namesExpert_of_bindings {selected : List UInt32} {experts : List (List TensorBinding)}
    (hexperts : selected.mapM (expertBindings catalog) = .ok experts)
    (hbound : ∀ binding ∈ experts.flatten, bindings.lookup binding.semantic = some binding.tensor) :
    ∀ expert ∈ selected, NamesExpert catalog bindings expert := by
  intro expert hexpert
  obtain ⟨list, hlist, hnames⟩ := exists_of_mem_left (mapM_eq_ok_iff.1 hexperts) hexpert
  simp only [expertBindings, bind_eq_ok_iff, pure_eq_ok_iff] at hnames
  obtain ⟨gate, hgate, up, hup, down, hdown, rfl⟩ := hnames
  have hat : ∀ binding ∈ ([⟨expertKey expert "gate", gate⟩, ⟨expertKey expert "up", up⟩,
      ⟨expertKey expert "down", down⟩] : List TensorBinding),
      bindings.lookup binding.semantic = some binding.tensor := fun binding hmem =>
    hbound binding (List.mem_flatten.2 ⟨_, hlist, hmem⟩)
  simp only [List.forall_mem_cons] at hat
  exact ⟨⟨gate, hgate, hat.1⟩, ⟨up, hup, hat.2.1⟩, ⟨down, hdown, hat.2.2.1⟩⟩

/-- An expert graph that is lowered and runs with a selection leaves the mixture
of the selected experts at the output of its region. -/
theorem expertRegion_eq_mixture {scores corrected hidden : GenericTensor F} {count : UInt32}
    {tokens width : UInt64} {region : PortableRegion F} {graph : ExecutionGraph F}
    {state state' : GenericExecutionState F} {result : GenericExecutionResult F}
    (hselection : topK scores corrected count = .ok selection)
    (htokens : selection.tokenCount = tokens) (hshape : hidden.dimensions = [1, tokens, width])
    (hbuild : buildExpertGraph catalog (selectedExperts selection) = .ok (program, region))
    (hlower : lowerRegion math program region = .ok graph)
    (hrun : executeGenericGraph math (exactKernels math rotary) provider (some selection) graph hidden
      state = (.ok result, state')) :
    HoldsMixture math catalog provider selection hidden tokens width result region.output := by
  simp only [buildExpertGraph, bind_eq_ok_iff, pure_eq_ok_iff] at hbuild
  obtain ⟨bound, hbound, ⟨operations, last⟩, hoperations, heq⟩ := hbuild
  cases heq
  -- The keys of the program, and the run of its portable operations.
  rw [lowerRegion, bind_eq_ok_iff] at hlower
  obtain ⟨bindings, hbindings, hlower⟩ := hlower
  obtain ⟨lowered, hlowered, hgraph⟩ := bind_eq_ok_iff.1 hlower
  obtain rfl := (Except.ok.inj hgraph).symm
  have hkeys := (lookup_bindTensors hbindings).2
  rw [List.forall_mem_append] at hkeys
  obtain ⟨hfixed, hown⟩ := hkeys
  simp only [List.forall_mem_cons] at hfixed
  obtain ⟨hnormKey, hgateKey, hupKey, hdownKey, -⟩ := hfixed
  have hnames := namesExpert_of_bindings hbound hown
  rw [executeGenericGraph] at hrun
  cases hfold : lowered.foldlM (executeGenericOperation math (exactKernels math rotary) provider
      (some selection)) ⟨(∅ : AssocMap UInt32 (GenericTensor F)).insert 16 hidden, none, state⟩ with
  | error error =>
      simp only [hfold] at hrun
      cases hrun
  | ok final =>
      simp only [hfold] at hrun
      cases hrun
      have hruns := runsAll_of_foldlM (mapM_eq_ok_iff.1 hlowered) hfold
      obtain ⟨run₁, hnorm, run₂, hzero, hruns⟩ := hruns
      obtain ⟨run₃, hloop, hshared⟩ := hruns.append
      have hstart : ((∅ : AssocMap UInt32 (GenericTensor F)).insert 16 hidden).lookup 16 =
          some hidden := by
        rw [AssocMap.lookup_insert_eq, if_pos rfl]
      obtain ⟨weight, norm, hweight, hnormed, hrun₁⟩ := hnorm.norm hstart hnormKey
      have hnormDims : norm.dimensions = [1, tokens, width] := by
        simp only [rmsNorm, bind_eq_ok_iff, rejectIf_eq_ok_iff] at hnormed
        obtain ⟨_, -, _, -, _, -, hvalue⟩ := hnormed
        rw [← Except.ok.inj hvalue, hshape]
      have hnorm₁ : run₁.values.lookup 17 = some norm := by
        rw [hrun₁, AssocMap.lookup_insert_eq, if_pos rfl]
      have hrun₂ := hzero.zeroLike hnorm₁
      have hholding : Holding run₂ hidden norm
          ⟨norm.dimensions, List.replicate norm.values.length 0⟩ 18 := by
        refine ⟨?_, ?_, ?_⟩
        · rw [hrun₂, AssocMap.lookup_insert_eq, if_neg (by decide), hrun₁,
            AssocMap.lookup_insert_eq, if_neg (by decide), hstart]
        · rw [hrun₂, AssocMap.lookup_insert_eq, if_neg (by decide), hnorm₁]
        · rw [hrun₂, AssocMap.lookup_insert_eq, if_pos rfl]
      obtain ⟨sum, hholding₃, hlast, hsumDims, -, hresults, hcells⟩ :=
        hholding.loop hoperations hnames (.inl ⟨rfl, rfl⟩) hloop
      obtain ⟨hlength, shared, output, hsharedTensors, houtput, hdims, hvalues⟩ :=
        hholding₃.shared hlast ⟨hgateKey, hupKey, hdownKey⟩ hnormDims hshape
          (hsumDims.trans hnormDims) hshared
      refine ⟨weight, norm, shared, expertFfn catalog provider, output, hweight, hnormed,
        hsharedTensors, fun expert hmem => (hresults expert hmem).1, houtput, hdims.trans hshape.symm,
        fun token htoken column hcolumn => ?_⟩
      have hzeros : (List.replicate norm.values.length (0 : F)).getD
          (token * width.toNat + column) 0 = 0 := by
        rw [List.getD_eq_getElem?_getD, List.getElem?_replicate]
        split <;> rfl
      -- The sum over the list of experts is one over the ranks of the token.
      have hroutes : ((selectedExperts selection).map (dispatchedCell math catalog provider selection
          norm (token * width.toNat + column))).sum =
            ∑ rank ∈ Finset.range selection.topK.toNat,
              selection.weights.getD (token * selection.topK.toNat + rank) 0 *
                (expertFfn catalog provider
                  (selection.ids.getD (token * selection.topK.toNat + rank) 0)).column math
                    width.toNat (rowOf norm.values width.toNat token) column := by
        rw [List.map_congr_left fun expert hmem =>
          dispatchedCell_eq hnormDims hlength (hresults expert hmem).2 htoken hcolumn, sum_map_sum]
        refine Finset.sum_congr rfl fun rank hrank => ?_
        refine sum_map_ite (fun expert => _ * _) (selectedExperts_nodup selection) ?_
        -- Every rank of the token has an id of the list.
        have hids := topK_ids_length hselection
        have hindex : token * selection.topK.toNat + rank < selection.ids.length := by
          rw [hids, htokens]
          exact block_lt htoken (Finset.mem_range.1 hrank)
        rw [mem_selectedExperts, List.getD_eq_getElem?_getD, List.getElem?_eq_getElem hindex]
        exact List.getElem_mem hindex
      rw [hvalues token htoken column hcolumn, hcells, hroutes, mixture]
      show _ + (List.getD (List.replicate _ _) _ _ + _ + _) = _
      rw [hzeros, zero_add, add_assoc]

end Region

/-- A quotient that follows the exponential near zero. -/
def nearExp (x : ℚ) : ℚ := (12 + 6 * x + x ^ 2) / (12 - 6 * x + x ^ 2)

theorem nearExp_pos (x : ℚ) : 0 < nearExp x := by
  refine div_pos ?_ ?_
  · have hsquare := sq_nonneg (x + 3)
    linarith only [hsquare, show (x + 3) ^ 2 = x ^ 2 + 6 * x + 9 by ring]
  · have hsquare := sq_nonneg (x - 3)
    linarith only [hsquare, show (x - 3) ^ 2 = x ^ 2 - 6 * x + 9 by ring]

/-- Arithmetic over the rationals, with the root of the mean square of the example. -/
def expertMath : ExactMath ℚ where
  exp := nearExp
  sqrt := fun x => if x = 121 / 4000000 then 11 / 2000 else x
  isFinite := fun _ => true
  exp_pos := nearExp_pos

/-- A catalog of experts with three tensors each. -/
def exampleCatalog : LayerCatalog where
  layer := 1
  postNorm := 1
  sharedGate := 2
  sharedUp := 3
  sharedDown := 4
  expertEntries := fun key => some (10 * (key.1 + 1) + key.2.toUInt32, 0)

/-- A norm of one, gates of three and twos elsewhere. -/
def exampleProvider (id : UInt32) : Except String (GenericTensor ℚ) :=
  if id = 1 then .ok ⟨[1], [1]⟩
  else if id = 2 ∨ id % 10 = 1 then .ok ⟨[1, 1], [3]⟩
  else .ok ⟨[1, 1], [2]⟩

/-- The scores of three experts for two tokens. -/
def exampleScores : GenericTensor ℚ := ⟨[1, 2, 3], [2, 3, 1, 1, 4, 2]⟩

/-- The two best experts of each token. -/
def exampleSelection : GenericTopKSelection ℚ where
  ids := [1, 0, 1, 2]
  weights := [3 / (5 + 1 / 10 ^ 20), 2 / (5 + 1 / 10 ^ 20), 4 / (6 + 1 / 10 ^ 20),
    2 / (6 + 1 / 10 ^ 20)]
  tokenCount := 2
  topK := 2

def exampleHidden : GenericTensor ℚ := ⟨[1, 2, 1], [9 / 2000, -9 / 2000]⟩

def exampleState : GenericExecutionState ℚ := ⟨0, 4, 0, 0, 0, 0, [], []⟩

def exampleGraph : PortableProgram × PortableRegion ℚ :=
  ((buildExpertGraph exampleCatalog (selectedExperts exampleSelection)).toOption).getD
    (⟨[], []⟩, ⟨"", 0, 0, []⟩)

def exampleLowered : ExecutionGraph ℚ :=
  ((lowerRegion expertMath exampleGraph.1 exampleGraph.2).toOption).getD ⟨0, 0, [], []⟩

theorem topK_example :
    topK exampleScores exampleScores 2 = .ok exampleSelection := by
  decide +kernel

theorem buildExpertGraph_example :
    buildExpertGraph exampleCatalog (selectedExperts exampleSelection) = .ok exampleGraph := by
  decide +kernel

theorem lowerRegion_example :
    lowerRegion expertMath exampleGraph.1 exampleGraph.2 = .ok exampleLowered := by
  decide +kernel

theorem executeGenericGraph_example :
    (executeGenericGraph expertMath (exactKernels expertMath fun input _ => .ok input)
      exampleProvider (some exampleSelection) exampleLowered exampleHidden
      exampleState).1.toOption.isSome = true := by
  decide +kernel

/-- The mixture of the example. -/
theorem expertRegion_eq_mixture_example :
    ∃ result, HoldsMixture expertMath exampleCatalog exampleProvider exampleSelection exampleHidden
      2 1 result exampleGraph.2.output := by
  have hsome := executeGenericGraph_example
  cases hrun : executeGenericGraph expertMath (exactKernels expertMath fun input _ => .ok input)
      exampleProvider (some exampleSelection) exampleLowered exampleHidden exampleState with
  | mk outcome state' =>
      rw [hrun] at hsome
      cases outcome with
      | error error => cases hsome
      | ok result =>
          exact ⟨result, expertRegion_eq_mixture topK_example rfl rfl buildExpertGraph_example
            lowerRegion_example hrun⟩

end VBuf.Runtime
