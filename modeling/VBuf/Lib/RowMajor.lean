import Mathlib.Data.List.Basic
import Mathlib.Algebra.Order.Group.Nat
import Mathlib.Tactic.Ring

/-!
# Row-major arrays and the loops that fill them

A loop nest that writes one cell for each tuple of indices fills a flat array
with the values of the tuples, in row-major order.
-/

namespace VBuf.Lib

variable {α : Type*}

/-- `after` is `out` with the cells from `base` on, `size` of them, set to `f`. -/
structure Fills (base size : Nat) (f : Nat → α) (out after : List α) : Prop where
  length : after.length = out.length
  inside : ∀ i, i < size → base + i < out.length → after[base + i]? = some (f i)
  outside : ∀ i, (i < base ∨ base + size ≤ i) → after[i]? = out[i]?

theorem fills_set (base : Nat) (value : α) (out : List α) :
    Fills base 1 (fun _ => value) out (out.set base value) := by
  refine ⟨List.length_set, ?_, ?_⟩
  · intro i hi hlt
    have hzero : i = 0 := by omega
    subst hzero
    rw [Nat.add_zero] at hlt ⊢
    exact List.getElem?_set_self hlt
  · intro i hi
    exact List.getElem?_set_ne (by omega)

/-- A loop fills block after block. -/
theorem fills_loop {step : List α → Nat → List α} {base size : Nat} {f : Nat → Nat → α}
    (hsize : 0 < size) (count : Nat)
    (hstep : ∀ i, i < count → ∀ out, Fills (base + i * size) size (f i) out (step out i))
    (out : List α) :
    Fills base (count * size) (fun r => f (r / size) (r % size)) out
      ((List.range count).foldl step out) := by
  induction count with
  | zero =>
      refine ⟨rfl, ?_, fun i _ => rfl⟩
      intro i hi
      omega
  | succ count ih =>
      have hbefore := ih (fun i hi => hstep i (Nat.lt_succ_of_lt hi))
      have hlast := hstep count (Nat.lt_succ_self count) ((List.range count).foldl step out)
      rw [List.range_succ, List.foldl_append, List.foldl_cons, List.foldl_nil]
      have hcount : (count + 1) * size = count * size + size := Nat.succ_mul count size
      refine ⟨hlast.length.trans hbefore.length, ?_, ?_⟩
      · intro i hi hlt
        by_cases hin : i < count * size
        · rw [hlast.outside (base + i) (Or.inl (by omega))]
          exact hbefore.inside i hin hlt
        · -- The cell is in the last block.
          obtain ⟨r, rfl⟩ := Nat.exists_eq_add_of_le (Nat.le_of_not_lt hin)
          have hr : r < size := by omega
          have hdiv : (count * size + r) / size = count := by
            rw [Nat.mul_comm, Nat.mul_add_div hsize, Nat.div_eq_of_lt hr, Nat.add_zero]
          have hmod : (count * size + r) % size = r := by
            rw [Nat.mul_comm, Nat.mul_add_mod, Nat.mod_eq_of_lt hr]
          have hcell := hlast.inside r hr (by rw [hbefore.length]; omega)
          simp only [hdiv, hmod]
          rw [← hcell, Nat.add_assoc]
      · intro i hi
        rw [hlast.outside i (by omega)]
        exact hbefore.outside i (by omega)

theorem Fills.congr {base base' size size' : Nat} {f f' : Nat → α} {out after : List α}
    (h : Fills base size f out after) (hbase : base = base') (hsize : size = size')
    (hf : ∀ i, i < size → f i = f' i) : Fills base' size' f' out after := by
  subst hbase hsize
  refine ⟨h.length, ?_, h.outside⟩
  intro i hi hlt
  rw [← hf i hi]
  exact h.inside i hi hlt

/-- An array that is filled whole. -/
theorem Fills.whole {size : Nat} {f : Nat → α} {out after : List α} (h : Fills 0 size f out after)
    (hsize : out.length = size) : after = (List.range size).map f := by
  apply List.ext_getElem?
  intro i
  rw [List.getElem?_map]
  by_cases hi : i < size
  · have hcell := h.inside i hi (by omega)
    rw [Nat.zero_add] at hcell
    rw [hcell, List.getElem?_range hi]
    rfl
  · have hlen : after.length = size := h.length.trans hsize
    rw [List.getElem?_eq_none (by omega), List.getElem?_eq_none (by rw [List.length_range]; omega)]
    rfl

/-! ### Four indices -/

/-- The index of a cell in an array of `length` rows of `heads` by `dimension`
cells for each batch. -/
def index4 (length heads dimension batch position head component : Nat) : Nat :=
  ((batch * length + position) * heads + head) * dimension + component

/-- The array of the values of a function, in row-major order. -/
def flat4 (batches length heads dimension : Nat) (f : Nat → Nat → Nat → Nat → α) : List α :=
  (List.range (batches * (length * (heads * dimension)))).map fun r =>
    f (r / (length * (heads * dimension)))
      (r % (length * (heads * dimension)) / (heads * dimension))
      (r % (length * (heads * dimension)) % (heads * dimension) / dimension)
      (r % (length * (heads * dimension)) % (heads * dimension) % dimension)

theorem length_flat4 (batches length heads dimension : Nat) (f : Nat → Nat → Nat → Nat → α) :
    (flat4 batches length heads dimension f).length = batches * (length * (heads * dimension)) := by
  rw [flat4, List.length_map, List.length_range]

theorem flat4_zero (batches heads dimension : Nat) (f : Nat → Nat → Nat → Nat → α) :
    flat4 batches 0 heads dimension f = [] := by
  rw [flat4, Nat.zero_mul, Nat.mul_zero]
  rfl

theorem index4_eq (length heads dimension batch position head component : Nat) :
    index4 length heads dimension batch position head component =
      batch * (length * (heads * dimension)) +
        (position * (heads * dimension) + (head * dimension + component)) := by
  unfold index4
  ring

/-- The quotient and the remainder of a cell in a block. -/
theorem div_mod_block {size r : Nat} (hr : r < size) (block : Nat) :
    (block * size + r) / size = block ∧ (block * size + r) % size = r := by
  have hsize : 0 < size := Nat.zero_lt_of_lt hr
  rw [Nat.mul_comm, Nat.mul_add_div hsize, Nat.div_eq_of_lt hr, Nat.mul_add_mod,
    Nat.mod_eq_of_lt hr]
  exact ⟨Nat.add_zero block, rfl⟩

theorem block_lt {blocks size block r : Nat} (hblock : block < blocks) (hr : r < size) :
    block * size + r < blocks * size := by
  have hle : (block + 1) * size ≤ blocks * size := Nat.mul_le_mul_right size hblock
  rw [Nat.succ_mul] at hle
  omega

theorem index4_lt {batches length heads dimension batch position head component : Nat}
    (hbatch : batch < batches) (hposition : position < length) (hhead : head < heads)
    (hcomponent : component < dimension) :
    index4 length heads dimension batch position head component <
      batches * (length * (heads * dimension)) := by
  rw [index4_eq]
  exact block_lt hbatch (block_lt hposition (block_lt hhead hcomponent))

/-- The cell of a tuple has the value of the tuple. -/
theorem getElem?_flat4 {batches length heads dimension batch position head component : Nat}
    (f : Nat → Nat → Nat → Nat → α) (hbatch : batch < batches) (hposition : position < length)
    (hhead : head < heads) (hcomponent : component < dimension) :
    (flat4 batches length heads dimension f)[index4 length heads dimension batch position head
      component]? = some (f batch position head component) := by
  have hlt := index4_lt hbatch hposition hhead hcomponent
  have hrow := block_lt hhead hcomponent
  have hblock := block_lt hposition hrow
  obtain ⟨hbatch', hrest⟩ := div_mod_block hblock batch
  obtain ⟨hposition', hrest'⟩ := div_mod_block hrow position
  obtain ⟨hhead', hcomponent'⟩ := div_mod_block hcomponent head
  rw [flat4, List.getElem?_map, List.getElem?_range hlt, Option.map_some, index4_eq]
  rw [hbatch', hrest, hposition', hrest', hhead', hcomponent']

theorem getD_flat4 {batches length heads dimension batch position head component : Nat}
    (f : Nat → Nat → Nat → Nat → α) (default : α) (hbatch : batch < batches)
    (hposition : position < length) (hhead : head < heads) (hcomponent : component < dimension) :
    (flat4 batches length heads dimension f).getD
      (index4 length heads dimension batch position head component) default =
        f batch position head component := by
  rw [List.getD_eq_getElem?_getD, getElem?_flat4 f hbatch hposition hhead hcomponent]
  rfl

theorem flat4_congr {batches length heads dimension : Nat} {f f' : Nat → Nat → Nat → Nat → α}
    (h : ∀ batch position head component, batch < batches → position < length → head < heads →
      component < dimension → f batch position head component = f' batch position head component) :
    flat4 batches length heads dimension f = flat4 batches length heads dimension f' := by
  apply List.map_congr_left
  intro r hr
  have hlt := List.mem_range.1 hr
  have hpos : 0 < length * (heads * dimension) := by
    by_contra hzero
    rw [Nat.eq_zero_of_not_pos hzero, Nat.mul_zero] at hlt
    exact Nat.not_lt_zero r hlt
  have hrow : 0 < heads * dimension := Nat.pos_of_mul_pos_left hpos
  have hdimension : 0 < dimension := Nat.pos_of_mul_pos_left hrow
  have hr1 := Nat.mod_lt r hpos
  have hr2 := Nat.mod_lt (r % (length * (heads * dimension))) hrow
  exact h _ _ _ _ ((Nat.div_lt_iff_lt_mul hpos).2 hlt)
    ((Nat.div_lt_iff_lt_mul hrow).2 hr1)
    ((Nat.div_lt_iff_lt_mul hdimension).2 hr2) (Nat.mod_lt _ hdimension)

/-- With one batch the array is a sequence of rows. -/
theorem flat4_one (length heads dimension : Nat) (f : Nat → Nat → Nat → Nat → α) :
    flat4 1 length heads dimension f = (List.range (length * (heads * dimension))).map fun r =>
      f 0 (r / (heads * dimension)) (r % (heads * dimension) / dimension)
        (r % (heads * dimension) % dimension) := by
  rw [flat4, Nat.one_mul]
  apply List.map_congr_left
  intro r hr
  have hlt := List.mem_range.1 hr
  rw [Nat.div_eq_of_lt hlt, Nat.mod_eq_of_lt hlt]

/-- Rows behind rows, of one batch. -/
theorem flat4_append (length more heads dimension : Nat) (f : Nat → Nat → Nat → Nat → α) :
    flat4 1 length heads dimension f ++ flat4 1 more heads dimension
      (fun batch position => f batch (length + position)) =
    flat4 1 (length + more) heads dimension f := by
  rw [flat4_one, flat4_one, flat4_one, Nat.add_mul, List.range_add, List.map_append, List.map_map]
  congr 1
  apply List.map_congr_left
  intro r hr
  have hlt := List.mem_range.1 hr
  have hrow : 0 < heads * dimension := by
    by_contra hzero
    rw [Nat.eq_zero_of_not_pos hzero, Nat.mul_zero] at hlt
    exact Nat.not_lt_zero r hlt
  rw [Function.comp_apply, Nat.mul_comm length, Nat.mul_add_div hrow, Nat.mul_add_mod]

/-- The nest of four loops that writes the value of each tuple to its cell. -/
theorem fill4 (batches length heads dimension : Nat) (f : Nat → Nat → Nat → Nat → α)
    {out : List α} (hout : out.length = batches * (length * (heads * dimension))) :
    (List.range batches).foldl (fun out batch =>
      (List.range length).foldl (fun out position =>
        (List.range heads).foldl (fun out head =>
          (List.range dimension).foldl (fun out component =>
            out.set (index4 length heads dimension batch position head component)
              (f batch position head component)) out) out) out) out =
      flat4 batches length heads dimension f := by
  by_cases hempty : batches * (length * (heads * dimension)) = 0
  · -- Without cells every write is out of range.
    have hnil : out = [] := List.eq_nil_of_length_eq_zero (hout.trans hempty)
    subst hnil
    have hloop : ∀ (step : List α → Nat → List α), (∀ i, step [] i = []) → ∀ n : Nat,
        (List.range n).foldl step [] = [] := by
      intro step hstep n
      induction n with
      | zero => rfl
      | succ n ih => rw [List.range_succ, List.foldl_append, ih, List.foldl_cons, hstep]; rfl
    rw [hloop _ (fun batch => hloop _ (fun position => hloop _ (fun head =>
      hloop _ (fun component => rfl) _) _) _), flat4, hempty]
    rfl
  · have hpos := Nat.pos_of_ne_zero hempty
    have hblock : 0 < length * (heads * dimension) := Nat.pos_of_mul_pos_left hpos
    have hrow : 0 < heads * dimension := Nat.pos_of_mul_pos_left hblock
    have hdimension : 0 < dimension := Nat.pos_of_mul_pos_left hrow
    refine Fills.whole ?_ hout
    refine @fills_loop α _ 0 _ (fun batch r => f batch (r / (heads * dimension))
      (r % (heads * dimension) / dimension) (r % (heads * dimension) % dimension)) hblock batches
      ?_ out
    intro batch _ out
    refine @fills_loop α _ _ _ (fun position r => f batch position (r / dimension)
      (r % dimension)) hrow length ?_ out
    intro position _ out
    refine @fills_loop α _ _ _ (fun head r => f batch position head r) hdimension heads ?_ out
    intro head _ out
    refine (@fills_loop α _ _ 1 (fun component _ => f batch position head component)
      Nat.one_pos dimension ?_ out).congr rfl (Nat.mul_one dimension) ?_
    · intro component _ out
      refine (fills_set _ _ out).congr ?_ rfl (fun _ _ => rfl)
      rw [index4_eq]
      ring
    · intro i _
      rw [Nat.div_one]

end VBuf.Lib
