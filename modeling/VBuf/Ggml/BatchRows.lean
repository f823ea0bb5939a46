import Mathlib.Data.List.GetD
import VBuf.Ggml.LayerBatch

/-!
# Rows of a batch

A batch of rows of one width is their concatenation: slices, operations and the
loops that write rows act on it row by row.
-/

namespace VBuf.Ggml.Prefill

open VBuf.Lib VBuf.Runtime

variable {F : Type}

/-! ### Slices -/

theorem rowSlice_getElem? (values : List F) (width row i : Nat) :
    (rowSlice values width row)[i]? = if i < width then values[row * width + i]? else none := by
  rw [rowSlice, List.getElem?_take]
  split
  · rw [List.getElem?_drop]
  · rfl

theorem rowSlice_flatten {rows : List (List F)} {width row : Nat} {values : List F}
    (hwidth : ∀ values ∈ rows, values.length = width) (hrow : rows[row]? = some values) :
    rowSlice rows.flatten width row = values := by
  induction rows generalizing row with
  | nil => cases hrow
  | cons first rest ih =>
      have hfirst := hwidth first List.mem_cons_self
      cases row with
      | zero =>
          obtain rfl : first = values := Option.some.inj hrow
          rw [rowSlice, Nat.zero_mul, List.drop_zero, List.flatten_cons, List.take_left' hfirst]
      | succ row =>
          have hrest := ih (fun values hmem => hwidth values (List.mem_cons_of_mem first hmem)) hrow
          rw [← hrest, rowSlice, rowSlice, List.flatten_cons, Nat.succ_mul, Nat.add_comm,
            ← List.drop_drop, List.drop_left' hfirst]

theorem length_flatten_rows {rows : List (List F)} {width : Nat}
    (hwidth : ∀ values ∈ rows, values.length = width) :
    rows.flatten.length = rows.length * width := by
  induction rows with
  | nil => exact (Nat.zero_mul width).symm
  | cons first rest ih =>
      rw [List.flatten_cons, List.length_append, hwidth first List.mem_cons_self,
        ih (fun values hmem => hwidth values (List.mem_cons_of_mem first hmem)), List.length_cons,
        Nat.succ_mul, Nat.add_comm]

theorem getD_of_rowSlice {values row : List F} {width r i : Nat} (h : rowSlice values width r = row)
    (hi : i < width) (d : F) : values.getD (r * width + i) d = row.getD i d := by
  rw [← h, List.getD_eq_getElem?_getD, List.getD_eq_getElem?_getD, rowSlice_getElem?, if_pos hi]

/-- A list is read back by its indices. -/
theorem map_range_getD {row : List F} {width : Nat} (hwidth : row.length = width) (d : F) :
    (List.range width).map (fun i => row.getD i d) = row := by
  apply List.ext_getElem?
  intro i
  by_cases hi : i < width
  · rw [List.getElem?_map, List.getElem?_range hi, Option.map_some,
      List.getD_eq_getElem _ _ (by omega), ← List.getElem?_eq_getElem]
  · rw [List.getElem?_eq_none (by rw [List.length_map, List.length_range]; omega),
      List.getElem?_eq_none (by omega)]

/-- A row is read back by its indices in the batch. -/
theorem map_range_getD_of_rowSlice {values row : List F} {width r : Nat}
    (h : rowSlice values width r = row) (hwidth : row.length = width) (d : F) :
    (List.range width).map (fun i => values.getD (r * width + i) d) = row := by
  refine Eq.trans ?_ (map_range_getD hwidth d)
  apply List.map_congr_left
  intro i hi
  exact getD_of_rowSlice h (List.mem_range.1 hi) d

/-- An operation on a batch. -/
theorem applyBatch_flatten {width columns : Nat} (op : RowOp F width) {rows : List (List F)}
    (hwidth : ∀ values ∈ rows, values.length = columns) :
    op.applyBatch ⟨rows.flatten, [columns, rows.length]⟩ = (rows.map op.apply).flatten := by
  show (List.range rows.length).flatMap _ = _
  rw [List.flatMap_def]
  congr 1
  apply List.ext_getElem?
  intro r
  rw [List.getElem?_map, List.getElem?_map]
  by_cases hr : r < rows.length
  · obtain ⟨values, hvalues⟩ : ∃ values, rows[r]? = some values :=
      ⟨rows[r], List.getElem?_eq_getElem hr⟩
    rw [List.getElem?_range hr, hvalues, Option.map_some, Option.map_some,
      rowSlice_flatten hwidth hvalues]
  · rw [List.getElem?_eq_none (by rw [List.length_range]; omega), List.getElem?_eq_none (by omega)]
    rfl

theorem length_of_mem_map_apply {width : Nat} (op : RowOp F width) (rows : List (List F)) :
    ∀ values ∈ rows.map op.apply, values.length = width := by
  intro values hmem
  obtain ⟨row, _, rfl⟩ := List.mem_map.1 hmem
  exact op.length_apply row

/-- An operation on the results of another. -/
theorem applyBatch_applyBatch {width columns inner : Nat} (op : RowOp F width)
    (before : RowOp F inner) {rows : List (List F)}
    (hwidth : ∀ values ∈ rows, values.length = columns) :
    op.applyBatch ⟨before.applyBatch ⟨rows.flatten, [columns, rows.length]⟩, [inner, rows.length]⟩ =
      (rows.map (fun row => op.apply (before.apply row))).flatten := by
  have hop := applyBatch_flatten op (length_of_mem_map_apply before rows)
  rw [List.length_map, List.map_map] at hop
  rw [applyBatch_flatten before hwidth, hop]
  rfl

/-! ### Batches -/

theorem batchRows_eq {rows : List (List F)} {width : Nat} (hne : rows ≠ [])
    (hwidth : ∀ values ∈ rows, values.length = width) :
    batchRows (rows.map (fun values => (⟨values, [width, 1]⟩ : Activation F))) =
      .ok ⟨rows.flatten, [width, rows.length]⟩ := by
  obtain ⟨first, rest, rfl⟩ := List.exists_cons_of_ne_nil hne
  have hall : ∀ row ∈ (first :: rest).map (fun values => (⟨values, [width, 1]⟩ : Activation F)),
      row.dimensions.take 2 = [width, 1] ∧ row.values.length = width := by
    intro row hmem
    obtain ⟨values, hvalues, rfl⟩ := List.mem_map.1 hmem
    exact ⟨rfl, hwidth values hvalues⟩
  have hvalues : ((first :: rest).map (fun values => (⟨values, [width, 1]⟩ : Activation F))).flatMap
      Activation.values = (first :: rest).flatten := by
    rw [List.flatMap_map, List.flatMap_id']
  rw [List.map_cons] at hall hvalues ⊢
  rw [batchRows]
  simp only
  rw [if_pos hall, hvalues]
  simp

theorem batchRow_eq {rows : List (List F)} {width row : Nat} {values : List F}
    (hwidth : ∀ values ∈ rows, values.length = width) (hrow : rows[row]? = some values) :
    batchRow ⟨rows.flatten, [width, rows.length]⟩ row = .ok ⟨values, [width, 1]⟩ := by
  have hlt : row < rows.length := (List.getElem?_eq_some_iff.1 hrow).1
  rw [batchRow]
  simp only
  rw [if_neg (Nat.not_le.2 hlt), rowSlice_flatten hwidth hrow]

/-! ### Writing rows -/

theorem writeRow_fills (out : List F) (base width : Nat) (f : Nat → F) :
    Fills base width f out (writeRow out base width f) := by
  refine (@fills_loop F _ base 1 (fun i _ => f i) Nat.one_pos width ?_ out).congr rfl
    (Nat.mul_one width) (fun i _ => by rw [Nat.div_one])
  intro i _ out
  exact (fills_set (base + i) (f i) out).congr (by rw [Nat.mul_one]) rfl (fun _ _ => rfl)

theorem length_writeRow (out : List F) (base width : Nat) (f : Nat → F) :
    (writeRow out base width f).length = out.length := (writeRow_fills out base width f).length

/-- A written row, and the others. -/
theorem rowSlice_writeRow {out : List F} {count width : Nat} (hout : out.length = count * width)
    {row other : Nat} (hother : other < count) (f : Nat → F) :
    rowSlice (writeRow out (row * width) width f) width other =
      if other = row then (List.range width).map f else rowSlice out width other := by
  have hfills := writeRow_fills out (row * width) width f
  have hend : other * width + width ≤ count * width := by
    rw [← Nat.succ_mul]
    exact Nat.mul_le_mul_right width hother
  apply List.ext_getElem?
  intro i
  rw [rowSlice_getElem?]
  by_cases hi : i < width
  · rw [if_pos hi]
    split
    next heq =>
        rw [heq] at hend ⊢
        rw [hfills.inside i hi (by omega), List.getElem?_map, List.getElem?_range hi]
        rfl
    next hne =>
        rw [rowSlice_getElem?, if_pos hi]
        apply hfills.outside
        rcases Nat.lt_or_gt_of_ne hne with hlt | hgt
        · have hle := Nat.mul_le_mul_right width hlt
          rw [Nat.succ_mul] at hle
          omega
        · have hle := Nat.mul_le_mul_right width hgt
          rw [Nat.succ_mul] at hle
          omega
  · rw [if_neg hi]
    split
    next =>
        rw [List.getElem?_eq_none (by rw [List.length_map, List.length_range]; omega)]
    next => rw [rowSlice_getElem?, if_neg hi]

/-- A loop that writes rows: a row that is written holds its values, in the end. -/
theorem rowSlice_scatter {count width : Nat} {step : List F → Nat → List F} (target : Nat → Nat)
    (f : Nat → Nat → F) (values : Nat → List F) (n : Nat)
    (hstep : ∀ out g, g < n → step out g = writeRow out (target g * width) width (f g))
    (hvalues : ∀ g, g < n → (List.range width).map (f g) = values (target g))
    {out : List F} (hout : out.length = count * width) {row : Nat} (hrow : row < count) :
    ((List.range n).foldl step out).length = count * width ∧
      rowSlice ((List.range n).foldl step out) width row =
        if ∃ g, g < n ∧ target g = row then values row else rowSlice out width row := by
  induction n with
  | zero =>
      refine ⟨hout, ?_⟩
      rw [if_neg (fun h => by
        obtain ⟨g, hg, _⟩ := h
        exact Nat.not_lt_zero g hg)]
      rfl
  | succ n ih =>
      obtain ⟨hlength, hbefore⟩ := ih (fun out g hg => hstep out g (Nat.lt_succ_of_lt hg))
        (fun g hg => hvalues g (Nat.lt_succ_of_lt hg))
      rw [List.range_succ, List.foldl_append, List.foldl_cons, List.foldl_nil,
        hstep _ n (Nat.lt_succ_self n), length_writeRow]
      refine ⟨hlength, ?_⟩
      rw [rowSlice_writeRow hlength hrow, hbefore]
      by_cases hlast : row = target n
      · rw [if_pos hlast, if_pos ⟨n, Nat.lt_succ_self n, hlast.symm⟩, hlast]
        exact hvalues n (Nat.lt_succ_self n)
      · rw [if_neg hlast]
        apply if_congr _ rfl rfl
        constructor
        · intro h
          obtain ⟨g, hg, htarget⟩ := h
          exact ⟨g, Nat.lt_succ_of_lt hg, htarget⟩
        · intro h
          obtain ⟨g, hg, htarget⟩ := h
          refine ⟨g, ?_, htarget⟩
          rcases Nat.lt_succ_iff_lt_or_eq.1 hg with hlt | rfl
          · exact hlt
          · exact absurd htarget.symm hlast

end VBuf.Ggml.Prefill
