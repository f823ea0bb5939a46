import Mathlib.Data.Option.Basic
import Mathlib.Tactic.Cases
import VBuf.Lib.Result

/-!
# Rows through layers, and layers through rows

A grid of cells: each layer keeps a state that its cells pass on from row to row,
and each row passes through the layers.  Going row by row or layer by layer gives
the same rows and states, and fails alike.
-/

namespace VBuf.Lib

universe v

variable {κ α β γ σ ε : Type*}

theorem toOption_bind {α β : Type v} (x : Except ε α) (f : α → Except ε β) :
    (x >>= f).toOption = x.toOption.bind (fun a => (f a).toOption) := by
  cases x with
  | error e => rfl
  | ok a => rfl

theorem toOption_eq_some_iff {x : Except ε α} {a : α} : x.toOption = some a ↔ x = .ok a := by
  cases x with
  | error e => exact iff_of_false (fun h => by cases h) (fun h => by cases h)
  | ok b => exact ⟨fun h => by rw [Option.some.inj h], fun h => by cases h; rfl⟩

theorem toOption_mapErr {ε' : Type*} (f : ε → ε') (x : Except ε α) :
    (mapErr f x).toOption = x.toOption := by
  cases x with
  | error e => rfl
  | ok a => rfl

/-! ### Loops over a list -/

theorem toOption_mapM {α β : Type v} (f : α → Except ε β) (xs : List α) :
    (xs.mapM f).toOption = xs.mapM (fun x => (f x).toOption) := by
  induction xs with
  | nil => rfl
  | cons x rest ih =>
      rw [List.mapM_cons, List.mapM_cons, toOption_bind]
      cases (f x).toOption with
      | none => rfl
      | some y =>
          rw [Option.bind_some, toOption_bind, ih]
          rfl

theorem mapM_congr_mem {α β : Type v} {f g : α → Option β} {xs : List α}
    (h : ∀ x ∈ xs, f x = g x) : xs.mapM f = xs.mapM g := by
  induction xs with
  | nil => rfl
  | cons x rest ih =>
      rw [List.mapM_cons, List.mapM_cons, h x List.mem_cons_self,
        ih (fun y hy => h y (List.mem_cons_of_mem x hy))]

/-- A loop over the indices of a list is a loop over its items. -/
theorem mapM_range' {α β : Type v} {f : Nat → Except ε β} {g : α → Except ε β} (xs : List α)
    (start : Nat) (h : ∀ i x, xs[i]? = some x → f (start + i) = g x) :
    (List.range' start xs.length).mapM f = xs.mapM g := by
  induction xs generalizing start with
  | nil => rfl
  | cons x rest ih =>
      rw [List.length_cons, List.range'_succ, List.mapM_cons, List.mapM_cons,
        ih (start + 1) (fun i y hy => by
          rw [Nat.add_assoc, Nat.add_comm 1]
          exact h (i + 1) y hy),
        ← h 0 x rfl, Nat.add_zero]

theorem mapM_range {α β : Type v} {f : Nat → Except ε β} {g : α → Except ε β} (xs : List α)
    (h : ∀ i x, xs[i]? = some x → f i = g x) : (List.range xs.length).mapM f = xs.mapM g := by
  rw [List.range_eq_range']
  exact mapM_range' xs 0 (fun i x hx => by
    rw [Nat.zero_add]
    exact h i x hx)

theorem mapM_eq_ok_map {α β : Type v} {f : α → Except ε β} {g : α → β} {xs : List α}
    (h : ∀ x ∈ xs, f x = .ok (g x)) : xs.mapM f = .ok (xs.map g) := by
  induction xs with
  | nil => rfl
  | cons x rest ih =>
      rw [List.mapM_cons, h x List.mem_cons_self,
        ih (fun y hy => h y (List.mem_cons_of_mem x hy))]
      rfl

/-- A loop whose iterations succeed, with what they establish. -/
theorem exists_mapM_range {β : Type} {f : Nat → Except ε β} {P : Nat → β → Prop} (n : Nat)
    (h : ∀ i, i < n → ∃ y, f i = .ok y ∧ P i y) :
    ∃ ys, (List.range n).mapM f = .ok ys ∧ ∀ i, i < n → ∃ y, ys[i]? = some y ∧ P i y := by
  induction n with
  | zero => exact ⟨[], rfl, fun i hi => absurd hi (Nat.not_lt_zero i)⟩
  | succ n ih =>
      obtain ⟨ys, hys, hbefore⟩ := ih (fun i hi => h i (Nat.lt_succ_of_lt hi))
      obtain ⟨y, hy, hP⟩ := h n (Nat.lt_succ_self n)
      have hlength : ys.length = n := by
        have hforall := mapM_eq_ok_iff.1 hys
        rw [← hforall.length_eq, List.length_range]
      refine ⟨ys ++ [y], ?_, ?_⟩
      · rw [List.range_succ, List.mapM_append, hys, List.mapM_cons, hy]
        rfl
      · intro i hi
        rcases Nat.lt_succ_iff_lt_or_eq.1 hi with hlt | rfl
        · obtain ⟨y', hy', hP'⟩ := hbefore i hlt
          exact ⟨y', by rw [List.getElem?_append_left (by omega)]; exact hy', hP'⟩
        · exact ⟨y, by rw [← hlength, List.getElem?_concat_length], hP⟩

/-- The stages of an iteration can be loops of their own. -/
theorem mapM_stages {α β γ δ : Type v} (f : α → Option β) (g : α → β → Option γ) (h : α → γ → δ)
    (xs : List α) :
    xs.mapM (fun x => (f x).bind fun y => (g x y).map (h x)) =
      (xs.mapM f).bind fun ys =>
        ((xs.zip ys).mapM fun p => g p.1 p.2).map fun zs => List.zipWith h xs zs := by
  induction xs with
  | nil => rfl
  | cons x rest ih =>
      rw [List.mapM_cons, List.mapM_cons, ih]
      cases f x with
      | none => rfl
      | some y =>
          cases hrest : rest.mapM f with
          | none =>
              cases hg : g x y with
              | none => simp [hg]
              | some z => simp [hg]
          | some ys =>
              cases hg : g x y with
              | none => simp [hg]
              | some z =>
                  cases hlater : (rest.zip ys).mapM (fun p => g p.1 p.2) with
                  | none => simp [hg, hlater]
                  | some zs => simp [hg, hlater]

/-! ### The grid -/

/-- The rows of a layer, from a position on. -/
def throughRows (cell : Nat → α → σ → Option (β × σ)) :
    Nat → List α → σ → Option (List β × σ)
  | _, [], s => some ([], s)
  | position, row :: rest, s =>
      (cell position row s).bind fun first =>
        (throughRows cell (position + 1) rest first.2).map fun later =>
          (first.1 :: later.1, later.2)

/-- A row through the layers, each with its own state. -/
def throughLayers (cell : κ → Nat → α → σ → Option (α × σ)) (position : Nat) :
    List κ → α → List σ → Option (α × List σ)
  | [], row, states => some (row, states)
  | _ :: _, _, [] => none
  | layer :: layers, row, s :: states =>
      (cell layer position row s).bind fun first =>
        (throughLayers cell position layers first.1 states).map fun later =>
          (later.1, first.2 :: later.2)

/-- All rows through one layer after another. -/
def layersThroughRows (cell : κ → Nat → α → σ → Option (α × σ)) (position : Nat) :
    List κ → List α → List σ → Option (List α × List σ)
  | [], rows, states => some (rows, states)
  | _ :: _, _, [] => none
  | layer :: layers, rows, s :: states =>
      (throughRows (cell layer) position rows s).bind fun first =>
        (layersThroughRows cell position layers first.1 states).map fun later =>
          (later.1, first.2 :: later.2)

theorem throughRows_id (position : Nat) (rows : List α) (s : σ) :
    throughRows (fun _ row s => some (row, s)) position rows s = some (rows, s) := by
  induction rows generalizing position with
  | nil => rfl
  | cons row rest ih =>
      rw [throughRows, Option.bind_some, ih]
      rfl

/-- A layer can be taken off the rows: its cells do not see the states of the others. -/
theorem throughRows_cons_layer (cell : κ → Nat → α → σ → Option (α × σ)) (layer : κ)
    (layers : List κ) (position : Nat) (rows : List α) (s : σ) (states : List σ) :
    throughRows (fun position => throughLayers cell position (layer :: layers)) position rows
        (s :: states) =
      (throughRows (cell layer) position rows s).bind fun first =>
        (throughRows (fun position => throughLayers cell position layers) position first.1
          states).map fun later => (later.1, first.2 :: later.2) := by
  induction rows generalizing position s states with
  | nil => rfl
  | cons row rest ih =>
      rw [throughRows, throughRows, throughLayers]
      cases cell layer position row s with
      | none => rfl
      | some first =>
          simp only [Option.bind_some, Option.bind_map, Function.comp_def, throughRows]
          cases throughLayers cell position layers first.1 states with
          | none =>
              -- The row fails in a later layer, whatever the rows after it do.
              cases throughRows (cell layer) (position + 1) rest first.2 with
              | none => rfl
              | some _ => rfl
          | some later =>
              simp only [Option.bind_some, ih]
              cases throughRows (cell layer) (position + 1) rest first.2 with
              | none => rfl
              | some first' =>
                  simp only [Option.bind_some, Option.map_map]
                  rfl

/-- Row by row or layer by layer. -/
theorem throughRows_throughLayers (cell : κ → Nat → α → σ → Option (α × σ)) (layers : List κ)
    (position : Nat) (rows : List α) (states : List σ) (hstates : states.length = layers.length) :
    throughRows (fun position => throughLayers cell position layers) position rows states =
      layersThroughRows cell position layers rows states := by
  induction layers generalizing rows states with
  | nil => exact throughRows_id position rows states
  | cons layer layers ih =>
      cases states with
      | nil => cases hstates
      | cons s states =>
          rw [throughRows_cons_layer, layersThroughRows]
          congr 1
          funext first
          rw [ih first.1 states (Nat.succ.inj hstates)]

/-- The part of a cell that keeps no state can be done after all rows. -/
theorem throughRows_bind (cell : Nat → α → σ → Option (β × σ)) (after : β → Option γ)
    (position : Nat) (rows : List α) (s : σ) :
    throughRows (fun position row s => (cell position row s).bind fun first =>
        (after first.1).map fun out => (out, first.2)) position rows s =
      (throughRows cell position rows s).bind fun first =>
        (first.1.mapM after).map fun outs => (outs, first.2) := by
  induction rows generalizing position s with
  | nil => rfl
  | cons row rest ih =>
      rw [throughRows, throughRows]
      cases cell position row s with
      | none => rfl
      | some first =>
          simp only [Option.bind_some, Option.bind_map, Function.comp_def, ih]
          cases hafter : after first.1 with
          | none =>
              cases throughRows cell (position + 1) rest first.2 with
              | none => rfl
              | some later => simp [hafter]
          | some out =>
              simp only [Option.bind_some]
              cases throughRows cell (position + 1) rest first.2 with
              | none => rfl
              | some later =>
                  simp only [Option.bind_some, List.mapM_cons, hafter]
                  cases later.1.mapM after with
                  | none => rfl
                  | some outs => rfl

/-- What each cell establishes of its row, the rows establish. -/
theorem throughRows_forall {cell : Nat → α → σ → Option (β × σ)} {P : β → Prop}
    (hcell : ∀ position row s out s', cell position row s = some (out, s') → P out)
    {position : Nat} {rows : List α} {s : σ} {outs : List β} {s' : σ}
    (h : throughRows cell position rows s = some (outs, s')) : ∀ out ∈ outs, P out := by
  induction rows generalizing position s outs with
  | nil =>
      cases h
      intro out hmem
      cases hmem
  | cons row rest ih =>
      rw [throughRows, Option.bind_eq_some_iff] at h
      obtain ⟨⟨first, s₁⟩, hfirst, hlater⟩ := h
      obtain ⟨⟨later, s₂⟩, hrest, heq⟩ := Option.map_eq_some_iff.1 hlater
      cases heq
      intro out hmem
      rcases List.mem_cons.1 hmem with rfl | hmem
      · exact hcell position row s out s₁ hfirst
      · exact ih hrest out hmem

/-- What each cell establishes of the state, the rows establish. -/
theorem throughRows_isSome {cell : Nat → α → σ → Option (β × σ)} {limit : Nat}
    (invariant : Nat → σ → Prop)
    (hcell : ∀ position row s, position < limit → invariant position s →
      ∃ out s', cell position row s = some (out, s') ∧ invariant (position + 1) s')
    (position : Nat) (rows : List α) (s : σ) (hlimit : position + rows.length ≤ limit)
    (hs : invariant position s) :
    ∃ outs s', throughRows cell position rows s = some (outs, s') ∧
      invariant (position + rows.length) s' := by
  induction rows generalizing position s with
  | nil => exact ⟨[], s, rfl, hs⟩
  | cons row rest ih =>
      rw [List.length_cons] at hlimit
      obtain ⟨out, s', hrow, hs'⟩ := hcell position row s (by omega) hs
      obtain ⟨outs, s'', hrest, hs''⟩ := ih (position + 1) s' (by omega) hs'
      refine ⟨out :: outs, s'', ?_, ?_⟩
      · rw [throughRows, hrow, Option.bind_some, hrest]
        rfl
      · rw [List.length_cons, Nat.add_comm rest.length, ← Nat.add_assoc]
        exact hs''

/-- What each layer establishes of its state, a row establishes of all states. -/
theorem throughLayers_isSome {cell : κ → Nat → α → σ → Option (α × σ)} {position : Nat}
    (before after : σ → Prop)
    (hcell : ∀ layer row s, before s → ∃ out s', cell layer position row s = some (out, s') ∧
      after s')
    (layers : List κ) (row : α) (states : List σ) (hlength : states.length = layers.length)
    (hstates : ∀ s ∈ states, before s) :
    ∃ out states', throughLayers cell position layers row states = some (out, states') ∧
      states'.length = layers.length ∧ ∀ s ∈ states', after s := by
  induction layers generalizing row states with
  | nil =>
      rw [List.eq_nil_of_length_eq_zero hlength]
      exact ⟨row, [], rfl, rfl, fun s hs => by cases hs⟩
  | cons layer layers ih =>
      cases states with
      | nil => cases hlength
      | cons s states =>
          obtain ⟨out, s', hfirst, hs'⟩ := hcell layer row s (hstates s List.mem_cons_self)
          obtain ⟨out', states', hlater, hlength', hstates'⟩ := ih out states
            (Nat.succ.inj hlength) (fun t ht => hstates t (List.mem_cons_of_mem s ht))
          refine ⟨out', s' :: states', ?_, ?_, ?_⟩
          · rw [throughLayers, hfirst, Option.bind_some, hlater]
            rfl
          · rw [List.length_cons, List.length_cons, hlength']
          · intro t ht
            rcases List.mem_cons.1 ht with rfl | hmem
            · exact hs'
            · exact hstates' t hmem

/-! ### The last layer -/

/-- The last layer comes behind the others. -/
theorem throughLayers_concat (cell : κ → Nat → α → σ → Option (α × σ)) (position : Nat)
    (layers : List κ) (layer : κ) (row : α) (states : List σ) (s : σ)
    (hlength : states.length = layers.length) :
    throughLayers cell position (layers ++ [layer]) row (states ++ [s]) =
      (throughLayers cell position layers row states).bind fun before =>
        (cell layer position before.1 s).map fun last => (last.1, before.2 ++ [last.2]) := by
  induction layers generalizing row states with
  | nil =>
      rw [List.eq_nil_of_length_eq_zero hlength, List.nil_append, List.nil_append, throughLayers,
        throughLayers, Option.bind_some]
      cases cell layer position row s with
      | none => rfl
      | some last => rfl
  | cons first layers ih =>
      cases states with
      | nil => cases hlength
      | cons s' states =>
          rw [List.cons_append, List.cons_append, throughLayers, throughLayers]
          cases cell first position row s' with
          | none => rfl
          | some out =>
              simp only [Option.bind_some]
              rw [ih out.1 states (Nat.succ.inj hlength)]
              cases throughLayers cell position layers out.1 states with
              | none => rfl
              | some before =>
                  simp only [Option.bind_some, Option.map_some, Option.map_map]
                  rfl

theorem layersThroughRows_concat (cell : κ → Nat → α → σ → Option (α × σ)) (position : Nat)
    (layers : List κ) (layer : κ) (rows : List α) (states : List σ) (s : σ)
    (hlength : states.length = layers.length) :
    layersThroughRows cell position (layers ++ [layer]) rows (states ++ [s]) =
      (layersThroughRows cell position layers rows states).bind fun before =>
        (throughRows (cell layer) position before.1 s).map fun last =>
          (last.1, before.2 ++ [last.2]) := by
  induction layers generalizing rows states with
  | nil =>
      rw [List.eq_nil_of_length_eq_zero hlength, List.nil_append, List.nil_append,
        layersThroughRows, layersThroughRows, Option.bind_some]
      cases throughRows (cell layer) position rows s with
      | none => rfl
      | some last => rfl
  | cons first layers ih =>
      cases states with
      | nil => cases hlength
      | cons s' states =>
          rw [List.cons_append, List.cons_append, layersThroughRows, layersThroughRows]
          cases throughRows (cell first) position rows s' with
          | none => rfl
          | some out =>
              simp only [Option.bind_some]
              rw [ih out.1 states (Nat.succ.inj hlength)]
              cases layersThroughRows cell position layers out.1 states with
              | none => rfl
              | some before =>
                  simp only [Option.bind_some, Option.map_some, Option.map_map]
                  rfl

/-- What each layer keeps of its row, the layers keep. -/
theorem throughLayers_forall {cell : κ → Nat → α → σ → Option (α × σ)} {position : Nat}
    {P : α → Prop} {layers : List κ} (hcell : ∀ layer ∈ layers, ∀ row s out s', P row →
      cell layer position row s = some (out, s') → P out) {row : α} {states : List σ} {out : α}
    {after : List σ} (h : throughLayers cell position layers row states = some (out, after))
    (hrow : P row) : P out := by
  induction layers generalizing row states after with
  | nil =>
      cases h
      exact hrow
  | cons layer layers ih =>
      cases states with
      | nil => cases h
      | cons s states =>
          rw [throughLayers, Option.bind_eq_some_iff] at h
          obtain ⟨first, hfirst, hrest⟩ := h
          obtain ⟨later, hlater, heq⟩ := Option.map_eq_some_iff.1 hrest
          cases heq
          exact ih (fun layer hlayer => hcell layer (List.mem_cons_of_mem _ hlayer)) hlater
            (hcell layer List.mem_cons_self row s first.1 first.2 hrow hfirst)

end VBuf.Lib
