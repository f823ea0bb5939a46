import VBuf.Lib.PairMerge

/-!
# Runs of merges

A scan for the least pair, the lists that a reduction passes through, and reductions
that follow each other: under another rank, under a map, and cut into segments.
-/

namespace VBuf.Lib

variable {α β : Type*} {rank : α → α → Option Nat} {join : α → α → Option α}

/-! ### Scans -/

/-- A scan for a strictly smaller key, from a position and a limit that no key
reaches. -/
def scanMin (key : Nat → Option Nat) (absent limit bound : Nat) : Nat × Nat :=
  (List.range bound).foldl (fun best position =>
    match key position with
    | some r => if r < best.2 then (position, r) else best
    | none => best) (absent, limit)

/-- The scan finds the leftmost least position. -/
theorem scanMin_eq {key : Nat → Option Nat} {absent limit : Nat}
    (hkey : ∀ position r, key position = some r → r < limit) (bound : Nat) :
    scanMin key absent limit bound = (leftmostMin key bound).getD (absent, limit) := by
  unfold scanMin
  induction bound with
  | zero => rfl
  | succ bound ih =>
      rw [List.range_succ, List.foldl_append, ih, List.foldl_cons, List.foldl_nil,
        leftmostMin_succ]
      cases hlast : key bound with
      | none => rfl
      | some r =>
          cases leftmostMin key bound with
          | none =>
              simp only [Option.getD_none]
              rw [if_pos (hkey bound r hlast)]
              rfl
          | some b =>
              simp only [Option.getD_some]
              split
              · rfl
              · rfl

/-- The position that a scan over the pairs of a list finds, unless none has a rank. -/
theorem scanMin_position {key : Nat → Option Nat} {limit length : Nat}
    (hkey : ∀ position r, key position = some r → r < limit) :
    (if (scanMin key length limit (length - 1)).1 = length then none
      else some (scanMin key length limit (length - 1)).1) =
      (leftmostMin key (length - 1)).map Prod.fst := by
  rw [scanMin_eq hkey]
  cases hmin : leftmostMin key (length - 1) with
  | none => rw [Option.getD_none, if_pos rfl, Option.map_none]
  | some b =>
      have hlt := (((leftmostMin_spec _ _).2 b.1 b.2).1 hmin).lt
      rw [Option.getD_some, if_neg (by omega), Option.map_some]

/-- The leftmost least position of coarser keys, when no earlier key ties with it. -/
theorem IsLeftmostMin.map {key : Nat → Option Nat} {bound position r : Nat} {g : Nat → Nat}
    (h : IsLeftmostMin key bound position r) (hmono : ∀ s, r ≤ s → g r ≤ g s)
    (hties : ∀ p s, p < position → key p = some s → g r ≠ g s) :
    IsLeftmostMin (fun p => (key p).map g) bound position (g r) := by
  refine ⟨h.lt, by simp only [h.key_eq, Option.map_some], ?_, ?_⟩
  · intro p s hp hs
    obtain ⟨s', hs', rfl⟩ := Option.map_eq_some_iff.1 hs
    exact hmono s' (h.least p s' hp hs')
  · intro p s hp hs
    obtain ⟨s', hs', rfl⟩ := Option.map_eq_some_iff.1 hs
    have hle := hmono s' (h.least p s' (Nat.lt_trans hp h.lt) hs')
    exact Nat.lt_of_le_of_ne hle (hties p s' hp hs')

/-! ### The lists of a reduction -/

/-- A list that merging passes through. -/
inductive Passes (rank : α → α → Option Nat) (join : α → α → Option α) (l : List α) :
    List α → Prop
  | start : Passes rank join l l
  | step {s : List α} {position : Nat} {merged : α} (h : Passes rank join l s)
      (hpair : MergesPair rank join s position merged) :
      Passes rank join l (mergeAt s position merged)

theorem Passes.head {l s : List α} {position : Nat} {merged : α}
    (hpair : MergesPair rank join l position merged)
    (h : Passes rank join (mergeAt l position merged) s) : Passes rank join l s := by
  induction h with
  | start => exact .step .start hpair
  | step _ hnext ih => exact .step ih hnext

theorem Passes.length_le {l s : List α} (h : Passes rank join l s) : s.length ≤ l.length := by
  induction h with
  | start => exact Nat.le_refl l.length
  | step _ hpair ih =>
      have hlength := length_mergeAt hpair.lt
      exact Nat.le_trans (Nat.le_of_succ_le (Nat.le_of_eq (hlength _))) ih

/-- A reduction under another rank that makes the same merge in every list passed
through. -/
theorem Reduces.congr_rank {rank' : α → α → Option Nat} {l out : List α}
    (h : Reduces rank join l out) (hreduced : ∀ s, Reduced rank s → Reduced rank' s)
    (hpairs : ∀ s, Passes rank' join l s → ∀ position merged,
      MergesPair rank join s position merged → MergesPair rank' join s position merged) :
    Reduces rank' join l out := by
  induction h with
  | done hdone => exact .done (hreduced _ hdone)
  | step hpair _ ih =>
      have hpair' := hpairs _ .start _ _ hpair
      exact .step hpair' (ih (fun s hs => hpairs s (hs.head hpair')))

/-! ### Coarser ranks -/

/-- No pair left of the least one has the same coarser rank. -/
def TieFree (rank : α → α → Option Nat) (g : Nat → Nat) (l : List α) : Prop :=
  ∀ position r, IsLeftmostMin (pairRank rank l) (l.length - 1) position r →
    ∀ p s, p < position → pairRank rank l p = some s → g r ≠ g s

/-- The lists that merging passes through: the first one, and those from the next one on. -/
theorem Passes.eq_or_next {l s : List α} (position r : Nat) {a b merged : α}
    (hleast : leftmostMin (pairRank rank l) (l.length - 1) = some (position, r))
    (hleft : l[position]? = some a) (hright : l[position + 1]? = some b)
    (hjoin : join a b = some merged) (h : Passes rank join l s) :
    s = l ∨ Passes rank join (mergeAt l position merged) s := by
  have hmin := ((leftmostMin_spec _ _).2 position r).1 hleast
  induction h with
  | start => exact Or.inl rfl
  | step _ hpair ih =>
      rcases ih with rfl | hnext
      · obtain ⟨⟨_, hmin'⟩, a', b', hleft', hright', hjoin'⟩ := hpair
        obtain ⟨rfl, -⟩ := hmin.unique hmin'
        cases hleft.symm.trans hleft'
        cases hright.symm.trans hright'
        cases hjoin.symm.trans hjoin'
        exact Or.inr .start
      · exact Or.inr (.step hnext hpair)

/-- Merging ends at a list without a pair. -/
theorem Passes.eq_of_none {l s : List α}
    (hnone : leftmostMin (pairRank rank l) (l.length - 1) = none) (h : Passes rank join l s) :
    s = l := by
  induction h with
  | start => rfl
  | step _ hpair ih =>
      subst ih
      obtain ⟨r, hmin⟩ := hpair.least
      cases hnone.symm.trans (((leftmostMin_spec _ _).2 _ r).2 hmin)

/-- A list is free of ties when the pairs left of its least one are. -/
theorem tieFree_of_leftmostMin {g : Nat → Nat} {l : List α}
    (h : ∀ least ∈ leftmostMin (pairRank rank l) (l.length - 1), ∀ p < least.1,
      ∀ s ∈ pairRank rank l p, g least.2 ≠ g s) : TieFree rank g l := by
  intro position r hmin p s hp hs
  exact h (position, r) (((leftmostMin_spec _ _).2 position r).2 hmin) p hp s hs

/-- The least pair of a list under one rank is the least one under another. -/
def LeastAlike (rank rank' : α → α → Option Nat) (l : List α) : Prop :=
  ∀ position r, IsLeftmostMin (pairRank rank l) (l.length - 1) position r →
    ∃ r', IsLeftmostMin (pairRank rank' l) (l.length - 1) position r'

theorem pairRank_coarser (g : Nat → Nat) (l : List α) :
    pairRank (fun a b => (rank a b).map g) l = fun position => (pairRank rank l position).map g := by
  funext position
  unfold pairRank
  cases l[position]? with
  | none => rfl
  | some a =>
      cases l[position + 1]? with
      | none => rfl
      | some b => rfl

theorem exists_isLeftmostMin {key : Nat → Option Nat} {bound position s : Nat}
    (hlt : position < bound) (hkey : key position = some s) :
    ∃ p r, IsLeftmostMin key bound p r := by
  cases hmin : leftmostMin key bound with
  | none =>
      rw [(leftmostMin_spec key bound).1.1 hmin position hlt] at hkey
      cases hkey
  | some found => exact ⟨found.1, found.2, ((leftmostMin_spec key bound).2 _ _).1 hmin⟩

/-- A list is free of ties exactly when its least pair stays the least one. -/
theorem tieFree_iff {g : Nat → Nat} (hmono : Monotone g) (l : List α) :
    TieFree rank g l ↔ LeastAlike (fun a b => (rank a b).map g) rank l := by
  constructor
  · intro hties position r' hleast
    rw [pairRank_coarser] at hleast
    obtain ⟨s, hs, -⟩ := Option.map_eq_some_iff.1 hleast.key_eq
    obtain ⟨p, r, hp⟩ := exists_isLeftmostMin hleast.lt hs
    have hcoarser := hp.map (fun s hs => hmono hs) (hties p r hp)
    obtain ⟨rfl, -⟩ := hleast.unique hcoarser
    exact ⟨r, hp⟩
  · intro halike position r hleast p s hp hs heq
    -- the coarser least pair is the least one, which the tie would be left of
    have hkey : ((pairRank rank l position).map g) = some (g r) := by
      rw [hleast.key_eq, Option.map_some]
    have htie : ((pairRank rank l p).map g) = some (g r) := by
      rw [hs, Option.map_some, heq]
    obtain ⟨p', r', hmin⟩ := @exists_isLeftmostMin (fun position => (pairRank rank l position).map g)
      _ _ _ hleast.lt hkey
    obtain ⟨r'', hmin'⟩ := halike p' r' (by rwa [pairRank_coarser])
    obtain ⟨rfl, rfl⟩ := hleast.unique hmin'
    have hlt := hmin.leftmost p (g r) hp htie
    have hsame := hmin.key_eq
    rw [hleast.key_eq, Option.map_some, Option.some.injEq] at hsame
    omega

/-- Merging by a coarser rank makes the merges of the finer one exactly when the lists
that the finer one passes through are free of ties. -/
theorem passes_tieFree_iff {g : Nat → Nat} (hmono : Monotone g) (l : List α) :
    (∀ s, Passes (fun a b => (rank a b).map g) join l s →
        LeastAlike (fun a b => (rank a b).map g) rank s) ↔
      ∀ s, Passes rank join l s → TieFree rank g s := by
  constructor
  · intro halike s hs
    have hpasses : Passes (fun a b => (rank a b).map g) join l s := by
      induction hs with
      | start => exact .start
      | @step s position merged _ hpair ih =>
          obtain ⟨r, hleast⟩ := hpair.least
          have hcoarser := hleast.map (fun s hs => hmono hs)
            ((tieFree_iff hmono s).2 (halike s ih) position r hleast)
          exact .step ih ⟨⟨g r, by rwa [pairRank_coarser]⟩, hpair.joined⟩
    exact (tieFree_iff hmono s).2 (halike s hpasses)
  · intro hties s hs
    have hpasses : Passes rank join l s := by
      induction hs with
      | start => exact .start
      | @step s position merged _ hpair ih =>
          obtain ⟨r, hleast⟩ := hpair.least
          exact .step ih ⟨(tieFree_iff hmono s).1 (hties s ih) position r hleast, hpair.joined⟩
    exact (tieFree_iff hmono s).1 (hties s hpasses)

/-- A reduction by a coarser rank that meets no ties is one by the finer rank. -/
theorem Reduces.of_coarser {g : Nat → Nat} (hmono : Monotone g) {l out : List α}
    (h : Reduces (fun a b => (rank a b).map g) join l out)
    (hties : ∀ s, Passes rank join l s → TieFree rank g s) : Reduces rank join l out := by
  refine h.congr_rank ?_ ?_
  · intro s hs position hposition
    have hnone := hs position hposition
    rw [pairRank_coarser] at hnone
    exact Option.map_eq_none_iff.1 hnone
  · intro s hs position merged hpair
    obtain ⟨r, hleast⟩ := hpair.least
    exact ⟨(tieFree_iff hmono s).1 (hties s hs) position r hleast, hpair.joined⟩

/-! ### Maps -/

theorem pairRank_map (f : β → α) (l : List β) (position : Nat) :
    pairRank rank (l.map f) position = pairRank (fun a b => rank (f a) (f b)) l position := by
  unfold pairRank
  rw [List.getElem?_map, List.getElem?_map]
  cases l[position]? with
  | none => rfl
  | some a =>
      cases l[position + 1]? with
      | none => rfl
      | some b => rfl

theorem mergeAt_map (f : β → α) (l : List β) (position : Nat) (merged : β) :
    mergeAt (l.map f) position (f merged) = (mergeAt l position merged).map f := by
  simp [mergeAt]

theorem pairRank_congr {rank' : α → α → Option Nat} {l : List α}
    (h : ∀ a ∈ l, ∀ b ∈ l, rank a b = rank' a b) (position : Nat) :
    pairRank rank l position = pairRank rank' l position := by
  unfold pairRank
  cases ha : l[position]? with
  | none => rfl
  | some a =>
      cases hb : l[position + 1]? with
      | none => rfl
      | some b => exact h a (List.mem_of_getElem? ha) b (List.mem_of_getElem? hb)

/-- No pair with the item has a rank. -/
def Stuck (rank : α → α → Option Nat) (item : α) : Prop :=
  ∀ other, rank item other = none ∧ rank other item = none

/-- A merge leaves a stuck item where it is. -/
theorem Stuck.mem_mergeAt {l : List α} {item : α} {position : Nat} {merged : α}
    (h : Stuck rank item) (hmem : item ∈ l) (hpair : MergesPair rank join l position merged) :
    item ∈ mergeAt l position merged := by
  obtain ⟨r, hleast⟩ := hpair.least
  obtain ⟨a, b, ha, hb, -⟩ := hpair.joined
  have hrank : rank a b = some r := by
    have hkey := hleast.key_eq
    unfold pairRank at hkey
    rw [ha, hb] at hkey
    exact hkey
  obtain ⟨i, hi⟩ := List.mem_iff_getElem?.1 hmem
  have hne : i ≠ position := by
    rintro rfl
    rw [ha] at hi
    rw [Option.some.inj hi, (h b).1] at hrank
    cases hrank
  have hne' : i ≠ position + 1 := by
    rintro rfl
    rw [hb] at hi
    rw [Option.some.inj hi, (h a).2] at hrank
    cases hrank
  rw [mergeAt, List.mem_append, List.mem_cons]
  rcases Nat.lt_or_ge i position with hlt | hge
  · left
    refine List.mem_of_getElem? (i := i) ?_
    rw [List.getElem?_take_of_lt hlt, hi]
  · right
    right
    refine List.mem_of_getElem? (i := i - (position + 2)) ?_
    rw [List.getElem?_drop, Nat.add_sub_cancel' (by omega), hi]

theorem Stuck.mem {l out : List α} {item : α} (h : Stuck rank item)
    (hreduces : Reduces rank join l out) (hmem : item ∈ l) : item ∈ out := by
  induction hreduces with
  | done _ => exact hmem
  | step hpair _ ih => exact ih (h.mem_mergeAt hmem hpair)

/-- A reduction of images is one of the items, when every merge of images is the image
of a merge or is lost, what is lost is stuck, and nothing lost is left. -/
theorem Reduces.of_map {rank' : β → β → Option Nat} {join' : β → β → Option β} {f : β → α}
    {Good : β → Prop} {Lost : α → Prop} (hlost : ∀ c, Lost c → Stuck rank c)
    (hrank : ∀ a b, Good a → Good b → rank (f a) (f b) = rank' a b)
    (hjoin : ∀ a b c, Good a → Good b → join (f a) (f b) = some c →
      (∃ c', join' a b = some c' ∧ f c' = c ∧ Good c') ∨ Lost c)
    {s out : List α} (h : Reduces rank join s out) {l : List β} (hs : s = l.map f)
    (hgood : ∀ a ∈ l, Good a) (hout : ∀ c ∈ out, ¬ Lost c) :
    ∃ out', out = out'.map f ∧ Reduces rank' join' l out' := by
  induction h generalizing l with
  | done hreduced =>
      subst hs
      refine ⟨l, rfl, .done ?_⟩
      intro position hposition
      rw [← pairRank_congr (fun a ha b hb => hrank a b (hgood a ha) (hgood b hb)),
        ← pairRank_map]
      exact hreduced position (by rwa [List.length_map])
  | @step s out position merged hpair hrest ih =>
      subst hs
      obtain ⟨r, hleast⟩ := hpair.least
      obtain ⟨a, b, ha, hb, hmerged⟩ := hpair.joined
      rw [List.getElem?_map, Option.map_eq_some_iff] at ha hb
      obtain ⟨a, ha, rfl⟩ := ha
      obtain ⟨b, hb, rfl⟩ := hb
      have hgoodA := hgood a (List.mem_of_getElem? ha)
      have hgoodB := hgood b (List.mem_of_getElem? hb)
      rcases hjoin a b merged hgoodA hgoodB hmerged with ⟨c, hc, rfl, hgoodC⟩ | hgone
      · have hkeys : pairRank rank (l.map f) = pairRank rank' l := by
          funext p
          rw [pairRank_map]
          exact pairRank_congr (fun a ha b hb => hrank a b (hgood a ha) (hgood b hb)) p
        rw [hkeys, List.length_map] at hleast
        obtain ⟨out', hout', hreduces⟩ := ih (mergeAt_map f l position c)
          (by
            intro d hd
            rw [mergeAt, List.mem_append, List.mem_cons] at hd
            rcases hd with hd | rfl | hd
            · exact hgood d (List.mem_of_mem_take hd)
            · exact hgoodC
            · exact hgood d (List.mem_of_mem_drop hd)) hout
        exact ⟨out', hout', .step ⟨⟨r, hleast⟩, a, b, ha, hb, hc⟩ hreduces⟩
      · -- a stuck item would be left
        refine absurd hgone (hout merged ((hlost merged hgone).mem hrest ?_))
        rw [mergeAt, List.mem_append]
        exact Or.inr List.mem_cons_self

/-! ### Segments of what was merged -/

/-- Merging by concatenation keeps the items together in segments. -/
theorem Reduces.exists_segments {γ : Type*} {rank : List γ → List γ → Option Nat}
    {join : List γ → List γ → Option (List γ)}
    (hjoin : ∀ a b c, join a b = some c → c = a ++ b) {g : β → List γ} {l out : List (List γ)}
    (h : Reduces rank join l out) {segments : List (List β)}
    (hl : l = segments.map (fun segment => segment.flatMap g)) :
    ∃ segments' : List (List β), segments'.flatten = segments.flatten ∧
      out = segments'.map (fun segment => segment.flatMap g) := by
  induction h generalizing segments with
  | done _ => exact ⟨segments, rfl, hl⟩
  | @step l out position merged hpair _ ih =>
      subst hl
      have hlt := hpair.lt
      rw [List.length_map] at hlt
      obtain ⟨a, b, ha, hb, hmerged⟩ := hpair.joined
      rw [List.getElem?_map, Option.map_eq_some_iff] at ha hb
      obtain ⟨a, ha, rfl⟩ := ha
      obtain ⟨b, hb, rfl⟩ := hb
      rw [hjoin _ _ _ hmerged, ← List.flatMap_append] at ih
      obtain ⟨segments', hflatten, hout⟩ := ih
        (mergeAt_map (fun segment : List β => segment.flatMap g) segments position (a ++ b))
      refine ⟨segments', hflatten.trans ?_, hout⟩
      have hdrop : segments.drop position = a :: b :: segments.drop (position + 2) := by
        rw [List.drop_eq_getElem_cons (by omega), List.drop_eq_getElem_cons hlt]
        rw [List.getElem?_eq_getElem (by omega), Option.some.injEq] at ha hb
        rw [ha, hb]
      rw [mergeAt]
      conv_rhs => rw [← List.take_append_drop position segments, hdrop]
      simp

end VBuf.Lib
