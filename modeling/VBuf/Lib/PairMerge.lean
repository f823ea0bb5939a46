import Mathlib.Algebra.BigOperators.Group.List.Basic
import Mathlib.Algebra.Order.Group.Nat
import Mathlib.Algebra.Ring.Nat
import Mathlib.Data.List.Forall2

/-!
# Merging adjacent pairs

A list is reduced by merging, again and again, the leftmost of its adjacent pairs
of least rank.  Cut into segments, it is reduced segment by segment exactly when
no merge ever joins two of them; over weights that merging adds up, the weights of
the segments of the result tell whether one did.
-/

namespace VBuf.Lib

variable {α : Type*} {rank : α → α → Option Nat} {join : α → α → Option α}

/-! ### The least pair -/

/-- The first position below a bound of a least key. -/
def leftmostMin (key : Nat → Option Nat) (bound : Nat) : Option (Nat × Nat) :=
  (List.range bound).foldl (fun best position =>
    match key position with
    | none => best
    | some r =>
        match best with
        | none => some (position, r)
        | some b => if r < b.2 then some (position, r) else some b) none

/-- What a leftmost least position is. -/
structure IsLeftmostMin (key : Nat → Option Nat) (bound position r : Nat) : Prop where
  lt : position < bound
  key_eq : key position = some r
  least : ∀ p s, p < bound → key p = some s → r ≤ s
  leftmost : ∀ p s, p < position → key p = some s → r < s

theorem IsLeftmostMin.unique {key : Nat → Option Nat} {bound p r p' r' : Nat}
    (h : IsLeftmostMin key bound p r) (h' : IsLeftmostMin key bound p' r') : p = p' ∧ r = r' := by
  have hle := h.least p' r' h'.lt h'.key_eq
  have hle' := h'.least p r h.lt h.key_eq
  refine ⟨?_, Nat.le_antisymm hle hle'⟩
  rcases Nat.lt_trichotomy p p' with hlt | heq | hgt
  · exact absurd (h'.leftmost p r hlt h.key_eq) (by omega)
  · exact heq
  · exact absurd (h.leftmost p' r' hgt h'.key_eq) (by omega)

theorem leftmostMin_succ (key : Nat → Option Nat) (bound : Nat) :
    leftmostMin key (bound + 1) =
      match key bound with
      | none => leftmostMin key bound
      | some r =>
          match leftmostMin key bound with
          | none => some (bound, r)
          | some b => if r < b.2 then some (bound, r) else some b := by
  rw [leftmostMin, List.range_succ, List.foldl_append, List.foldl_cons, List.foldl_nil]
  rfl

/-- One more position keeps the least one, unless its key is less. -/
theorem IsLeftmostMin.succ {key : Nat → Option Nat} {bound position r : Nat}
    (h : IsLeftmostMin key bound position r) (hlast : ∀ s, key bound = some s → r ≤ s) :
    IsLeftmostMin key (bound + 1) position r := by
  refine ⟨Nat.lt_succ_of_lt h.lt, h.key_eq, ?_, h.leftmost⟩
  intro p s hp hs
  rcases Nat.lt_succ_iff_lt_or_eq.1 hp with hlt | rfl
  · exact h.least p s hlt hs
  · exact hlast s hs

/-- The last position is the least one when its key is less than all before. -/
theorem isLeftmostMin_last {key : Nat → Option Nat} {bound r : Nat} (hkey : key bound = some r)
    (hbefore : ∀ p s, p < bound → key p = some s → r < s) :
    IsLeftmostMin key (bound + 1) bound r := by
  refine ⟨Nat.lt_succ_self bound, hkey, ?_, hbefore⟩
  intro p s hp hs
  rcases Nat.lt_succ_iff_lt_or_eq.1 hp with hlt | rfl
  · exact Nat.le_of_lt (hbefore p s hlt hs)
  · rw [hkey] at hs
    exact Nat.le_of_eq (Option.some.inj hs)

/-- The fold finds a leftmost least position, or there is no key. -/
theorem leftmostMin_sound (key : Nat → Option Nat) (bound : Nat) :
    (leftmostMin key bound = none → ∀ p, p < bound → key p = none) ∧
      ∀ position r, leftmostMin key bound = some (position, r) →
        IsLeftmostMin key bound position r := by
  induction bound with
  | zero =>
      refine ⟨fun _ p hp => absurd hp (Nat.not_lt_zero p), ?_⟩
      intro position r h
      cases h
  | succ bound ih =>
      obtain ⟨hnone, hsome⟩ := ih
      rw [leftmostMin_succ]
      cases hkey : key bound with
      | none =>
          refine ⟨?_, ?_⟩
          · intro h p hp
            rcases Nat.lt_succ_iff_lt_or_eq.1 hp with hlt | rfl
            · exact hnone h p hlt
            · exact hkey
          · intro position r h
            refine (hsome position r h).succ ?_
            intro s hs
            rw [hkey] at hs
            cases hs
      | some last =>
          cases hbest : leftmostMin key bound with
          | none =>
              refine ⟨fun h => (by cases h), ?_⟩
              intro position r h
              cases h
              refine isLeftmostMin_last hkey ?_
              intro p s hp hs
              rw [hnone hbest p hp] at hs
              cases hs
          | some b =>
              have hbefore := hsome b.1 b.2 hbest
              refine ⟨fun h => (by
                simp only at h
                split at h <;> cases h), ?_⟩
              intro position r h
              simp only at h
              split at h
              next hlt =>
                  cases h
                  refine isLeftmostMin_last hkey ?_
                  intro p s hp hs
                  exact Nat.lt_of_lt_of_le hlt (hbefore.least p s hp hs)
              next hle =>
                  -- An equal key is further right, so the earlier position stays.
                  cases h
                  refine hbefore.succ ?_
                  intro s hs
                  rw [hkey] at hs
                  rw [← Option.some.inj hs]
                  exact Nat.le_of_not_lt hle

theorem leftmostMin_spec (key : Nat → Option Nat) (bound : Nat) :
    (leftmostMin key bound = none ↔ ∀ p, p < bound → key p = none) ∧
      ∀ position r, leftmostMin key bound = some (position, r) ↔
        IsLeftmostMin key bound position r := by
  obtain ⟨hnone, hsome⟩ := leftmostMin_sound key bound
  refine ⟨⟨hnone, ?_⟩, fun position r => ⟨hsome position r, ?_⟩⟩
  · intro hempty
    cases hmin : leftmostMin key bound with
    | none => rfl
    | some b =>
        have hb := hsome b.1 b.2 hmin
        have hkey := hb.key_eq
        rw [hempty b.1 hb.lt] at hkey
        cases hkey
  · intro hmin
    cases hfound : leftmostMin key bound with
    | none =>
        have hkey := hmin.key_eq
        rw [hnone hfound position hmin.lt] at hkey
        cases hkey
    | some b =>
        obtain ⟨hp, hr⟩ := (hsome b.1 b.2 hfound).unique hmin
        rw [← hp, ← hr]

/-! ### Reduction -/

/-- The rank of the pair at a position. -/
def pairRank (rank : α → α → Option Nat) (l : List α) (position : Nat) : Option Nat :=
  match l[position]?, l[position + 1]? with
  | some a, some b => rank a b
  | _, _ => none

/-- The list after the pair at a position is merged. -/
def mergeAt (l : List α) (position : Nat) (merged : α) : List α :=
  l.take position ++ merged :: l.drop (position + 2)

/-- A merge of the pair at a position. -/
structure MergesPair (rank : α → α → Option Nat) (join : α → α → Option α) (l : List α)
    (position : Nat) (merged : α) : Prop where
  least : ∃ r, IsLeftmostMin (pairRank rank l) (l.length - 1) position r
  joined : ∃ a b, l[position]? = some a ∧ l[position + 1]? = some b ∧ join a b = some merged

/-- No pair of the list has a rank. -/
def Reduced (rank : α → α → Option Nat) (l : List α) : Prop :=
  ∀ position, position < l.length - 1 → pairRank rank l position = none

/-- The merges of a list, up to where no pair has a rank. -/
inductive Reduces (rank : α → α → Option Nat) (join : α → α → Option α) : List α → List α → Prop
  | done {l : List α} (h : Reduced rank l) : Reduces rank join l l
  | step {l out : List α} {position : Nat} {merged : α}
      (hpair : MergesPair rank join l position merged)
      (hrest : Reduces rank join (mergeAt l position merged) out) : Reduces rank join l out

theorem MergesPair.lt {l : List α} {position : Nat} {merged : α}
    (h : MergesPair rank join l position merged) : position + 1 < l.length := by
  obtain ⟨a, b, _, hb, _⟩ := h.joined
  exact (List.getElem?_eq_some_iff.1 hb).1

theorem MergesPair.unique {l : List α} {p p' : Nat} {m m' : α}
    (h : MergesPair rank join l p m) (h' : MergesPair rank join l p' m') : p = p' ∧ m = m' := by
  obtain ⟨r, hr⟩ := h.least
  obtain ⟨r', hr'⟩ := h'.least
  obtain ⟨rfl, _⟩ := hr.unique hr'
  obtain ⟨a, b, ha, hb, hm⟩ := h.joined
  obtain ⟨a', b', ha', hb', hm'⟩ := h'.joined
  rw [ha, Option.some.injEq] at ha'
  rw [hb, Option.some.injEq] at hb'
  subst ha' hb'
  rw [hm, Option.some.injEq] at hm'
  exact ⟨rfl, hm'⟩

theorem MergesPair.not_reduced {l : List α} {p : Nat} {m : α}
    (h : MergesPair rank join l p m) : ¬ Reduced rank l := by
  intro hreduced
  obtain ⟨r, hr⟩ := h.least
  have hkey := hr.key_eq
  rw [hreduced p hr.lt] at hkey
  cases hkey

/-- A list reduces to one list. -/
theorem Reduces.unique {l out out' : List α} (h : Reduces rank join l out)
    (h' : Reduces rank join l out') : out = out' := by
  induction h with
  | done hreduced =>
      cases h' with
      | done _ => rfl
      | step hpair _ => exact absurd hreduced hpair.not_reduced
  | step hpair _ ih =>
      cases h' with
      | done hreduced => exact absurd hreduced hpair.not_reduced
      | step hpair' hrest' =>
          obtain ⟨rfl, rfl⟩ := hpair.unique hpair'
          exact ih hrest'

/-- What a list reduces to has no pair to merge. -/
theorem Reduces.reduced {l out : List α} (h : Reduces rank join l out) : Reduced rank out := by
  induction h with
  | done hreduced => exact hreduced
  | step _ _ ih => exact ih

/-- A property of the items, and of every merge, holds of the items of what a list
reduces to. -/
theorem Reduces.forall_mem {P : α → Prop} (hjoin : ∀ a b c, join a b = some c → P c) {l out : List α}
    (h : Reduces rank join l out) (hl : ∀ a ∈ l, P a) : ∀ a ∈ out, P a := by
  induction h with
  | done _ => exact hl
  | @step l out position merged hpair _ ih =>
      obtain ⟨a, b, _, _, hm⟩ := hpair.joined
      apply ih
      intro c hc
      rw [mergeAt, List.mem_append, List.mem_cons] at hc
      rcases hc with hfront | rfl | hback
      · exact hl c (List.mem_of_mem_take hfront)
      · exact hjoin a b c hm
      · exact hl c (List.mem_of_mem_drop hback)

/-- Reduction keeps the concatenation of contents that merging concatenates. -/
theorem Reduces.flatMap_eq {β : Type*} {content : α → List β}
    (hjoin : ∀ a b c, join a b = some c → content c = content a ++ content b) {l out : List α}
    (h : Reduces rank join l out) : out.flatMap content = l.flatMap content := by
  induction h with
  | done _ => rfl
  | @step l out position merged hpair _ ih =>
      obtain ⟨a, b, ha, hb, hm⟩ := hpair.joined
      have hlt := hpair.lt
      have hdrop : l.drop position = a :: b :: l.drop (position + 2) := by
        rw [List.drop_eq_getElem_cons (by omega), List.drop_eq_getElem_cons hlt]
        rw [List.getElem?_eq_getElem (by omega), Option.some.injEq] at ha hb
        rw [ha, hb]
      rw [ih, mergeAt]
      conv_rhs => rw [← List.take_append_drop position l, hdrop]
      simp [hjoin a b merged hm]

theorem length_mergeAt {l : List α} {position : Nat} (h : position + 1 < l.length) (merged : α) :
    (mergeAt l position merged).length + 1 = l.length := by
  rw [mergeAt, List.length_append, List.length_take, List.length_cons, List.length_drop]
  omega

/-- The loop that merges while there is more than one item; `absent` is the error of a
position of the list whose merge has no result. -/
def mergeLoop {ε : Type*} (best : List α → Option Nat) (join : α → α → Option α)
    (absent : List α → Nat → ε) :
    Nat → List α → Except ε (List α)
  | 0, l => .ok l
  | fuel + 1, l =>
      if l.length ≤ 1 then .ok l
      else
        match best l with
        | none => .ok l
        | some position =>
            match l[position]?, l[position + 1]? with
            | some a, some b =>
                match join a b with
                | some merged => mergeLoop best join absent fuel (mergeAt l position merged)
                | none => .error (absent l position)
            | _, _ => .error (absent l position)

theorem reduced_iff (l : List α) :
    Reduced rank l ↔ leftmostMin (pairRank rank l) (l.length - 1) = none :=
  (leftmostMin_spec (pairRank rank l) (l.length - 1)).1.symm

/-- The loop reduces the list, and the length of the list is fuel enough. -/
theorem mergeLoop_eq_ok_iff {ε : Type*} {best : List α → Option Nat}
    {absent : List α → Nat → ε}
    (hbest : ∀ l, best l = (leftmostMin (pairRank rank l) (l.length - 1)).map Prod.fst)
    (fuel : Nat) (l out : List α) (hfuel : l.length ≤ fuel + 1) :
    mergeLoop best join absent fuel l = .ok out ↔ Reduces rank join l out := by
  have hdone : ∀ {l}, Reduced rank l → (Reduces rank join l out ↔ l = out) := by
    intro l hreduced
    constructor
    · exact fun h => (Reduces.done hreduced).unique h
    · rintro rfl
      exact Reduces.done hreduced
  have hok : ∀ {l}, (Except.ok l : Except ε (List α)) = .ok out ↔ l = out := by
    intro l
    rw [Except.ok.injEq]
  induction fuel generalizing l with
  | zero =>
      rw [mergeLoop, hok, hdone]
      intro position hposition
      omega
  | succ fuel ih =>
      rw [mergeLoop]
      split
      next hshort =>
          rw [hok, hdone]
          intro position hposition
          omega
      next hlong =>
          rw [hbest]
          cases hmin : leftmostMin (pairRank rank l) (l.length - 1) with
          | none =>
              simp only [Option.map_none]
              rw [hok, hdone ((reduced_iff l).2 hmin)]
          | some found =>
              have hleast := ((leftmostMin_spec _ _).2 found.1 found.2).1 hmin
              have hlt := hleast.lt
              obtain ⟨a, ha⟩ : ∃ a, l[found.1]? = some a :=
                ⟨_, List.getElem?_eq_getElem (by omega)⟩
              obtain ⟨b, hb⟩ : ∃ b, l[found.1 + 1]? = some b :=
                ⟨_, List.getElem?_eq_getElem (by omega)⟩
              simp only [Option.map_some, ha, hb]
              have hpair : ∀ {position merged}, MergesPair rank join l position merged →
                  position = found.1 ∧ join a b = some merged := by
                intro position merged h
                obtain ⟨r, hr⟩ := h.least
                obtain ⟨rfl, _⟩ := hr.unique hleast
                obtain ⟨a', b', ha', hb', hm⟩ := h.joined
                rw [ha, Option.some.injEq] at ha'
                rw [hb, Option.some.injEq] at hb'
                subst ha' hb'
                exact ⟨rfl, hm⟩
              have hnot : ¬ Reduced rank l := by
                intro hreduced
                rw [(reduced_iff l).1 hreduced] at hmin
                cases hmin
              cases hjoin : join a b with
              | none =>
                  refine iff_of_false (fun h => by cases h) ?_
                  intro h
                  cases h with
                  | done hreduced => exact hnot hreduced
                  | step h _ =>
                      have hm := (hpair h).2
                      rw [hjoin] at hm
                      cases hm
              | some merged =>
                  have hlength := @length_mergeAt α l found.1 (by omega) merged
                  have hrec := ih (mergeAt l found.1 merged) (by omega)
                  refine hrec.trans ?_
                  constructor
                  · exact Reduces.step ⟨⟨found.2, hleast⟩, a, b, ha, hb, hjoin⟩
                  · intro h
                    cases h with
                    | done hreduced => exact absurd hreduced hnot
                    | step h hrest =>
                        obtain ⟨rfl, hm⟩ := hpair h
                        rw [hjoin, Option.some.injEq] at hm
                        rw [hm]
                        exact hrest

/-! ### Parts of a list -/

theorem pairRank_append (x s y : List α) {position : Nat} (h : position + 1 < s.length) :
    pairRank rank (x ++ s ++ y) (x.length + position) = pairRank rank s position := by
  have hget : ∀ i, i < s.length → (x ++ s ++ y)[x.length + i]? = s[i]? := by
    intro i hi
    rw [List.append_assoc, List.getElem?_append_right (Nat.le_add_right _ _), Nat.add_sub_cancel_left,
      List.getElem?_append_left hi]
  rw [pairRank, pairRank, hget position (by omega), Nat.add_assoc, hget (position + 1) h]

theorem mergeAt_append (x s y : List α) {position : Nat} (h : position + 1 < s.length) (merged : α) :
    mergeAt (x ++ s ++ y) (x.length + position) merged = x ++ mergeAt s position merged ++ y := by
  have htake : (x ++ s ++ y).take (x.length + position) = x ++ s.take position := by
    rw [List.append_assoc, List.take_length_add_append, List.take_append_of_le_length (by omega)]
  have hdrop : (x ++ s ++ y).drop (x.length + position + 2) = s.drop (position + 2) ++ y := by
    rw [List.append_assoc, Nat.add_assoc, List.drop_length_add_append,
      List.drop_append_of_le_length (by omega)]
  rw [mergeAt, mergeAt, htake, hdrop]
  simp only [List.append_assoc, List.cons_append]

/-- The least pair of a list is the least pair of the part it is in. -/
theorem MergesPair.part {x s y : List α} {position : Nat} {merged : α}
    (h : MergesPair rank join (x ++ s ++ y) (x.length + position) merged)
    (hinside : position + 1 < s.length) : MergesPair rank join s position merged := by
  obtain ⟨r, hr⟩ := h.least
  obtain ⟨a, b, ha, hb, hm⟩ := h.joined
  have hkey : ∀ p, p < s.length - 1 →
      pairRank rank (x ++ s ++ y) (x.length + p) = pairRank rank s p :=
    fun p hp => pairRank_append x s y (by omega)
  have hlength : (x ++ s ++ y).length = x.length + s.length + y.length := by
    rw [List.length_append, List.length_append]
  refine ⟨⟨r, by omega, ?_, ?_, ?_⟩, a, b, ?_, ?_, hm⟩
  · rw [← hkey position (by omega)]
    exact hr.key_eq
  · intro p t hp ht
    rw [← hkey p hp] at ht
    exact hr.least _ t (by omega) ht
  · intro p t hp ht
    rw [← hkey p (by omega)] at ht
    exact hr.leftmost _ t (by omega) ht
  · rw [List.append_assoc, List.getElem?_append_right (Nat.le_add_right _ _),
      Nat.add_sub_cancel_left, List.getElem?_append_left (by omega)] at ha
    exact ha
  · rw [List.append_assoc, Nat.add_assoc, List.getElem?_append_right (Nat.le_add_right _ _),
      Nat.add_sub_cancel_left, List.getElem?_append_left hinside] at hb
    exact hb

theorem Reduced.part {x s y : List α} (h : Reduced rank (x ++ s ++ y)) : Reduced rank s := by
  intro position hposition
  rw [← pairRank_append x s y (by omega)]
  refine h _ ?_
  rw [List.length_append, List.length_append]
  omega

/-! ### Segments -/

/-- The merges of the concatenation of segments, each inside a segment. -/
inductive ReducesInside (rank : α → α → Option Nat) (join : α → α → Option α) :
    List (List α) → List (List α) → Prop
  | done {segments : List (List α)} (h : Reduced rank segments.flatten) :
      ReducesInside rank join segments segments
  | step {before after out : List (List α)} {segment : List α} {position : Nat} {merged : α}
      (hpair : MergesPair rank join (before ++ segment :: after).flatten
        (before.flatten.length + position) merged)
      (hinside : position + 1 < segment.length)
      (hrest : ReducesInside rank join (before ++ mergeAt segment position merged :: after) out) :
      ReducesInside rank join (before ++ segment :: after) out

theorem flatten_segment (before after : List (List α)) (segment : List α) :
    (before ++ segment :: after).flatten = before.flatten ++ segment ++ after.flatten := by
  rw [List.flatten_append, List.flatten_cons, List.append_assoc]

theorem forall₂_replace {R : List α → List α → Prop} {before after out : List (List α)}
    {s s' : List α} (h : List.Forall₂ R (before ++ s :: after) out) (hs : ∀ o, R s o → R s' o) :
    List.Forall₂ R (before ++ s' :: after) out := by
  induction before generalizing out with
  | nil =>
      cases h with
      | cons hhead htail => exact List.Forall₂.cons (hs _ hhead) htail
  | cons first before ih =>
      cases h with
      | cons hhead htail => exact List.Forall₂.cons hhead (ih htail)

/-- Merges that stay inside the segments reduce the whole and each segment. -/
theorem ReducesInside.reduces {segments out : List (List α)}
    (h : ReducesInside rank join segments out) :
    Reduces rank join segments.flatten out.flatten ∧
      List.Forall₂ (Reduces rank join) segments out := by
  induction h with
  | @done segments hreduced =>
      refine ⟨Reduces.done hreduced, List.forall₂_same.2 ?_⟩
      intro s hs
      obtain ⟨before, after, rfl⟩ := List.append_of_mem hs
      rw [flatten_segment] at hreduced
      exact Reduces.done hreduced.part
  | @step before after out segment position merged hpair hinside _ ih =>
      obtain ⟨hwhole, hparts⟩ := ih
      rw [flatten_segment] at hpair hwhole ⊢
      refine ⟨Reduces.step hpair ?_, forall₂_replace hparts ?_⟩
      · rw [mergeAt_append _ _ _ hinside]
        exact hwhole
      · exact fun o ho => Reduces.step (hpair.part hinside) ho

/-! ### Weights -/

/-- The weight of a list. -/
def weightOf (weight : α → Nat) (l : List α) : Nat := (l.map weight).sum

section Weights

variable {weight : α → Nat}

@[simp] theorem weightOf_nil : weightOf weight [] = 0 := rfl

@[simp] theorem weightOf_cons (a : α) (l : List α) :
    weightOf weight (a :: l) = weight a + weightOf weight l := by
  rw [weightOf, List.map_cons, List.sum_cons]
  rfl

@[simp] theorem weightOf_append (l l' : List α) :
    weightOf weight (l ++ l') = weightOf weight l + weightOf weight l' := by
  rw [weightOf, List.map_append, List.sum_append]
  rfl

theorem weightOf_take_le (l : List α) {i j : Nat} (h : i ≤ j) :
    weightOf weight (l.take i) ≤ weightOf weight (l.take j) := by
  obtain ⟨k, rfl⟩ := Nat.exists_eq_add_of_le h
  rw [List.take_add, weightOf_append]
  exact Nat.le_add_right _ _

theorem take_succ_of_getElem? {l : List α} {i : Nat} {a : α} (h : l[i]? = some a) :
    l.take (i + 1) = l.take i ++ [a] := by
  rw [List.take_add_one, h, Option.toList_some]

/-- The weights of a merge. -/
theorem MergesPair.weights (hjoin : ∀ a b c, join a b = some c → weight c = weight a + weight b)
    {l : List α} {position : Nat} {merged : α} (h : MergesPair rank join l position merged) :
    ∃ a b, l[position]? = some a ∧ l[position + 1]? = some b ∧ weight merged = weight a + weight b ∧
      l = l.take position ++ a :: b :: l.drop (position + 2) := by
  obtain ⟨a, b, ha, hb, hm⟩ := h.joined
  refine ⟨a, b, ha, hb, hjoin a b merged hm, ?_⟩
  have hsplit := List.take_append_drop (position + 2) l
  rw [take_succ_of_getElem? hb, take_succ_of_getElem? ha] at hsplit
  rw [← List.append_cons, ← List.append_cons] at hsplit
  exact hsplit.symm

theorem weightOf_mergeAt (hjoin : ∀ a b c, join a b = some c → weight c = weight a + weight b)
    {l : List α} {position : Nat} {merged : α} (h : MergesPair rank join l position merged) :
    weightOf weight (mergeAt l position merged) = weightOf weight l := by
  obtain ⟨a, b, _, _, hweight, hsplit⟩ := h.weights hjoin
  conv_rhs => rw [hsplit]
  rw [mergeAt]
  simp only [weightOf_append, weightOf_cons, hweight]
  omega

/-- A weight of a front of the merged list is that of a front of the list; the front
that ends between the merged two is lost. -/
theorem front_mergeAt (hjoin : ∀ a b c, join a b = some c → weight c = weight a + weight b)
    {l : List α} {position : Nat} {merged : α} (h : MergesPair rank join l position merged)
    (hpos : ∀ a ∈ l, 0 < weight a) (j : Nat) :
    (∃ i, weightOf weight ((mergeAt l position merged).take j) = weightOf weight (l.take i)) ∧
      weightOf weight ((mergeAt l position merged).take j) ≠
        weightOf weight (l.take (position + 1)) := by
  obtain ⟨a, b, ha, hb, hweight, hsplit⟩ := h.weights hjoin
  have hlt := h.lt
  have hapos := hpos a (List.mem_of_getElem? ha)
  have hbpos := hpos b (List.mem_of_getElem? hb)
  have hfront : (l.take position).length = position := by
    rw [List.length_take]
    omega
  have hmiddle : weightOf weight (l.take (position + 1)) =
      weightOf weight (l.take position) + weight a := by
    rw [take_succ_of_getElem? ha, weightOf_append, weightOf_cons, weightOf_nil, Nat.add_zero]
  by_cases hj : j ≤ position
  · have htake : (mergeAt l position merged).take j = l.take j := by
      rw [mergeAt, List.take_append_of_le_length (by omega), List.take_take, Nat.min_eq_left hj]
    rw [htake]
    refine ⟨⟨j, rfl⟩, ?_⟩
    have hle : weightOf weight (l.take j) ≤ weightOf weight (l.take position) :=
      weightOf_take_le l hj
    omega
  · obtain ⟨k, rfl⟩ : ∃ k, j = position + 1 + k := Nat.exists_eq_add_of_le (by omega)
    have htake : (mergeAt l position merged).take (position + 1 + k) =
        l.take position ++ merged :: (l.drop (position + 2)).take k := by
      rw [mergeAt, List.take_append, hfront, List.take_of_length_le (by omega)]
      congr 1
      rw [show position + 1 + k - position = k + 1 by omega, List.take_succ_cons]
    have hlonger : weightOf weight (l.take (position + 2 + k)) =
        weightOf weight (l.take position) + (weight a + (weight b +
          weightOf weight ((l.drop (position + 2)).take k))) := by
      rw [List.take_add, take_succ_of_getElem? hb, take_succ_of_getElem? ha]
      simp only [weightOf_append, weightOf_cons, weightOf_nil]
      omega
    rw [htake, weightOf_append, weightOf_cons, hweight]
    exact ⟨⟨position + 2 + k, by rw [hlonger]; omega⟩, by omega⟩

theorem pos_mergeAt (hjoin : ∀ a b c, join a b = some c → weight c = weight a + weight b)
    {l : List α} {position : Nat} {merged : α} (h : MergesPair rank join l position merged)
    (hpos : ∀ a ∈ l, 0 < weight a) : ∀ a ∈ mergeAt l position merged, 0 < weight a := by
  obtain ⟨a, b, ha, _, hweight, _⟩ := h.weights hjoin
  have hapos := hpos a (List.mem_of_getElem? ha)
  intro c hc
  rw [mergeAt, List.mem_append, List.mem_cons] at hc
  rcases hc with hfront | rfl | hback
  · exact hpos c (List.mem_of_mem_take hfront)
  · omega
  · exact hpos c (List.mem_of_mem_drop hback)

/-- The fronts of a reduced list weigh what fronts of the list did. -/
theorem Reduces.front (hjoin : ∀ a b c, join a b = some c → weight c = weight a + weight b)
    {l out : List α} (h : Reduces rank join l out) (hpos : ∀ a ∈ l, 0 < weight a) (j : Nat) :
    ∃ i, weightOf weight (out.take j) = weightOf weight (l.take i) := by
  induction h with
  | done _ => exact ⟨j, rfl⟩
  | step hpair _ ih =>
      obtain ⟨i, hi⟩ := ih (pos_mergeAt hjoin hpair hpos)
      obtain ⟨i', hi'⟩ := (front_mergeAt hjoin hpair hpos i).1
      exact ⟨i', hi.trans hi'⟩

theorem Reduces.weight_eq (hjoin : ∀ a b c, join a b = some c → weight c = weight a + weight b)
    {l out : List α} (h : Reduces rank join l out) : weightOf weight out = weightOf weight l := by
  induction h with
  | done _ => rfl
  | step hpair _ ih => exact ih.trans (weightOf_mergeAt hjoin hpair)

/-- Segments that weigh no more than others, and as much together, weigh the same. -/
theorem forall₂_weight_eq {segments out : List (List α)}
    (hle : List.Forall₂ (fun s o => weightOf weight o ≤ weightOf weight s) segments out)
    (htotal : weightOf weight out.flatten = weightOf weight segments.flatten) :
    List.Forall₂ (fun s o => weightOf weight s = weightOf weight o) segments out := by
  have htotal_le : ∀ {segments out : List (List α)},
      List.Forall₂ (fun s o => weightOf weight o ≤ weightOf weight s) segments out →
      weightOf weight out.flatten ≤ weightOf weight segments.flatten := by
    intro segments out h
    induction h with
    | nil => exact Nat.le_refl _
    | cons hhead _ ih =>
        rw [List.flatten_cons, List.flatten_cons, weightOf_append, weightOf_append]
        exact Nat.add_le_add hhead ih
  induction hle with
  | nil => exact List.Forall₂.nil
  | cons hhead htail ih =>
      rw [List.flatten_cons, List.flatten_cons, weightOf_append, weightOf_append] at htotal
      have hrest := htotal_le htail
      exact List.Forall₂.cons (by omega) (ih (by omega))

/-- Two cuts of one list into segments of the same weights are one cut. -/
theorem segments_eq_of_weights {segments out : List (List α)}
    (hweights : List.Forall₂ (fun s o => weightOf weight s = weightOf weight o) segments out)
    (hpos : ∀ a ∈ segments.flatten, 0 < weight a) (hflatten : segments.flatten = out.flatten) :
    segments = out := by
  have hnil : ∀ l : List α, (∀ a ∈ l, 0 < weight a) → weightOf weight l = 0 → l = [] := by
    intro l hl hzero
    cases l with
    | nil => rfl
    | cons a rest =>
        have ha := hl a List.mem_cons_self
        rw [weightOf_cons] at hzero
        omega
  induction hweights with
  | nil => rfl
  | @cons s o segments out hhead _ ih =>
      rw [List.flatten_cons] at hpos
      rw [List.flatten_cons, List.flatten_cons] at hflatten
      have hsame : s = o := by
        rcases List.append_eq_append_iff.1 hflatten with ⟨t, ho, hrest⟩ | ⟨t, hs, hrest⟩
        · rw [ho, weightOf_append] at hhead
          have ht : t = [] := hnil t
            (fun a ha => hpos a (List.mem_append_right s (hrest ▸ List.mem_append_left _ ha)))
            (by omega)
          rw [ho, ht, List.append_nil]
        · rw [hs, weightOf_append] at hhead
          have ht : t = [] := hnil t
            (fun a ha => hpos a (List.mem_append_left _ (hs ▸ List.mem_append_right o ha)))
            (by omega)
          rw [hs, ht, List.append_nil]
      rw [hsame] at hflatten ⊢
      rw [ih (fun a ha => hpos a (List.mem_append_right s ha))
        (List.append_cancel_left hflatten)]

/-- The segment that a position is in. -/
theorem exists_segment {segments : List (List α)} {position : Nat}
    (h : position < segments.flatten.length) :
    ∃ before segment after q, segments = before ++ segment :: after ∧
      position = before.flatten.length + q ∧ q < segment.length := by
  induction segments generalizing position with
  | nil => exact absurd h (Nat.not_lt_zero position)
  | cons s segments ih =>
      by_cases hs : position < s.length
      · exact ⟨[], s, segments, position, rfl, (Nat.zero_add _).symm, hs⟩
      · rw [List.flatten_cons, List.length_append] at h
        obtain ⟨before, segment, after, q, rfl, hq, hlt⟩ :=
          @ih (position - s.length) (by omega)
        refine ⟨s :: before, segment, after, q, rfl, ?_, hlt⟩
        rw [List.flatten_cons, List.length_append]
        omega

/-- The weight of the front of a result that ends with a segment. -/
theorem exists_front_of_segments {before after out : List (List α)} {segment : List α}
    (h : List.Forall₂ (fun s o => weightOf weight s = weightOf weight o)
      (before ++ segment :: after) out) :
    ∃ j, weightOf weight (out.flatten.take j) =
      weightOf weight (before.flatten ++ segment) := by
  induction before generalizing out with
  | nil =>
      cases h with
      | @cons _ o _ outs hhead _ =>
          refine ⟨o.length, ?_⟩
          rw [List.flatten_cons, List.take_left' rfl, ← hhead]
          rfl
  | cons first before ih =>
      cases h with
      | @cons _ o _ outs hhead htail =>
          obtain ⟨j, hj⟩ := ih htail
          refine ⟨o.length + j, ?_⟩
          rw [List.flatten_cons, List.take_length_add_append, weightOf_append, hj, List.flatten_cons,
            List.append_assoc, weightOf_append (l := first), hhead]

/-- When the segments of a result weigh what those of the list do, each merge stayed
inside a segment. -/
theorem Reduces.inside (hjoin : ∀ a b c, join a b = some c → weight c = weight a + weight b)
    {l out : List α} (h : Reduces rank join l out) {segments outs : List (List α)}
    (hl : l = segments.flatten) (hout : out = outs.flatten) (hpos : ∀ a ∈ l, 0 < weight a)
    (hweights : List.Forall₂ (fun s o => weightOf weight s = weightOf weight o) segments outs) :
    ReducesInside rank join segments outs := by
  induction h generalizing segments with
  | @done l hreduced =>
      subst hl
      rw [segments_eq_of_weights hweights hpos hout]
      rw [hout] at hreduced
      exact ReducesInside.done hreduced
  | @step l out position merged hpair hrest ih =>
      subst hl hout
      obtain ⟨before, segment, after, q, rfl, rfl, hq⟩ := exists_segment
        (Nat.lt_of_succ_lt hpair.lt)
      by_cases hinside : q + 1 < segment.length
      · refine ReducesInside.step hpair hinside (ih ?_ rfl ?_ ?_)
        · rw [flatten_segment, flatten_segment, mergeAt_append _ _ _ hinside]
        · exact pos_mergeAt hjoin hpair hpos
        · rw [flatten_segment] at hpair
          refine forall₂_replace hweights ?_
          intro o ho
          rw [weightOf_mergeAt hjoin (hpair.part hinside)]
          exact ho
      · -- The two would belong to different segments: the end of the first is lost.
        obtain ⟨j, hj⟩ := exists_front_of_segments hweights
        obtain ⟨i, hi⟩ := hrest.front hjoin (pos_mergeAt hjoin hpair hpos) j
        have hend : (before ++ segment :: after).flatten.take (before.flatten.length + q + 1) =
            before.flatten ++ segment := by
          have hlength : before.flatten.length + q + 1 = (before.flatten ++ segment).length := by
            rw [List.length_append]
            omega
          rw [hlength, flatten_segment, List.take_left' rfl]
        have hlost := (front_mergeAt hjoin hpair hpos i).2
        rw [hend, ← hj, ← hi] at hlost
        exact absurd rfl hlost

end Weights

end VBuf.Lib
