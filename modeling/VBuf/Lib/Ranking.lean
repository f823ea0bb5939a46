import Mathlib.Data.List.Sort

/-!
# Sorting by a key, and the first places of two orders

A list without equal keys has one sorted form.  Two keys put the same items on the
first places exactly when no pair they disagree about reaches those places.
-/

namespace VBuf.Lib.Ranking

variable {α K K' : Type*} [LinearOrder K] [LinearOrder K'] {key : α → K} {key' : α → K'}
  {l l' : List α} {a b : α} {k : Nat}

/-- The items in the order of their keys. -/
def sortBy (key : α → K) (l : List α) : List α := l.insertionSort fun a b => key a ≤ key b

/-- How many items come before `a`. -/
def rank (key : α → K) (l : List α) (a : α) : Nat := l.countP fun b => key b < key a

/-- The items in a strict order of their keys. -/
def Ascending (key : α → K) (l : List α) : Prop := l.Pairwise fun a b => key a < key b

theorem sortBy_perm : (sortBy key l).Perm l := List.perm_insertionSort _ _

@[simp] theorem mem_sortBy : a ∈ sortBy key l ↔ a ∈ l := sortBy_perm.mem_iff

@[simp] theorem length_sortBy : (sortBy key l).length = l.length := sortBy_perm.length_eq

theorem sortBy_ascending (h : (l.map key).Nodup) : Ascending key (sortBy key l) := by
  have htotal : Std.Total fun a b : α => key a ≤ key b := ⟨fun a b => le_total _ _⟩
  have htrans : IsTrans α fun a b => key a ≤ key b := ⟨fun a b c => le_trans⟩
  have hsorted := List.pairwise_insertionSort (fun a b : α => key a ≤ key b) l
  have hne : (sortBy key l).Pairwise fun a b => key a ≠ key b :=
    List.pairwise_map.1 ((sortBy_perm.map key).nodup_iff.2 h)
  exact hsorted.imp₂ (fun a b hle hne => lt_of_le_of_ne hle hne) hne

/-- A sort by a relation that compares keys. -/
theorem insertionSort_eq_sortBy {before : α → α → Prop} [DecidableRel before]
    (h : ∀ a b, before a b ↔ key a ≤ key b) : l.insertionSort before = sortBy key l := by
  have hbefore : before = fun a b => key a ≤ key b := by
    funext a b
    exact propext (h a b)
  subst hbefore
  unfold sortBy
  congr

/-- The place of an item is the number of items before it. -/
theorem Ascending.rank_getElem (h : Ascending key l) (hk : k < l.length) :
    rank key l l[k] = k := by
  have hsplit : l = l.take k ++ l[k] :: l.drop (k + 1) := by
    rw [← List.drop_eq_getElem_cons hk, List.take_append_drop]
  have hpair : Ascending key (l.take k ++ l[k] :: l.drop (k + 1)) := hsplit ▸ h
  obtain ⟨-, hrest, hcross⟩ := List.pairwise_append.1 hpair
  have hbefore : (l.take k).countP (fun b => decide (key b < key l[k])) = k := by
    rw [List.countP_eq_length.2, List.length_take, Nat.min_eq_left hk.le]
    intro b hb
    exact decide_eq_true (hcross b hb _ List.mem_cons_self)
  have hafter : (l[k] :: l.drop (k + 1)).countP (fun b => decide (key b < key l[k])) = 0 := by
    rw [List.countP_eq_zero]
    intro b hb
    rcases List.mem_cons.1 hb with rfl | hb
    · simp
    · simpa using ((List.pairwise_cons.1 hrest).1 b hb).le
  have hcount : (l.take k ++ l[k] :: l.drop (k + 1)).countP (fun b => decide (key b < key l[k])) =
      (l.take k).countP (fun b => decide (key b < key l[k])) +
        (l[k] :: l.drop (k + 1)).countP (fun b => decide (key b < key l[k])) := List.countP_append
  rw [← hsplit, hbefore, hafter] at hcount
  exact hcount

theorem rank_perm (hperm : l.Perm l') : rank key l a = rank key l' a := hperm.countP_eq _

theorem getElem_eq_of_take_eq {place : Nat} (h : l.take k = l'.take k) (hplace : place < k)
    (hin : place < l.length) (hin' : place < l'.length) : l[place] = l'[place] := by
  have hat := congrArg (·[place]?) h
  rw [List.getElem?_take_of_lt hplace, List.getElem?_take_of_lt hplace,
    List.getElem?_eq_getElem hin, List.getElem?_eq_getElem hin'] at hat
  exact Option.some.inj hat

/-- Where two orders agree, no item is ordered otherwise against another. -/
theorem Ascending.le_rank_of_take_eq (h : Ascending key l) (h' : Ascending key' l')
    (hperm : l.Perm l') (heq : l.take k = l'.take k) (ha : a ∈ l) (hb : b ∈ l)
    (hab : key a < key b) (hba : key' b < key' a) : k ≤ rank key l a := by
  have hlt := List.pairwise_iff_getElem.1 h
  have hlt' := List.pairwise_iff_getElem.1 h'
  obtain ⟨i, hi, rfl⟩ := List.getElem_of_mem ha
  obtain ⟨j, hj, rfl⟩ := List.getElem_of_mem (hperm.mem_iff.1 hb)
  rw [h.rank_getElem hi]
  by_contra hrank
  have hi' : i < l'.length := hperm.length_eq ▸ hi
  have hj' : j < l.length := hperm.length_eq ▸ hj
  have hati : l[i] = l'[i] := getElem_eq_of_take_eq heq (by omega) hi hi'
  -- The other order puts the second item before place `i`, where the lists are one.
  have hji : j < i := by
    rcases Nat.lt_trichotomy j i with hji | rfl | hij
    · exact hji
    · rw [hati] at hba
      exact absurd hba (lt_irrefl _)
    · have hbehind := hlt' i j hi' hj hij
      rw [← hati] at hbehind
      exact absurd hbehind (lt_asymm hba)
  have hatj : l[j] = l'[j] := getElem_eq_of_take_eq heq (by omega) hj' hj
  rw [← hatj] at hab
  exact absurd hab (lt_asymm (hlt j i hj' hi hji))

/-- Behind places where they agree, two orders have the same item, unless they disagree about
the items that they have there. -/
theorem Ascending.getElem_eq_of_take_eq (h : Ascending key l) (h' : Ascending key' l')
    (hperm : l.Perm l') (heq : l.take k = l'.take k) (hin : k < l.length) (hin' : k < l'.length)
    (hpairs : ∀ a ∈ l, ∀ b ∈ l, key a < key b → key' b < key' a → k < rank key l a) :
    l[k] = l'[k] := by
  have hlt := List.pairwise_iff_getElem.1 h
  have hlt' := List.pairwise_iff_getElem.1 h'
  have hnodup := h.imp fun hab => ne_of_apply_ne key (ne_of_lt hab)
  have hnodup' := h'.imp fun hab => ne_of_apply_ne key' (ne_of_lt hab)
  obtain ⟨i, hi, hati⟩ := List.getElem_of_mem (hperm.mem_iff.1 (List.getElem_mem hin))
  obtain ⟨j, hj, hatj⟩ := List.getElem_of_mem (hperm.mem_iff.2 (List.getElem_mem hin'))
  rcases Nat.lt_trichotomy i k with hik | rfl | hki
  · have hsame := (Ranking.getElem_eq_of_take_eq heq hik (by omega) hi).trans hati
    exact absurd ((List.Nodup.getElem_inj_iff hnodup).1 hsame) (by omega)
  · exact hati.symm
  · rcases Nat.lt_trichotomy j k with hjk | rfl | hkj
    · have hsame := (Ranking.getElem_eq_of_take_eq heq hjk hj (by omega)).symm.trans hatj
      exact absurd ((List.Nodup.getElem_inj_iff hnodup').1 hsame) (by omega)
    · exact hatj
    · -- Each order puts its own item first, so the pair is one they disagree about.
      have hrank := hpairs l[k] (List.getElem_mem _) l'[k]
        (hperm.mem_iff.2 (List.getElem_mem _)) (hatj ▸ hlt k j hin hj hkj)
        (hati ▸ hlt' k i hin' hi hki)
      rw [h.rank_getElem hin] at hrank
      exact absurd hrank (Nat.lt_irrefl k)

/-- Two orders agree on the first places exactly when an item they order otherwise
against another stands behind those places. -/
theorem take_eq_take_iff (h : Ascending key l) (h' : Ascending key' l') (hperm : l.Perm l') :
    l.take k = l'.take k ↔
      ∀ a ∈ l, ∀ b ∈ l, key a < key b → key' b < key' a → k ≤ rank key l a := by
  constructor
  · intro heq a ha b hb
    exact h.le_rank_of_take_eq h' hperm heq ha hb
  · intro hpairs
    induction k with
    | zero => rw [List.take_zero, List.take_zero]
    | succ k ih =>
      have hk : l.take k = l'.take k :=
        ih fun a ha b hb hab hba => Nat.le_of_succ_le (hpairs a ha b hb hab hba)
      by_cases hlength : k < l.length
      · have hlength' : k < l'.length := hperm.length_eq ▸ hlength
        rw [List.take_succ_eq_append_getElem hlength, List.take_succ_eq_append_getElem hlength', hk,
          h.getElem_eq_of_take_eq h' hperm hk hlength hlength' hpairs]
      · have hlength' := hperm.length_eq
        rw [List.take_of_length_le (by omega), List.take_of_length_le (by omega)] at hk
        rw [hk]

/-! ### The best item, and the best of the others -/

/-- `best` comes before all others; there is none among no items. -/
def IsBest (key : α → K) (l : List α) : Option α → Prop
  | none => l = []
  | some best => best ∈ l ∧ ∀ other ∈ l, other ≠ best → key best < key other

/-- The best item, and the best of the others. -/
def IsBestPair [DecidableEq α] (key : α → K) (l : List α) (first second : Option α) : Prop :=
  IsBest key l first ∧ IsBest key (l.filter fun item => some item ≠ first) second

theorem Ascending.isBest_iff (h : Ascending key l) {best : Option α} :
    IsBest key l best ↔ best = l.head? := by
  cases l with
  | nil => cases best <;> simp [IsBest]
  | cons first rest =>
    have hfirst := (List.pairwise_cons.1 h).1
    cases best with
    | none => simp [IsBest]
    | some best =>
      simp only [IsBest, List.head?_cons, Option.some.injEq]
      constructor
      · intro ⟨hmem, hbest⟩
        rcases List.mem_cons.1 hmem with heq | hrest
        · exact heq
        · by_contra hne
          exact lt_asymm (hfirst best hrest)
            (hbest first List.mem_cons_self fun heq => hne heq.symm)
      · rintro rfl
        refine ⟨List.mem_cons_self, ?_⟩
        intro other hmem hne
        exact hfirst other ((List.mem_cons.1 hmem).resolve_left hne)

theorem IsBest.of_perm (hperm : l.Perm l') {best : Option α} :
    IsBest key l best ↔ IsBest key l' best := by
  cases best with
  | none =>
    constructor
    · intro h
      exact (hperm.symm.trans (h ▸ List.Perm.refl _)).eq_nil
    · intro h
      exact (hperm.trans (h ▸ List.Perm.refl _)).eq_nil
  | some best => simp only [IsBest, hperm.mem_iff]

/-- The first two of the items in order are the best pair. -/
theorem isBestPair_iff [DecidableEq α] (h : (l.map key).Nodup) {first second : Option α} :
    IsBestPair key l first second ↔
      first = (sortBy key l)[0]? ∧ second = (sortBy key l)[1]? := by
  have hsorted := sortBy_ascending h
  have hperm : (sortBy key l).Perm l := sortBy_perm
  unfold IsBestPair
  rw [IsBest.of_perm hperm.symm, IsBest.of_perm (hperm.filter _).symm, hsorted.isBest_iff]
  generalize hl : sortBy key l = sorted at hsorted
  cases sorted with
  | nil => cases first <;> cases second <;> simp [IsBest]
  | cons best rest =>
    obtain ⟨hbest, hrest⟩ := List.pairwise_cons.1 hsorted
    simp only [List.head?_cons, List.getElem?_cons_zero, List.getElem?_cons_succ]
    refine and_congr_right ?_
    rintro rfl
    have hfilter : (best :: rest).filter (fun item => some item ≠ some best) = rest := by
      rw [List.filter_cons_of_neg (by simp)]
      refine List.filter_eq_self.2 ?_
      intro other hmem
      have hne : other ≠ best := fun heq => absurd (hbest other hmem) (by simp [heq])
      simpa using hne
    rw [hfilter, Ascending.isBest_iff hrest, List.head?_eq_getElem?]

end VBuf.Lib.Ranking
