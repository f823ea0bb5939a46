import Mathlib.Data.List.Forall2
import Mathlib.Logic.Basic

/-!
# Early-return results

`rejectIf` is the guard of an early-return function, and the lemmas invert a
successful run of a bind chain into the facts its guards established.
-/

namespace VBuf.Lib

universe u v

variable {ε : Type u} {α β : Type v}

/-- `if bad { return Err(error) }`. -/
def rejectIf (bad : Prop) [Decidable bad] (error : ε) : Except ε Unit :=
  if bad then .error error else .ok ()

@[simp] theorem rejectIf_eq_ok_iff {bad : Prop} {_ : Decidable bad} {error : ε} {u : Unit} :
    rejectIf bad error = .ok u ↔ ¬ bad := by
  unfold rejectIf
  by_cases h : bad <;> simp [h]

theorem rejectIf_eq_error_iff {bad : Prop} {_ : Decidable bad} {error e : ε} :
    rejectIf bad error = .error e ↔ bad ∧ error = e := by
  unfold rejectIf
  by_cases h : bad <;> simp [h]

/-- `option.ok_or(error)`. -/
def okOr (value : Option α) (error : ε) : Except ε α :=
  match value with
  | some a => .ok a
  | none => .error error

@[simp] theorem okOr_eq_ok_iff {value : Option α} {error : ε} {a : α} :
    okOr value error = .ok a ↔ value = some a := by
  cases value <;> simp [okOr]

/-- `result.map_err(f)`. -/
def mapErr {ε' : Type*} (f : ε → ε') (result : Except ε α) : Except ε' α :=
  match result with
  | .ok a => .ok a
  | .error e => .error (f e)

@[simp] theorem mapErr_eq_ok_iff {ε' : Type*} {f : ε → ε'} {result : Except ε α} {a : α} :
    mapErr f result = .ok a ↔ result = .ok a := by
  cases result <;> simp [mapErr]

/-- A bind chain succeeds exactly when each step does. -/
theorem bind_eq_ok_iff {x : Except ε α} {f : α → Except ε β} {b : β} :
    (x >>= f) = .ok b ↔ ∃ a, x = .ok a ∧ f a = .ok b := by
  cases x with
  | error e => simp [bind, Except.bind]
  | ok a => simp [bind, Except.bind]

/-- A bind chain fails in its first step or in the rest. -/
theorem bind_eq_error_iff {x : Except ε α} {f : α → Except ε β} {e : ε} :
    (x >>= f) = .error e ↔ x = .error e ∨ ∃ a, x = .ok a ∧ f a = .error e := by
  cases x with
  | error e' => simp [bind, Except.bind]
  | ok a => simp [bind, Except.bind]

@[simp] theorem pure_eq_ok_iff {a b : α} : (pure a : Except ε α) = .ok b ↔ a = b := by
  simp [pure, Except.pure]

/-- A result that is there is the one that can be taken out. -/
theorem eq_ok_get {result : Except ε α} (h : result.toOption.isSome = true) :
    result = .ok (result.toOption.get h) := by
  cases result with
  | error error => cases h
  | ok value => rfl

/-- A loop over a list succeeds exactly when each iteration does. -/
theorem mapM_eq_ok_iff {f : α → Except ε β} {xs : List α} {ys : List β} :
    xs.mapM f = .ok ys ↔ List.Forall₂ (fun x y => f x = .ok y) xs ys := by
  induction xs generalizing ys with
  | nil => simp [pure, Except.pure, eq_comm]
  | cons x rest ih =>
      simp only [List.mapM_cons, bind_eq_ok_iff, pure_eq_ok_iff, ih, List.forall₂_cons_left_iff]
      constructor
      · intro h
        obtain ⟨y, hy, tail, htail, rfl⟩ := h
        exact ⟨y, tail, hy, htail, rfl⟩
      · intro h
        obtain ⟨y, tail, hy, htail, rfl⟩ := h
        exact ⟨y, hy, tail, htail, rfl⟩

/-- A loop whose iterations all succeed succeeds. -/
theorem mapM_eq_ok_of_forall {f : α → Except ε β} {items : List α}
    (h : ∀ item ∈ items, ∃ value, f item = .ok value) : ∃ values, items.mapM f = .ok values := by
  induction items with
  | nil => exact ⟨[], rfl⟩
  | cons item rest ih =>
      obtain ⟨value, hvalue⟩ := h item List.mem_cons_self
      obtain ⟨values, hvalues⟩ := ih fun other hmem => h other (List.mem_cons_of_mem _ hmem)
      rw [mapM_eq_ok_iff] at hvalues
      exact ⟨value :: values, mapM_eq_ok_iff.2 (List.Forall₂.cons hvalue hvalues)⟩

/-- A loop of checks passes exactly when every check does. -/
theorem forM_eq_ok_iff {check : α → Except ε PUnit} {items : List α} :
    items.forM check = .ok ⟨⟩ ↔ ∀ item ∈ items, check item = .ok ⟨⟩ := by
  induction items with
  | nil => exact iff_of_true rfl nofun
  | cons item rest ih =>
      have hbind : (item :: rest).forM check = (check item >>= fun _ => rest.forM check) := rfl
      rw [hbind, bind_eq_ok_iff, List.forall_mem_cons, ← ih]
      constructor
      · rintro ⟨_, hfirst, hrest⟩
        exact ⟨hfirst, hrest⟩
      · rintro ⟨hfirst, hrest⟩
        exact ⟨_, hfirst, hrest⟩

/-- A loop whose steps all succeed does what the loop of the successes does. -/
theorem foldlM_eq_ok {σ : Type v} {ι : Type*} {step : σ → ι → Except ε σ} {pureStep : σ → ι → σ}
    {inv : σ → Prop} {items : List ι} {start : σ} (hstart : inv start)
    (hstep : ∀ item ∈ items, ∀ state, inv state →
      step state item = .ok (pureStep state item) ∧ inv (pureStep state item)) :
    items.foldlM step start = .ok (items.foldl pureStep start) ∧
      inv (items.foldl pureStep start) := by
  induction items generalizing start with
  | nil => exact ⟨rfl, hstart⟩
  | cons item rest ih =>
      rw [List.forall_mem_cons] at hstep
      obtain ⟨hfirst, hinv⟩ := hstep.1 start hstart
      rw [List.foldlM_cons, hfirst, List.foldl_cons]
      exact ih hinv hstep.2

/-- What each turn of a counting loop keeps, the whole loop keeps. -/
theorem foldlM_range_inv {σ : Type v} {step : σ → Nat → Except ε σ} {inv : Nat → σ → Prop}
    {count : Nat} {start last : σ} (h : (List.range count).foldlM step start = .ok last)
    (hstart : inv 0 start)
    (hstep : ∀ i, i < count → ∀ s s', inv i s → step s i = .ok s' → inv (i + 1) s') :
    inv count last := by
  induction count generalizing last with
  | zero =>
      cases h
      exact hstart
  | succ count ih =>
      rw [List.range_succ, List.foldlM_append] at h
      obtain ⟨middle, hmiddle, hlast⟩ := bind_eq_ok_iff.1 h
      rw [List.foldlM_cons] at hlast
      obtain ⟨next, hnext, hrest⟩ := bind_eq_ok_iff.1 hlast
      cases hrest
      exact hstep count (Nat.lt_succ_self count) middle _
        (ih hmiddle fun i hi => hstep i (Nat.lt_succ_of_lt hi)) hnext

/-- A counting loop whose turns all succeed succeeds. -/
theorem exists_foldlM_range {σ : Type v} {step : σ → Nat → Except ε σ} {inv : Nat → σ → Prop}
    {start : σ} (count : Nat) (hstart : inv 0 start)
    (hstep : ∀ i, i < count → ∀ s, inv i s → ∃ s', step s i = .ok s' ∧ inv (i + 1) s') :
    ∃ last, (List.range count).foldlM step start = .ok last ∧ inv count last := by
  induction count with
  | zero => exact ⟨start, rfl, hstart⟩
  | succ count ih =>
      obtain ⟨middle, hmiddle, hinv⟩ := ih fun i hi => hstep i (Nat.lt_succ_of_lt hi)
      obtain ⟨last, hlast, hend⟩ := hstep count (Nat.lt_succ_self count) middle hinv
      refine ⟨last, ?_, hend⟩
      rw [List.range_succ, List.foldlM_append]
      refine bind_eq_ok_iff.2 ⟨middle, hmiddle, ?_⟩
      rw [List.foldlM_cons, hlast]
      rfl

/-- A loop over a concatenation is a loop over each part. -/
theorem mapM_flatten_eq_ok_iff {f : α → Except ε β} {parts : List (List α)} {ys : List β} :
    parts.flatten.mapM f = .ok ys ↔
      ∃ outs, List.Forall₂ (fun part out => part.mapM f = .ok out) parts outs ∧
        ys = outs.flatten := by
  induction parts generalizing ys with
  | nil =>
      constructor
      · intro h
        cases h
        exact ⟨[], List.Forall₂.nil, rfl⟩
      · intro h
        obtain ⟨outs, houts, rfl⟩ := h
        cases houts
        rfl
  | cons part rest ih =>
      rw [List.flatten_cons, List.mapM_append]
      simp only [bind_eq_ok_iff, pure_eq_ok_iff, ih, List.forall₂_cons_left_iff]
      constructor
      · intro h
        obtain ⟨out, hout, _, ⟨outs, houts, rfl⟩, rfl⟩ := h
        exact ⟨out :: outs, ⟨out, outs, hout, houts, rfl⟩, rfl⟩
      · intro h
        obtain ⟨_, ⟨out, outs, hout, houts, rfl⟩, rfl⟩ := h
        exact ⟨out, hout, outs.flatten, ⟨outs, houts, rfl⟩, rfl⟩

/-- Each item of a result list comes from an item of the list. -/
theorem exists_of_mem_right {α β : Type*} {R : α → β → Prop} {xs : List α} {ys : List β}
    (h : List.Forall₂ R xs ys) {y : β} (hy : y ∈ ys) : ∃ x ∈ xs, R x y := by
  induction h with
  | nil => cases hy
  | @cons x z xs zs hhead _ ih =>
      rcases List.mem_cons.1 hy with rfl | hmem
      · exact ⟨x, List.mem_cons_self, hhead⟩
      · obtain ⟨x', hx', hR⟩ := ih hmem
        exact ⟨x', List.mem_cons_of_mem _ hx', hR⟩

/-- Each item of the list has a result. -/
theorem exists_of_mem_left {α β : Type*} {R : α → β → Prop} {xs : List α} {ys : List β}
    (h : List.Forall₂ R xs ys) {x : α} (hx : x ∈ xs) : ∃ y ∈ ys, R x y :=
  exists_of_mem_right h.flip hx

/-- Two results of one list are related item by item. -/
theorem forall₂_of_common {α β γ : Type*} {R : α → β → Prop} {S : α → γ → Prop} {T : β → γ → Prop}
    {xs : List α} {ys : List β} {zs : List γ} (hR : List.Forall₂ R xs ys)
    (hS : List.Forall₂ S xs zs) (himp : ∀ x ∈ xs, ∀ y z, R x y → S x z → T y z) :
    List.Forall₂ T ys zs := by
  induction hR generalizing zs with
  | nil =>
      cases hS
      exact List.Forall₂.nil
  | @cons x y xs ys hhead _ ih =>
      cases hS with
      | cons hhead' htail' =>
          refine List.Forall₂.cons (himp x List.mem_cons_self y _ hhead hhead') (ih htail' ?_)
          exact fun x hx => himp x (List.mem_cons_of_mem _ hx)

/-- An order of the results is an order of the items. -/
theorem pairwise_of_forall₂ {α β : Type*} {R : α → β → Prop} {S : β → β → Prop} {T : α → α → Prop}
    {xs : List α} {ys : List β} (h : List.Forall₂ R xs ys) (hys : ys.Pairwise S)
    (himp : ∀ a b c d, R a c → R b d → S c d → T a b) : xs.Pairwise T := by
  induction h with
  | nil => exact List.Pairwise.nil
  | @cons x y xs ys hhead htail ih =>
      obtain ⟨hfirst, hrest⟩ := List.pairwise_cons.1 hys
      refine List.pairwise_cons.2 ⟨?_, ih hrest⟩
      intro b hb
      obtain ⟨d, hd, hR⟩ := exists_of_mem_left htail hb
      exact himp x b y d hhead hR (hfirst d hd)

/-- Lists that are no longer than others, and as long together, are the same when
equal lengths tell so. -/
theorem eq_of_length_flatten {β : Type*} {parts outs : List (List β)}
    (h : List.Forall₂ (fun part out => part.length ≤ out.length ∧
      (part.length = out.length → part = out)) parts outs) :
    parts.flatten.length ≤ outs.flatten.length ∧
      (parts.flatten.length = outs.flatten.length → parts = outs) := by
  induction h with
  | nil => exact ⟨Nat.le_refl 0, fun _ => rfl⟩
  | @cons part out parts outs hhead _ ih =>
      rw [List.flatten_cons, List.flatten_cons, List.length_append, List.length_append]
      refine ⟨Nat.add_le_add hhead.1 ih.1, ?_⟩
      intro hlength
      have hfirst := hhead.1
      have hrest := ih.1
      rw [hhead.2 (by omega), ih.2 (by omega)]

/-! ### Results with a state that survives an error -/

section Stateful

variable {ε σ α β : Type u}

/-- `result?` inside a method: the state is untouched either way. -/
def liftResult (result : Except ε α) : EStateM ε σ α :=
  match result with
  | .ok a => fun s => .ok a s
  | .error e => fun s => .error e s

theorem liftResult_eq_ok_iff {result : Except ε α} {a : α} {s s' : σ} :
    liftResult result s = .ok a s' ↔ result = .ok a ∧ s = s' := by
  cases result <;> simp [liftResult]

theorem liftResult_eq_error_iff {result : Except ε α} {e : ε} {s s' : σ} :
    (liftResult result : EStateM ε σ α) s = .error e s' ↔ result = .error e ∧ s = s' := by
  cases result <;> simp [liftResult]

theorem run_pure_eq_ok_iff {a b : α} {s s' : σ} :
    (pure a : EStateM ε σ α) s = .ok b s' ↔ a = b ∧ s = s' := by
  simp [pure, EStateM.pure]

theorem run_get_eq_ok_iff {s a s' : σ} :
    (get : EStateM ε σ σ) s = .ok a s' ↔ s = a ∧ s = s' := by
  show EStateM.Result.ok s s = EStateM.Result.ok a s' ↔ _
  rw [EStateM.Result.ok.injEq]

theorem run_set_eq_ok_iff {s t s' : σ} {u : PUnit} :
    (set t : EStateM ε σ PUnit) s = .ok u s' ↔ s' = t := by
  show EStateM.Result.ok PUnit.unit t = EStateM.Result.ok u s' ↔ _
  simp [@eq_comm _ t]

theorem run_bind_eq_ok_iff {x : EStateM ε σ α} {f : α → EStateM ε σ β} {b : β} {s s' : σ} :
    (x >>= f) s = .ok b s' ↔ ∃ a s₁, x s = .ok a s₁ ∧ f a s₁ = .ok b s' := by
  simp only [bind, EStateM.bind]
  cases x s with
  | ok a s₁ => simp [and_assoc]
  | error e s₁ => simp

/-- A chain fails in its first step, or in the rest from where that step led. -/
theorem run_bind_eq_error_iff {x : EStateM ε σ α} {f : α → EStateM ε σ β} {e : ε} {s s' : σ} :
    (x >>= f) s = .error e s' ↔
      x s = .error e s' ∨ ∃ a s₁, x s = .ok a s₁ ∧ f a s₁ = .error e s' := by
  simp only [bind, EStateM.bind]
  cases x s with
  | ok a s₁ => simp [and_assoc]
  | error e s₁ => simp

end Stateful

end VBuf.Lib
