import Mathlib.Order.Defs.PartialOrder

/-!
# Programs that share a state

A `Program` answers, or makes a call and goes on with the response.  Several
programs interleave call by call over one state.  `Sharing` fixes what a call
does and what every call keeps; `Spec` is the triple that survives any calls of
the others in between.  The rules follow the program's structure.
-/

namespace VBuf.Lib

/-- A value, or a call together with what follows each response. -/
inductive Program (Call : Type) (Response : Call → Type) (α : Type) : Type
  | done (a : α)
  | call (c : Call) (next : Response c → Program Call Response α)

namespace Program

variable {Call : Type} {Response : Call → Type} {α β : Type}

def bind : Program Call Response α → (α → Program Call Response β) → Program Call Response β
  | .done a, rest => rest a
  | .call c next, rest => .call c (fun r => (next r).bind rest)

instance : Monad (Program Call Response) where
  pure := .done
  bind := bind

end Program

/-- Calls over a shared state, an invariant, and what each call keeps for the
others. -/
structure Sharing (Call : Type) (Response : Call → Type) (σ : Type) where
  effect : (c : Call) → σ → Response c → σ → Prop
  inv : σ → Prop
  keeps : σ → σ → Prop
  refl : ∀ s, keeps s s
  trans : ∀ s t u, keeps s t → keeps t u → keeps s u

namespace Sharing

variable {Call : Type} {Response : Call → Type} {σ α β : Type} (S : Sharing Call Response σ)

/-- A fact that no call can take away. -/
def Stable (fact : σ → Prop) : Prop := ∀ s t, S.keeps s t → fact s → fact t

/-- However the others run in between, each call keeps the invariant and what
the others rely on, and the answer meets the postcondition. -/
def Safe : Program Call Response α → (α → σ → Prop) → σ → Prop
  | .done a, post, s => ∀ t, S.keeps s t → S.inv t → post a t
  | .call c next, post, s => ∀ t, S.keeps s t → S.inv t → ∀ r u, S.effect c t r u →
      S.inv u ∧ S.keeps t u ∧ Safe (next r) post u

/-- Safe from every state with the precondition. -/
def Spec (pre : σ → Prop) (p : Program Call Response α) (post : α → σ → Prop) : Prop :=
  ∀ s, pre s → S.Safe p post s

variable {S}

theorem Stable.and {a b : σ → Prop} (ha : S.Stable a) (hb : S.Stable b) :
    S.Stable (fun s => a s ∧ b s) :=
  fun s t hkeeps h => ⟨ha s t hkeeps h.1, hb s t hkeeps h.2⟩

theorem Stable.const (p : Prop) : S.Stable (fun _ => p) := fun _ _ _ h => h

theorem Stable.forall {ι : Sort*} {fact : ι → σ → Prop} (h : ∀ i, S.Stable (fact i)) :
    S.Stable (fun s => ∀ i, fact i s) :=
  fun s t hkeeps hs i => h i s t hkeeps (hs i)

theorem Stable.imp {p : Prop} {fact : σ → Prop} (h : S.Stable fact) :
    S.Stable (fun s => p → fact s) :=
  fun s t hkeeps hs hp => h s t hkeeps (hs hp)

/-- What the others do leaves a program safe. -/
theorem Safe.stable {p : Program Call Response α} {post : α → σ → Prop} {s t : σ}
    (h : S.Safe p post s) (hkeeps : S.keeps s t) : S.Safe p post t := by
  cases p with
  | done a => exact fun u hu hinv => h u (S.trans s t u hkeeps hu) hinv
  | call c next => exact fun u hu hinv => h u (S.trans s t u hkeeps hu) hinv

theorem Safe.weaken {p : Program Call Response α} {post post' : α → σ → Prop} {s : σ}
    (h : S.Safe p post s) (hpost : ∀ a s, S.inv s → post a s → post' a s) :
    S.Safe p post' s := by
  induction p generalizing s with
  | done a => exact fun t ht hinv => hpost a t hinv (h t ht hinv)
  | call c next ih =>
      intro t ht hinv r u hcall
      obtain ⟨hu, hkeeps, hnext⟩ := h t ht hinv r u hcall
      exact ⟨hu, hkeeps, ih r hnext⟩

/-- Safety may be shown once the others have run. -/
theorem Safe.of_later {p : Program Call Response α} {post : α → σ → Prop} {s : σ}
    (h : ∀ t, S.keeps s t → S.inv t → S.Safe p post t) : S.Safe p post s := by
  cases p with
  | done a => exact fun t ht hinv => h t ht hinv t (S.refl t) hinv
  | call c next => exact fun t ht hinv => h t ht hinv t (S.refl t) hinv

/-- A stable fact is carried through a program. -/
theorem Safe.frame {p : Program Call Response α} {post : α → σ → Prop} {fact : σ → Prop} {s : σ}
    (h : S.Safe p post s) (hstable : S.Stable fact) (hfact : fact s) :
    S.Safe p (fun a s => post a s ∧ fact s) s := by
  induction p generalizing s with
  | done a => exact fun t ht hinv => ⟨h t ht hinv, hstable s t ht hfact⟩
  | call c next ih =>
      intro t ht hinv r u hcall
      obtain ⟨hu, hkeeps, hnext⟩ := h t ht hinv r u hcall
      exact ⟨hu, hkeeps, ih r hnext (hstable t u hkeeps (hstable s t ht hfact))⟩

theorem Safe.bind {p : Program Call Response α} {rest : α → Program Call Response β}
    {post : β → σ → Prop} {s : σ} (h : S.Safe p (fun a => S.Safe (rest a) post) s) :
    S.Safe (p.bind rest) post s := by
  induction p generalizing s with
  | done a => exact Safe.of_later h
  | call c next ih =>
      intro t ht hinv r u hcall
      obtain ⟨hu, hkeeps, hnext⟩ := h t ht hinv r u hcall
      exact ⟨hu, hkeeps, ih r hnext⟩

/-! ### Rules -/

/-- The rule of consequence. -/
theorem Spec.weaken {pre pre' : σ → Prop} {p : Program Call Response α} {post post' : α → σ → Prop}
    (h : S.Spec pre p post) (hpre : ∀ s, pre' s → pre s)
    (hpost : ∀ a s, S.inv s → post a s → post' a s) : S.Spec pre' p post' :=
  fun s hs => (h s (hpre s hs)).weaken hpost

/-- The frame rule. -/
theorem Spec.frame {pre fact : σ → Prop} {p : Program Call Response α} {post : α → σ → Prop}
    (h : S.Spec pre p post) (hstable : S.Stable fact) :
    S.Spec (fun s => pre s ∧ fact s) p (fun a s => post a s ∧ fact s) :=
  fun s hs => (h s hs.1).frame hstable hs.2

theorem Spec.done {pre : σ → Prop} {post : α → σ → Prop} {a : α} (hstable : S.Stable pre)
    (h : ∀ s, S.inv s → pre s → post a s) : S.Spec pre (pure a) post :=
  fun s hs t ht hinv => h t hinv (hstable s t ht hs)

/-- The rule of sequencing. -/
theorem Spec.bind {pre : σ → Prop} {p : Program Call Response α} {middle : α → σ → Prop}
    {rest : α → Program Call Response β} {post : β → σ → Prop} (h : S.Spec pre p middle)
    (hrest : ∀ a, S.Spec (middle a) (rest a) post) :
    S.Spec pre (p >>= rest) post :=
  fun s hs => Safe.bind ((h s hs).weaken (fun a t _ ht => hrest a t ht))

/-- A call: what it does from any state with the invariant and the precondition. -/
theorem Spec.call {pre : σ → Prop} {c : Call} {middle : Response c → σ → Prop}
    {next : Response c → Program Call Response α} {post : α → σ → Prop} (hstable : S.Stable pre)
    (h : ∀ s r t, S.inv s → pre s → S.effect c s r t → S.inv t ∧ S.keeps s t ∧ middle r t)
    (hnext : ∀ r, S.Spec (middle r) (next r) post) : S.Spec pre (.call c next) post := by
  intro s hs t ht hinv r u hcall
  obtain ⟨hu, hkeeps, hmiddle⟩ := h t r u hinv (hstable s t ht hs) hcall
  exact ⟨hu, hkeeps, hnext r u hmiddle⟩

/-- Both branches of a conditional. -/
theorem Spec.ite {pre : σ → Prop} {b : Prop} [Decidable b] {p q : Program Call Response α}
    {post : α → σ → Prop} (hthen : b → S.Spec pre p post) (helse : ¬ b → S.Spec pre q post) :
    S.Spec pre (if b then p else q) post := by
  by_cases hb : b
  · rw [if_pos hb]
    exact hthen hb
  · rw [if_neg hb]
    exact helse hb

end Sharing

end VBuf.Lib
